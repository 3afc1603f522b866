import HologramLive.Oci.Store
namespace HologramLive

inductive ErrorCode where
  | blobUnknown
  | blobUploadInvalid
  | blobUploadUnknown
  | digestInvalid
  | manifestBlobUnknown
  | manifestInvalid
  | manifestUnknown
  | manifestUnverified
  | nameInvalid
  | nameUnknown
  | paginationNumberInvalid
  | rangeInvalid
  | sizeInvalid
  | tagInvalid
  | unauthorized
  | denied
  | unsupported
  | tooManyRequests
  | unavailable
  | unknown
deriving DecidableEq, Repr

namespace ErrorCode

def status : ErrorCode → Nat
  | blobUnknown | blobUploadInvalid | blobUploadUnknown | manifestUnknown | nameUnknown => 404
  | digestInvalid | manifestBlobUnknown | manifestInvalid | manifestUnverified | nameInvalid
  | paginationNumberInvalid | sizeInvalid | tagInvalid => 400
  | rangeInvalid => 416
  | unauthorized => 401
  | denied => 403
  | unsupported => 405
  | tooManyRequests => 429
  | unavailable => 503
  | unknown => 500

def defaultMessage : ErrorCode → Str
  | blobUnknown | manifestBlobUnknown => "blob unknown to registry".toList
  | blobUploadInvalid => "blob upload invalid".toList
  | blobUploadUnknown => "blob upload unknown to registry".toList
  | digestInvalid => "provided digest did not match uploaded content".toList
  | manifestInvalid => "manifest invalid".toList
  | manifestUnknown => "manifest unknown".toList
  | manifestUnverified => "manifest failed signature verification".toList
  | nameInvalid => "invalid repository name".toList
  | nameUnknown => "repository name not known to registry".toList
  | paginationNumberInvalid => "invalid number of results requested".toList
  | rangeInvalid => "invalid content range".toList
  | sizeInvalid => "provided length did not match content length".toList
  | tagInvalid => "manifest tag did not match URI".toList
  | unauthorized => "authentication required".toList
  | denied => "requested access to the resource is denied".toList
  | unsupported => "The operation is unsupported.".toList
  | tooManyRequests => "too many requests".toList
  | unavailable => "service unavailable".toList
  | unknown => "unknown error".toList

end ErrorCode

-- Which route asked the store. One store error maps differently by route.
inductive Context where
  | blob
  | manifest
  | upload
  | tags
deriving DecidableEq, Repr

-- A refusal under `/v2/`. No code is the answer without an envelope; `allow` is
-- the one header a refusal carries.
structure OciError where
  code : Option ErrorCode
  override : Option Nat
  message : Str
  detail : OciJson
  allow : Option Str

namespace OciError

def new (code : ErrorCode) : OciError := ⟨some code,none,code.defaultMessage,.null,none⟩
def withDetail (error : OciError) (detail : OciJson) : OciError := {error with detail := detail}

def unknownRoute : OciError := ⟨none,none,"404 page not found\n".toList,.null,none⟩
def wrongMethod (allow : Str) : OciError := ⟨none,some 405,"Method not allowed\n".toList,.null,some allow⟩
def uploadUnknown : OciError := (new .blobUploadUnknown).withDetail (.string "blob upload unknown".toList)
def internal : OciError := new .unknown

def status (error : OciError) : Nat :=
  match error.override with
  | some status => status
  | none => match error.code with
    | some code => code.status
    | none => 404

def asciiHexDigit (c : Char) : Bool := c.isDigit || ('a' ≤ c && c ≤ 'f') || ('A' ≤ c && c ≤ 'F')

def digestFault (value : Str) : Str :=
  match splitOnce ':' value with
  | some (algorithm,hex) =>
    if algorithm ∈ ["sha256".toList,"sha512".toList,"blake3".toList] then
      if hex.all asciiHexDigit then "invalid checksum digest length".toList else "invalid checksum digest format".toList
    else "unsupported digest algorithm".toList
  | none => "invalid checksum digest format".toList

def ofInvalid (what value : Str) : OciError :=
  if what = "digest".toList then (new .digestInvalid).withDetail (.string (digestFault value))
  else if what = "repository name".toList then (new .nameInvalid).withDetail (.string value)
  else if what = "tag".toList then (new .tagInvalid).withDetail (.string value)
  else if what = "upload id".toList then uploadUnknown
  else internal

def fromStore (error : OciStoreError) (context : Context) : OciError :=
  match error with
  | .invalid what value => ofInvalid what value
  | .notInRepository repo digest => match context with
    | .manifest | .tags => (new .manifestUnknown).withDetail
        (.object [("Name".toList,.string repo),("Revision".toList,.string digest)])
    | .blob | .upload => (new .blobUnknown).withDetail (.string digest)
  | .unknownRepository repo => match context with
    | .tags => (new .nameUnknown).withDetail (.object [("name".toList,.string repo)])
    | .manifest => (new .manifestUnknown).withDetail (.object [("Name".toList,.string repo)])
    | .blob | .upload => new .blobUnknown
  | .unknownUpload _ => uploadUnknown
  | .digestMismatch claimed => match context with
    | .manifest => new .digestInvalid
    | .blob | .upload | .tags => (new .digestInvalid).withDetail (.string
        ("invalid digest for referenced layer: ".toList ++ claimed ++ ", content does not match digest".toList))
  | .offsetMismatch _ _ => new .rangeInvalid
  | .missingReferences digests => (new .manifestBlobUnknown).withDetail (.array (digests.map .string))
  | .io _ | .locked | .layout _ => internal

end OciError

end HologramLive
