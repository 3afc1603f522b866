import HologramLive.Artifact.Manifest
namespace HologramLive
open Tables Fallible

-- One immutable revision of a model repository.
namespace Repo

def repoManifestFormat : Str := "hologram.repo-manifest/v1".toList
def maxChunkBytes : UInt64 := 256*1024*1024
def blake3Prefix : Str := "blake3:".toList
def sha256Prefix : Str := "sha256:".toList

structure ManifestChunk where
  kappa : Str
  offset : UInt64
  size : UInt64
deriving DecidableEq, Repr

structure ManifestFile where
  path : Str
  size : UInt64
  mediaType : Option Str
  sha256 : Option Str
  blake3 : Str
  chunks : List ManifestChunk
deriving DecidableEq, Repr

structure ManifestSource where
  kind : Str
  repo : Str
  revision : Str
deriving DecidableEq, Repr

structure RepoManifest where
  format : Str
  name : Str
  source : Option ManifestSource
  files : List ManifestFile
deriving DecidableEq, Repr

def isGraphic (c : Char) : Bool := '!' ≤ c && c ≤ '~'
def isControl (c : Char) : Bool := c.toNat < 32 || (127 ≤ c.toNat && c.toNat < 160)

def validateRepoName (name : Str) : Except LiveError Unit :=
  let parts := name.splitOn '/'
  if parts.length ≠ 2 || parts.any List.isEmpty then .error (.protocol ("repo name ".toList ++ quoted name ++
    " must be \"namespace/repo\" with non-empty parts".toList))
  else match parts.find? fun part => !part.all fun c => asciiAlnum c || c ∈ ['.','_','-'] with
    | some part => .error (.protocol ("repo name part ".toList ++ quoted part ++
        " may only contain [A-Za-z0-9._-]".toList))
    | none => .ok ()

def validateFilePath (path : Str) : Except LiveError Unit :=
  if path.isEmpty || ['/'].isPrefixOf path || path.contains '\\' ||
      (path.splitOn '/').any (fun segment => segment = [] || segment = ".".toList || segment = "..".toList) ||
      path.any isControl then
    .error (.protocol ("invalid repo file path ".toList ++ quoted path))
  else .ok ()

def validateDigest (value algorithm : Str) : Except LiveError Unit :=
  if isDigestOf algorithm value then .ok ()
  else .error (.protocol (quoted value ++ " must be ".toList ++ quoted algorithm ++
    " followed by 64 lowercase hex characters".toList))

def validateKappa (kappa : Str) : Except LiveError Unit := validateDigest kappa blake3Prefix

def validateMediaType (path mediaType : Str) : Except LiveError Unit :=
  if !mediaType.contains '/' || !mediaType.all isGraphic then .error (.protocol ("file ".toList ++ quoted path ++
    " media type ".toList ++ quoted mediaType ++ " is malformed".toList))
  else .ok ()

def checkedAdd (a b : UInt64) : Option UInt64 := if a.toNat+b.toNat < 2^64 then some (a+b) else none

def validateChunk (path : Str) (expectedOffset : UInt64) (chunk : ManifestChunk) : Except LiveError UInt64 := do
  validateKappa chunk.kappa
  if chunk.size = 0 || maxChunkBytes < chunk.size then
    .error (.protocol ("file ".toList ++ quoted path ++ " declares a ".toList ++ decimal chunk.size.toNat ++
      " byte chunk; chunks must be 1 to ".toList ++ decimal maxChunkBytes.toNat ++ " bytes".toList))
  else if chunk.offset ≠ expectedOffset then
    .error (.protocol ("file ".toList ++ quoted path ++ " chunks are not contiguous: offset ".toList ++
      decimal chunk.offset.toNat ++ " where ".toList ++ decimal expectedOffset.toNat ++ " was expected".toList))
  else match checkedAdd expectedOffset chunk.size with
    | some next => return next
    | none => .error (.protocol ("file ".toList ++ quoted path ++ " chunk offsets overflow".toList))

def validateFile (file : ManifestFile) : Except LiveError Unit := do
  validateFilePath file.path
  let _ ← file.mediaType.mapM (validateMediaType file.path)
  let _ ← file.sha256.mapM fun sha256 => validateDigest sha256 sha256Prefix
  validateKappa file.blake3
  let covered ← file.chunks.foldlM (validateChunk file.path) 0
  if covered ≠ file.size then
    .error (.protocol ("file ".toList ++ quoted file.path ++ " chunks cover ".toList ++ decimal covered.toNat ++
      " bytes but the manifest declares ".toList ++ decimal file.size.toNat))
  else return ()

def validateSourceField (field : String) (value : Str) : Except LiveError Unit :=
  if value.isEmpty || !value.all isGraphic then .error (.protocol ("manifest source ".toList ++ field.toList ++ [' '] ++
    quoted value ++ " must be non-empty printable ASCII".toList))
  else .ok ()

def validateSource (source : ManifestSource) : Except LiveError Unit := do
  validateSourceField "kind" source.kind
  validateSourceField "repo" source.repo
  validateSourceField "revision" source.revision

def validateEntry (seen : KeySet Str) (file : ManifestFile) : Except LiveError (KeySet Str) := do
  validateFile file
  if file.path ∈ seen then
    .error (.protocol ("duplicate file path ".toList ++ quoted file.path ++ " in repo manifest".toList))
  else return seen.insert file.path

namespace RepoManifest

def validate (manifest : RepoManifest) : Except LiveError Unit := do
  if manifest.format ≠ repoManifestFormat then
    .error (.protocol ("unsupported repo manifest format ".toList ++ quoted manifest.format ++ "; expected ".toList ++
      quoted repoManifestFormat))
  else
    validateRepoName manifest.name
    let _ ← manifest.source.mapM validateSource
    let _ ← manifest.files.foldlM validateEntry ∅

def pathOrder (left right : ManifestFile) : Bool := (compare (toUtf8 left.path) (toUtf8 right.path)).isLE

def ordered (manifest : RepoManifest) : RepoManifest := {manifest with files := manifest.files.mergeSort pathOrder}

end RepoManifest

-- The documents that the derived serializers write: fields in declared order, an
-- absent field left out.
def textFields (rows : List (String × Option Json)) : Json :=
  .object (rows.filterMap fun row => row.2.map fun value => (row.1.toList,value))

def ManifestChunk.document (chunk : ManifestChunk) : Json := textFields [
  ("kappa",some (.string chunk.kappa)),
  ("offset",some (.number chunk.offset.toNat)),
  ("size",some (.number chunk.size.toNat))]

def ManifestFile.document (file : ManifestFile) : Json := textFields [
  ("path",some (.string file.path)),
  ("size",some (.number file.size.toNat)),
  ("media_type",file.mediaType.map .string),
  ("sha256",file.sha256.map .string),
  ("blake3",some (.string file.blake3)),
  ("chunks",some (.array (file.chunks.map ManifestChunk.document)))]

def ManifestSource.document (source : ManifestSource) : Json := textFields [
  ("kind",some (.string source.kind)),
  ("repo",some (.string source.repo)),
  ("revision",some (.string source.revision))]

def RepoManifest.document (manifest : RepoManifest) : Json := textFields [
  ("format",some (.string manifest.format)),
  ("name",some (.string manifest.name)),
  ("source",manifest.source.map ManifestSource.document),
  ("files",some (.array (manifest.files.map ManifestFile.document)))]

-- The derived readers: a map with no unknown and no repeated field, or the fields
-- in declared order.
def structFields (names : List String) : Json → Except Str (List (Option Json))
  | .object rows =>
    if rows.any fun row => row.1 ∉ names.map String.toList then .error "unknown field".toList
    else if ¬(rows.map (·.1)).Nodup then .error "duplicate field".toList
    else .ok (names.map fun name => (Json.object rows).get name.toList)
  | .array items =>
    if names.length < items.length then .error "invalid length".toList
    else .ok (names.zipIdx.map fun name => items[name.2]?)
  | _ => .error "invalid type".toList

def required {α : Type} (read : Json → Except Str α) (name : String) : Option Json → Except Str α
  | some value => read value
  | none => .error ("missing field ".toList ++ name.toList)

def optional {α : Type} (read : Json → Except Str α) : Option Json → Except Str (Option α)
  | none | some .null => .ok none
  | some value => (read value).map some

def readString : Json → Except Str Str
  | .string text => .ok text
  | _ => .error "invalid type: expected a string".toList

variable (document : Json)

def readU64 : Except Str UInt64 :=
  match document.asU64 with
  | some n => .ok (UInt64.ofNat n)
  | none => .error "invalid type: expected u64".toList

def readList {α : Type} (read : Json → Except Str α) : Json → Except Str (List α)
  | .array items => items.mapM read
  | _ => .error "invalid type: expected a sequence".toList

def ManifestChunk.read : Except Str ManifestChunk := do
  match ← structFields ["kappa","offset","size"] document with
  | [kappa,offset,size] =>
    let kappa ← required readString "kappa" kappa
    let offset ← required readU64 "offset" offset
    let size ← required readU64 "size" size
    return ⟨kappa,offset,size⟩
  | _ => .error "invalid length".toList

def ManifestFile.read (document : Json) : Except Str ManifestFile := do
  match ← structFields ["path","size","media_type","sha256","blake3","chunks"] document with
  | [path,size,mediaType,sha256,blake3,chunks] =>
    let path ← required readString "path" path
    let size ← required readU64 "size" size
    let mediaType ← optional readString mediaType
    let sha256 ← optional readString sha256
    let blake3 ← required readString "blake3" blake3
    let chunks ← required (readList ManifestChunk.read) "chunks" chunks
    return ⟨path,size,mediaType,sha256,blake3,chunks⟩
  | _ => .error "invalid length".toList

def ManifestSource.read : Except Str ManifestSource := do
  match ← structFields ["kind","repo","revision"] document with
  | [kind,repo,revision] =>
    let kind ← required readString "kind" kind
    let repo ← required readString "repo" repo
    let revision ← required readString "revision" revision
    return ⟨kind,repo,revision⟩
  | _ => .error "invalid length".toList

namespace RepoManifest

def read (document : Json) : Except Str RepoManifest := do
  match ← structFields ["format","name","source","files"] document with
  | [format,name,source,files] =>
    let format ← required readString "format" format
    let name ← required readString "name" name
    let source ← optional ManifestSource.read source
    let files ← required (readList ManifestFile.read) "files" files
    return ⟨format,name,source,files⟩
  | _ => .error "invalid length".toList

def encode (codec : JsonCodec) (manifest : RepoManifest) : Except LiveError Bytes := do
  manifest.validate
  (codec.toVec manifest.ordered.document).mapError fun e => .protocol ("encode repo manifest: ".toList ++ e)

def decode (codec : JsonCodec) (bytes : Bytes) : Except LiveError RepoManifest := do
  let document ← (codec.fromSlice bytes).mapError fun e => .protocol ("decode repo manifest: ".toList ++ e)
  let manifest ← (read document).mapError fun e => .protocol ("decode repo manifest: ".toList ++ e)
  let again ← manifest.encode codec
  if again ≠ bytes then .error (.protocol "repo manifest is not canonically encoded".toList)
  else return manifest

def revision (codec : JsonCodec) (kappaOf : Bytes → Str) (manifest : RepoManifest) : Except LiveError Str := do
  return kappaOf (← manifest.encode codec)

end RepoManifest
end Repo
end HologramLive
