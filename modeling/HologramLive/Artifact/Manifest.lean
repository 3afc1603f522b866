import HologramLive.Holo.Types
import HologramLive.Lib.Fallible
import HologramLive.Lib.Json
namespace HologramLive
open Fallible Json

inductive LayerRole where
  | archive
  | layer
deriving DecidableEq, Repr

structure ArtifactLayer where
  kappa : Kappa
  sha256 : Option Str
  mediaType : Str
  size : Nat
  role : LayerRole
deriving DecidableEq, Repr

structure ArtifactManifest where
  layers : List ArtifactLayer
  kind : Option Str
  name : Option Str
  tag : Option Str
deriving DecidableEq, Repr

structure JsonCodec where
  toVec : Json → Except Str Bytes
  fromSlice : Bytes → Except Str Json

variable (codec : JsonCodec)

def JsonCodec.ReadsBack : Prop :=
  ∀ document bytes,codec.toVec document = .ok bytes → codec.fromSlice bytes = .ok document

def artifactType : Str := "application/vnd.hologram.artifact.v1+json".toList
def annotationRole : Str := "dev.hologram.role".toList
def annotationKind : Str := "dev.hologram.kind".toList
def annotationName : Str := "dev.hologram.name".toList
def annotationTag : Str := "dev.hologram.tag".toList
def annotationKappa : Str := "dev.hologram.kappa".toList
def emptyConfig : Bytes := [123,125]
def emptyConfigDigest : Str := "sha256:44136fa355b3678a1146ad16f7e8649e94fb4fc21fe77e8310c060f61caaff8a".toList
def emptyConfigType : Str := "application/vnd.oci.empty.v1+json".toList

def isLowerHex (c : Char) : Bool := ('0' ≤ c && c ≤ '9') || ('a' ≤ c && c ≤ 'f')

def isDigestOf (algorithm digest : Str) : Bool :=
  match algorithm.isPrefixOf? digest with
  | some hex => hex.length = 64 && hex.all isLowerHex
  | none => false

def isSha256 : Str → Bool := isDigestOf "sha256:".toList
def isBlake3 : Str → Bool := isDigestOf "blake3:".toList

def ArtifactLayer.wireDigest (layer : ArtifactLayer) : Str := layer.sha256.getD layer.kappa

namespace ArtifactManifest

-- A layer's kappa, and its sha256 when the wire names it by that.
def decodeNames (entry : Json) (digest : Str) : Except LiveError (Kappa × Option Str) :=
  let kappa := ((entry.get "annotations".toList).bind (·.get annotationKappa)).bind asStr
  if isBlake3 digest then .ok (digest,none)
  else if isSha256 digest then
    match kappa.filter isBlake3 with
    | some kappa => .ok (kappa,some digest)
    | none => .error (.protocol ("artifact manifest layer ".toList ++ quoted digest ++ " names no blake3 kappa in ".toList ++
        annotationKappa))
  else .error (.protocol ("artifact manifest layer digest ".toList ++ quoted digest ++
    " is neither a blake3 kappa nor sha256".toList))

def decodeLayer (entry : Json) : Except LiveError ArtifactLayer :=
  match (entry.get "digest".toList).bind asStr with
  | none => .error (.protocol "artifact manifest layer has no digest".toList)
  | some digest => do
    let (kappa,sha256) ← decodeNames entry digest
    let role := ((entry.get "annotations".toList).bind (·.get annotationRole)).bind asStr
    return {
      kappa := kappa
      sha256 := sha256
      mediaType := ((entry.get "mediaType".toList).bind asStr).getD "application/octet-stream".toList
      size := ((entry.get "size".toList).bind asU64).getD 0
      role := if role = some "archive".toList then .archive else .layer}

def decode (body : Bytes) : Except LiveError ArtifactManifest := do
  let document ← (codec.fromSlice body).mapError .protocol
  let annotation (key : Str) : Option Str :=
    ((document.get "annotations".toList).bind (·.get key)).bind asStr
  match (document.get "layers".toList).bind asArray with
  | none => .error (.protocol "artifact manifest has no layers".toList)
  | some entries =>
    let layers ← entries.mapM decodeLayer
    return ⟨layers, annotation annotationKind, annotation annotationName, annotation annotationTag⟩

def archive (manifest : ArtifactManifest) : Except LiveError ArtifactLayer :=
  match manifest.layers.filter fun layer => layer.role = .archive with
  | [] => .error (.protocol "artifact manifest declares no archive layer".toList)
  | [archive] => .ok archive
  | _ => .error (.protocol "artifact manifest declares more than one archive layer".toList)

def roleName : LayerRole → Str
  | .archive => "archive".toList
  | .layer => "layer".toList

def encodeLayer (layer : ArtifactLayer) : Json :=
  .object [
    ("annotations".toList,.object
      ((if layer.sha256.isSome then [(annotationKappa,.string layer.kappa)] else []) ++
        [(annotationRole,.string (roleName layer.role))])),
    ("digest".toList,.string layer.wireDigest),
    ("mediaType".toList,.string layer.mediaType),
    ("size".toList,.number layer.size)]

def annotated (rows : List (Str × Option Str)) : Json :=
  .object (rows.filterMap fun row => row.2.map fun value => (row.1,.string value))

def document (manifest : ArtifactManifest) : Json :=
  .object [
    ("annotations".toList,
      annotated [(annotationKind,manifest.kind),(annotationName,manifest.name),(annotationTag,manifest.tag)]),
    ("artifactType".toList,.string artifactType),
    ("config".toList,.object [
      ("digest".toList,.string emptyConfigDigest),
      ("mediaType".toList,.string emptyConfigType),
      ("size".toList,.number emptyConfig.length)]),
    ("layers".toList,.array (manifest.layers.map encodeLayer)),
    ("mediaType".toList,.string "application/vnd.oci.image.manifest.v1+json".toList),
    ("schemaVersion".toList,.number 2)]

def encode (manifest : ArtifactManifest) : Except LiveError Bytes := do
  let _ ← manifest.archive
  (codec.toVec manifest.document).mapError .protocol

structure Carried (layer : ArtifactLayer) : Prop where
  kappa : isBlake3 layer.kappa = true
  sha256 : ∀ digest,layer.sha256 = some digest → isSha256 digest = true
  size : layer.size ≤ u64Max

theorem sha256_not_blake3 (sha256 : isSha256 digest = true) : isBlake3 digest = false := by
  cases digest with
  | nil => rfl
  | cons first rest =>
    unfold isSha256 isDigestOf at sha256
    unfold isBlake3 isDigestOf
    by_cases same : 'b' = first
    · subst same
      simp [List.isPrefixOf?] at sha256
    · simp [List.isPrefixOf?,same]

theorem decodeNames_encoded (carried : Carried layer) :
    decodeNames (encodeLayer layer) layer.wireDigest = .ok (layer.kappa,layer.sha256) := by
  unfold decodeNames ArtifactLayer.wireDigest
  cases named : layer.sha256 with
  | none => dsimp only [Option.getD_none]; rw [if_pos carried.kappa]
  | some digest =>
    have sha256 := carried.sha256 digest named
    dsimp only [Option.getD_some]
    rw [if_neg (by rw [sha256_not_blake3 sha256]; simp),if_pos sha256]
    have kappa : (((encodeLayer layer).get "annotations".toList).bind (·.get annotationKappa)).bind asStr =
        some layer.kappa := by
      unfold encodeLayer
      rw [named]
      rfl
    rw [kappa,Option.filter_some,carried.kappa]
    rfl

theorem decodeLayer_encoded (carried : Carried layer) : decodeLayer (encodeLayer layer) = .ok layer := by
  have digest : ((encodeLayer layer).get "digest".toList).bind asStr = some layer.wireDigest := rfl
  have role : (((encodeLayer layer).get "annotations".toList).bind (·.get annotationRole)).bind asStr =
      some (roleName layer.role) := by
    unfold encodeLayer
    cases layer.sha256 with
    | none => rfl
    | some digest => rfl
  have mediaType : ((encodeLayer layer).get "mediaType".toList).bind asStr = some layer.mediaType := rfl
  have size : ((encodeLayer layer).get "size".toList).bind asU64 = some layer.size := by
    have small : layer.size < 2^64 := by have := carried.size; unfold u64Max at this; omega
    exact if_pos small
  unfold decodeLayer
  rw [digest]
  dsimp only
  rw [ok_bind (decodeNames_encoded carried),role,mediaType,size]
  have named : (if some (roleName layer.role) = some "archive".toList then LayerRole.archive else .layer) = layer.role := by
    cases layer.role <;> decide
  dsimp only
  rw [named]
  rfl

theorem annotation_encoded (manifest : ArtifactManifest) :
    let annotation (key : Str) := ((manifest.document.get "annotations".toList).bind (·.get key)).bind asStr
    annotation annotationKind = manifest.kind ∧ annotation annotationName = manifest.name ∧
      annotation annotationTag = manifest.tag := by
  obtain ⟨layers,kind,named,tagged⟩ := manifest
  cases kind <;> cases named <;> cases tagged <;> exact ⟨rfl,rfl,rfl⟩

theorem decode_encoded {codec : JsonCodec} (reads : codec.ReadsBack) {manifest : ArtifactManifest} {body : Bytes}
    (carried : ∀ layer ∈ manifest.layers,Carried layer) (encoded : manifest.encode codec = .ok body) :
    decode codec body = .ok manifest := by
  unfold encode at encoded
  obtain ⟨_,_,encoded⟩ := bind_ok encoded
  have read := reads _ _ (mapError_ok encoded)
  have layers : (manifest.layers.map encodeLayer).mapM decodeLayer = .ok manifest.layers := by
    rw [List.mapM_map]
    exact mapM_fixed fun layer member => decodeLayer_encoded (carried layer member)
  unfold decode
  rw [ok_bind (mapError_of_ok read)]
  dsimp only
  have entries : (manifest.document.get "layers".toList).bind asArray = some (manifest.layers.map encodeLayer) := rfl
  rw [entries]
  dsimp only
  rw [ok_bind layers]
  obtain ⟨kind,name,tag⟩ := annotation_encoded manifest
  dsimp only at kind name tag
  rw [kind,name,tag]
  rfl

end ArtifactManifest
end HologramLive
