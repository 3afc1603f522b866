import HologramLive.Artifact.Manifest
import HologramLive.Holo.Plan
namespace HologramLive
open Tables Fallible

structure ArtifactRef where
  host : Str
  «namespace» : Str
  name : Str
  tag : Str
deriving DecidableEq, Repr

variable (reference : ArtifactRef)

def ArtifactRef.repository : Str := reference.namespace ++ "/".toList ++ reference.name

def ArtifactRef.display : Str :=
  reference.host ++ "/".toList ++ reference.namespace ++ "/".toList ++ reference.name ++ ":".toList ++ reference.tag

abbrev ObjectStore := Table Kappa Bytes

def isHexDigit (c : Char) : Bool := ('0' ≤ c && c ≤ '9') || ('a' ≤ c && c ≤ 'f') || ('A' ≤ c && c ≤ 'F')

def validateId (id : Kappa) : Except LiveError Unit :=
  match "blake3:".toList.isPrefixOf? id with
  | none => .error (.notFound ("unsupported object id ".toList ++ quoted id))
  | some digest =>
    if digest.length = 64 ∧ digest.all isHexDigit then .ok ()
    else .error (.notFound ("malformed object id ".toList ++ quoted id))

variable (store : ObjectStore)

def ObjectStore.getCached (id : Kappa) : Except LiveError (Option Bytes) := do
  validateId id
  return store[id]?

variable (hologram : Hologram)

def ObjectStore.cacheAddressed (store : ObjectStore) (id : Kappa) (bytes : Bytes) : Except LiveError ObjectStore := do
  validateId id
  if hologram.addressBytes bytes ≠ id then
    .error (.invalidHolo ("content blob ".toList ++ id ++ " does not match its bytes".toList))
  else if (store[id]?).isSome then return store
  else return store.insert id bytes

structure HoloInspection where
  kappa : Kappa
  applicationKappa : Option Kappa
  name : Str
  directory : Option HoloDirectory

def inspectBytes (kappa : Kappa) (name : Str) (bytes : Bytes) : Except LiveError HoloInspection := do
  requireCurrent bytes
  let loader ← (hologram.fromBytes bytes).mapError .invalidHolo
  let plan ← loader.intoPlan.mapError .invalidHolo
  let extensions ← plan.extensions.mapError .invalidHolo
  let directories := (extensions.filter fun extension => extension.1 = Directory.extensionKey).map (·.2)
  match plan.appManifest with
  | some manifestBytes =>
    let manifest ← (hologram.decodeManifest manifestBytes).mapError fun e =>
      .invalidHolo ("decode application manifest: ".toList ++ e)
    let blobs ← plan.contentBlobs.mapError .invalidHolo
    let derived ← Directory.verifyRequired hologram manifest directories blobs
    return ⟨kappa,some (hologram.addressBytes (hologram.canonicalizeManifest manifest)),name,some derived⟩
  | none =>
    if !directories.isEmpty then
      .error (.invalidHolo "application directory requires an application manifest".toList)
    else return ⟨kappa,none,name,none⟩

structure ArtifactRegistry where
  blobs : Table (Str × Str) Bytes
  manifests : Table (Str × Str) Bytes

inductive RegistryWrite where
  | blob (repository digest mediaType : Str) (bytes : Bytes)
  | manifest (repository tag : Str) (body : Bytes)
deriving DecidableEq, Repr

-- The service may refuse a write for reasons of its own; the digests of both
-- algorithms name blobs.
structure RegistryService where
  sha256 : Bytes → Str
  refuses : ArtifactRegistry → RegistryWrite → Option LiveError

def RegistryService.sha256Of (service : RegistryService) (bytes : Bytes) : Str :=
  "sha256:".toList ++ service.sha256 bytes

variable (service : RegistryService)

namespace ArtifactRegistry

variable (registry : ArtifactRegistry)

def putBlob (repository digest mediaType : Str) (bytes : Bytes) : Except LiveError ArtifactRegistry :=
  match service.refuses registry (.blob repository digest mediaType bytes) with
  | some e => .error e
  | none =>
    if digest = hologram.addressBytes bytes ∨ digest = service.sha256Of bytes then
      .ok {registry with blobs := registry.blobs.insert (repository,digest) bytes}
    else .error (.protocol ("the blob does not match its digest ".toList ++ digest))

variable (repository tag : Str)

def putManifest (body : Bytes) : Except LiveError ArtifactRegistry :=
  match service.refuses registry (.manifest repository tag body) with
  | some e => .error e
  | none => .ok {registry with manifests := registry.manifests.insert (repository,tag) body}

def tagExists : Bool :=
  (registry.manifests[(repository,tag)]?).isSome

def manifest : Option (Bytes × Option Str) :=
  (registry.manifests[(repository,tag)]?).map fun body => (body,some (service.sha256Of body))

def blob (registry : ArtifactRegistry) (repository kappa : Str) : Except LiveError Bytes :=
  match registry.blobs[(repository,kappa)]? with
  | some bytes => .ok bytes
  | none => .error (.notFound ("blob ".toList ++ kappa ++ " not found".toList))

end ArtifactRegistry

structure PushReport where
  reference : Str
  archiveKappa : Kappa
  layersPublished : Nat
  bytesTransferred : Nat
  replacedExistingTag : Bool
deriving DecidableEq, Repr

structure PushProgress where
  kappa : Kappa
  index : Nat
  total : Nat
  bytes : Nat
deriving DecidableEq, Repr

def holoMediaType : Str := "application/vnd.hologram.holo".toList
def layerMediaType : Str := "application/octet-stream".toList

def externalPayloads (inspection : HoloInspection) : List Kappa :=
  match inspection.directory with
  | none => []
  | some directory =>
    let embedded := directory.blobs.map (·.kappa)
    (Std.ExtTreeSet.ofList ((directory.layers.map (·.contentKappa)).filter fun kappa => kappa ∉ embedded)
      compare : KeySet Kappa).toList

def gatherPayload (kappa : Kappa) : Except LiveError (Kappa × Bytes) := do
  match ← store.getCached kappa with
  | some bytes => return (kappa,bytes)
  | none => .error (.notFound ("archive references payload ".toList ++ kappa ++ " which is not in the local store; ".toList ++
      "import or compile the archive fat before publishing it".toList))

structure Publishing where
  registry : ArtifactRegistry
  layers : List ArtifactLayer
  bytesTransferred : Nat
  progress : List PushProgress

def publish (repository : Str) (total : Nat) (role : LayerRole) (mediaType : Str) (publishing : Publishing)
    (entry : (Kappa × Bytes) × Nat) : Except LiveError Publishing := do
  let ((kappa,bytes),index) := entry
  let registry ← publishing.registry.putBlob hologram service repository kappa mediaType bytes
  let size := saturated bytes.length
  return {
    registry := registry
    layers := publishing.layers ++ [⟨kappa,some (service.sha256Of bytes),mediaType,size,role⟩]
    bytesTransferred := saturatingAdd publishing.bytesTransferred size
    progress := publishing.progress ++ [⟨kappa,index,total,size⟩]}

def push (codec : JsonCodec) (registry : ArtifactRegistry) (store : ObjectStore) (reference : ArtifactRef)
    (archiveBytes : Bytes) (inspection : HoloInspection) (force : Bool) :
    Except LiveError (ArtifactRegistry × PushReport × List PushProgress) := do
  let repository := reference.repository
  let replacedExistingTag := registry.tagExists repository reference.tag
  if replacedExistingTag && !force then .error (.conflict (reference.display ++
    " already exists; pass --force to move the tag to this artifact".toList))
  else
    let archiveKappa := hologram.addressBytes archiveBytes
    let payloads ← (externalPayloads inspection).mapM (gatherPayload store)
    let total := payloads.length+1
    let registry ← registry.putBlob hologram service repository emptyConfigDigest emptyConfigType emptyConfig
    let published ← publish hologram service repository total .archive holoMediaType ⟨registry,[],0,[]⟩
      ((archiveKappa,archiveBytes),0)
    let published ← (payloads.zipIdx 1).foldlM (publish hologram service repository total .layer layerMediaType) published
    let manifest : ArtifactManifest :=
      ⟨published.layers,some "holo".toList,some reference.name,some reference.tag⟩
    let body ← manifest.encode codec
    let registry ← published.registry.putManifest service repository reference.tag body
    return (registry,⟨reference.display,archiveKappa,published.layers.length,published.bytesTransferred,
      replacedExistingTag⟩,published.progress)

inductive LayerSource where
  | alreadyPresent
  | fetched
deriving DecidableEq, Repr

structure PullProgress where
  kappa : Kappa
  index : Nat
  total : Nat
  source : LayerSource
  bytes : Nat
deriving DecidableEq, Repr

structure PullReport where
  reference : Str
  manifestDigest : Option Str
  archiveKappa : Kappa
  layersFetched : Nat
  layersPresent : Nat
  bytesTransferred : Nat
deriving DecidableEq, Repr

structure Pulling where
  store : ObjectStore
  layersFetched : Nat
  layersPresent : Nat
  bytesTransferred : Nat
  progress : List PullProgress

def fetchLayer (registry : ArtifactRegistry) (reference : ArtifactRef) (kappa : Kappa) : Except LiveError Bytes :=
  (registry.blob reference.repository kappa).mapError fun error => match error with
    | .notFound _ => .notFound ("artifact ".toList ++ reference.display ++ " references layer ".toList ++ kappa ++
        " which the registry does not hold".toList)
    | other => other

def pullLayer (registry : ArtifactRegistry) (reference : ArtifactRef) (total : Nat) (pulling : Pulling)
    (entry : ArtifactLayer × Nat) : Except LiveError Pulling := do
  let kappa := entry.1.kappa
  match ← pulling.store.getCached kappa with
  | some _ => return {pulling with
      layersPresent := pulling.layersPresent+1
      progress := pulling.progress ++ [⟨kappa,entry.2,total,.alreadyPresent,0⟩]}
  | none =>
    let bytes ← fetchLayer registry reference kappa
    let store ← pulling.store.cacheAddressed hologram kappa bytes
    let transferred := saturated bytes.length
    return {pulling with
      store := store
      layersFetched := pulling.layersFetched+1
      bytesTransferred := saturatingAdd pulling.bytesTransferred transferred
      progress := pulling.progress ++ [⟨kappa,entry.2,total,.fetched,transferred⟩]}

def confirmLayer (store : ObjectStore) (layer : ArtifactLayer) : Except LiveError Unit := do
  match ← store.getCached layer.kappa with
  | some _ => return ()
  | none => .error (.notFound ("artifact ".toList ++ reference.display ++ " is incomplete: layer ".toList ++ layer.kappa ++
      " is missing after pull".toList))

def pull (codec : JsonCodec) (registry : ArtifactRegistry) (store : ObjectStore) (reference : ArtifactRef) :
    Except LiveError (ObjectStore × PullReport × List PullProgress) := do
  match registry.manifest service reference.repository reference.tag with
  | none => .error (.notFound ("artifact ".toList ++ reference.display ++ " not found".toList))
  | some (body,manifestDigest) =>
    let manifest ← ArtifactManifest.decode codec body
    let archive ← manifest.archive
    let total := manifest.layers.length
    let pulled ← manifest.layers.zipIdx.foldlM (pullLayer hologram registry reference total) ⟨store,0,0,0,[]⟩
    let _ ← manifest.layers.mapM (confirmLayer reference pulled.store)
    return (pulled.store,⟨reference.display,manifestDigest,archive.kappa,pulled.layersFetched,pulled.layersPresent,
      pulled.bytesTransferred⟩,pulled.progress)

end HologramLive
