import HologramLive.Inference.Compat
import HologramLive.Objects.Providers
import HologramLive.Registry.Listing
namespace HologramLive.Objects
open Tables Rpc

def tagFor (kappa : Str) : Str := kappa.map fun c => if c = ':' then '_' else c

def tagPrefix : Str := "blake3_".toList

def kappaFor (tag : Str) : Option Str :=
  match stripPrefix tagPrefix tag with
  | none => none
  | some digest => if digest.length ≠ 64 then none else if digest.all isLowerHex then some (blake3Prefix ++ digest) else none

-- What the registry service holds, as its client sees it: manifests by tag, and
-- blobs by the id they are put under, which are written once.
structure KappaServer where
  manifests : Table Str Str
  blobs : Table Str Bytes

structure TagPage where
  tags : List Str
  next : Option Str

namespace KappaServer
variable (server : KappaServer)

def putBlob (kappa : Str) (bytes : Bytes) : KappaServer :=
  if server.blobs[kappa]?.isSome then server else {server with blobs := server.blobs.insert kappa bytes}

def getBlob (kappa : Str) : Except LiveError Bytes :=
  match server.blobs[kappa]? with
  | some bytes => .ok bytes
  | none => .error (.notFound ("get blob ".toList ++ kappa ++ ": HTTP 404 Not Found".toList))

def putManifest (tag body : Str) : KappaServer := {server with manifests := server.manifests.insert tag body}
def getManifest (tag : Str) : Option Str := server.manifests[tag]?

def listTags (limit : Nat) (last : Option Str) : TagPage :=
  let tags := Pages.pageAfter id (fun a b => compare a b == .lt) server.manifests.keys last limit
  ⟨tags,if limit ≤ tags.length then tags.getLast? else none⟩

end KappaServer

def artifactType : Str := "application/vnd.hologram.object.v1+json".toList
def annotationKind : Str := "dev.hologram.kind".toList
def annotationFilename : Str := "dev.hologram.filename".toList
def annotationCreated : Str := "dev.hologram.created-at-millis".toList

def encodeManifest (metadata : ObjectMetadata) : Str :=
  let annotations : List (Str × JsonDocument) :=
    [(annotationCreated,.string (decimal metadata.createdAtMillis))] ++
    (match metadata.filename with
      | some filename => [(annotationFilename,.string filename)]
      | none => []) ++
    [(annotationKind,.string metadata.kind)]
  let descriptor : JsonDocument := .object [("digest".toList,.string metadata.id),("mediaType".toList,.string metadata.mediaType),
    ("size".toList,.number metadata.size)]
  Json.print (.object [
    ("annotations".toList,.object annotations),
    ("artifactType".toList,.string artifactType),
    ("config".toList,.object [("digest".toList,.string metadata.id),
      ("mediaType".toList,.string "application/vnd.oci.empty.v1+json".toList),("size".toList,.number metadata.size)]),
    ("layers".toList,.array [descriptor]),
    ("mediaType".toList,.string "application/vnd.oci.image.manifest.v1+json".toList),
    ("schemaVersion".toList,.number 2),
    ("subject".toList,descriptor)])

def textAt (document : JsonDocument) (key : Str) : Option Str := (document.get key).bind fun value => value.asStr

def required {α : Type} (found : Option α) (problem : Str) : Except LiveError α :=
  match found with
  | some a => .ok a
  | none => .error (.protocol problem)

def decodeManifest (body : Str) : Except LiveError ObjectMetadata := do
  let document ← required (Json.parse body) "expected value at line 1 column 1".toList
  let annotation (key : Str) : Option Str := (document.get "annotations".toList).bind fun map => textAt map key
  let subject ← required (document.get "subject".toList) "object manifest has no subject".toList
  let id ← required (textAt subject "digest".toList) "object manifest subject has no digest".toList
  let kind ← required ( annotation annotationKind) ("object manifest is missing ".toList ++ annotationKind)
  let createdAtMillis ← required (( annotation annotationCreated).bind (Listing.parseUnsigned (2^64)))
    ("object manifest is missing ".toList ++ annotationCreated)
  return {
    id := id
    kind := kind
    mediaType := (textAt subject "mediaType".toList).getD "application/octet-stream".toList
    filename := annotation annotationFilename
    size := ((subject.get "size".toList).bind fun value => value.asU64).getD 0
    createdAtMillis := createdAtMillis}

-- The settings of a provider, and what it has: its service and the records it read
-- lately, each with the instant it was read.
structure KappaSettings where
  maxScanPages : Nat
  metadataTtl : Nat

structure KappaRegistry where
  server : KappaServer
  metadata : Table Str (ObjectMetadata × Nat)

namespace KappaRegistry

def metadataEntries : Nat := 50000

def empty : KappaRegistry := ⟨⟨∅,∅⟩,∅⟩

section Records
variable (settings : KappaSettings) (registry : KappaRegistry) (now : Moment)

def fresh (stored : Nat) : Bool := decide (now.instant-stored < settings.metadataTtl)

def cached (tag : Str) : Option ObjectMetadata :=
  (registry.metadata[tag]?).bind fun row => if fresh settings now row.2 then some row.1 else none

-- Expired records go first; a cache that is still full is started again.
def remember (tag : Str) (metadata : ObjectMetadata) : KappaRegistry :=
  let entries := registry.metadata
  let entries :=
    if metadataEntries ≤ entries.size ∧ entries[tag]?.isNone then
      let kept := entries.filter fun _ row => fresh settings now row.2
      if metadataEntries ≤ kept.size then ∅ else kept
    else entries
  {registry with metadata := entries.insert tag (metadata,now.instant)}

def metadataByTag (tag : Str) : Except LiveError (Option ObjectMetadata) × KappaRegistry :=
  match cached settings registry now tag with
  | some metadata => (.ok (some metadata),registry)
  | none =>
    match registry.server.getManifest tag with
    | none => (.ok none,registry)
    | some body =>
      match decodeManifest body with
      | .error e => (.error e,registry)
      | .ok metadata => (.ok (some metadata),remember settings registry now tag metadata)

end Records

section Calls
variable (blake3 : Blake3) (settings : KappaSettings) (registry : KappaRegistry) (now : Moment)

def record (tag : Str) (metadata : ObjectMetadata) : KappaRegistry :=
  remember settings {registry with server := registry.server.putManifest tag (encodeManifest metadata)} now tag metadata

def putObject (kind mediaType : Str) (filename : Option Str) (bytes : Bytes) : Except LiveError ObjectMetadata × KappaRegistry :=
  let id := blake3.id bytes
  let tag := tagFor id
  let (existing,registry) := metadataByTag settings registry now tag
  let metadata : ObjectMetadata := {
    id := id
    kind := kind
    mediaType := mediaType
    filename := filename
    size := saturated bytes.length
    createdAtMillis := match existing with
      | .ok (some existing) => existing.createdAtMillis
      | _ => now.millis.toNat}
  let registry := {registry with server := registry.server.putBlob metadata.id bytes}
  (.ok metadata,record settings registry now tag metadata)

def getObject (id : Str) : Except LiveError ObjectContent × KappaRegistry :=
  match metadataByTag settings registry now (tagFor id) with
  | (.error e,registry) => (.error e,registry)
  | (.ok none,registry) => (.error (.notFound ("object ".toList ++ id ++ " not found".toList)),registry)
  | (.ok (some metadata),registry) =>
    (do
      let bytes ← registry.server.getBlob id
      verifyContent blake3 id bytes
      return {metadata,bytes},registry)

def renameFile (id filename : Str) : Except LiveError ObjectMetadata × KappaRegistry :=
  let tag := tagFor id
  match metadataByTag settings registry now tag with
  | (.error e,registry) => (.error e,registry)
  | (.ok none,registry) => (.error (.notFound ("file ".toList ++ id ++ " not found".toList)),registry)
  | (.ok (some metadata),registry) =>
    if metadata.kind ≠ "file".toList then (.error (.notFound ("file ".toList ++ id ++ " not found".toList)),registry)
    else
      let renamed := {metadata with filename := some filename}
      (.ok renamed,record settings registry now tag renamed)

end Calls

section Search
variable (settings : KappaSettings) (now : Moment) (query : ObjectQuery) (limit : Nat)

def scanTags (registry : KappaRegistry) (objects : List ObjectMetadata) :
    List Str → Except LiveError (List ObjectMetadata × Bool) × KappaRegistry
  | [] => (.ok (objects,false),registry)
  | tag :: rest =>
    if (kappaFor tag).isNone then scanTags registry objects rest
    else match metadataByTag settings registry now tag with
      | (.error e,registry) => (.error e,registry)
      | (.ok none,registry) => scanTags registry objects rest
      | (.ok (some metadata),registry) =>
        if !query.matches metadata then scanTags registry objects rest
        else if objects.length = limit then (.ok (objects,true),registry)
        else scanTags registry (objects ++ [metadata]) rest

def lastId (objects : List ObjectMetadata) : Option Str := objects.getLast?.map (·.id)

def scanPages : Nat → KappaRegistry → Option Str → List ObjectMetadata → Except LiveError ObjectPage × KappaRegistry
  | 0,registry,_,objects => (.ok ⟨objects,lastId objects,true⟩,registry)
  | pages+1,registry,cursor,objects =>
    let page := registry.server.listTags ObjectQuery.maxLimit cursor
    if page.tags.isEmpty then (.ok ⟨objects,none,false⟩,registry)
    else match scanTags settings now query limit registry objects page.tags with
      | (.error e,registry) => (.error e,registry)
      | (.ok (objects,true),registry) => (.ok ⟨objects,lastId objects,false⟩,registry)
      | (.ok (objects,false),registry) =>
        match page.next with
        | some next => scanPages pages registry (some next) objects
        | none => (.ok ⟨objects,none,false⟩,registry)

end Search

def search (settings : KappaSettings) (registry : KappaRegistry) (now : Moment) (query : ObjectQuery) :
    Except LiveError ObjectPage × KappaRegistry :=
  scanPages settings now query query.effectiveLimit settings.maxScanPages registry (query.cursor.map tagFor) []

def listObjects (settings : KappaSettings) (registry : KappaRegistry) (now : Moment) (kind : Option Str) :
    Except LiveError (List ObjectMetadata) × KappaRegistry :=
  let (page,registry) := search settings registry now
    ⟨kind,none,none,none,none,none,none,ObjectQuery.maxLimit,none⟩
  (page.map fun page => page.objects.insertionSort ObjectStore.newer,registry)

def provider (blake3 : Blake3) (settings : KappaSettings) : RegistryProvider KappaRegistry where
  listObjects := listObjects settings
  putObject := putObject blake3 settings
  getObject := getObject blake3 settings
  renameFile := renameFile settings
  search := search settings

end KappaRegistry

end HologramLive.Objects
