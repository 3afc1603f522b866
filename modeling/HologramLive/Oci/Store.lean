import HologramLive.Oci.Types
namespace HologramLive
open Tables

-- A parsed JSON value. Numbers keep their text: nothing here computes with one.
inductive OciJson where
  | null
  | bool (value : Bool)
  | number (text : Str)
  | string (text : Str)
  | array (items : List OciJson)
  | object (members : List (Str × OciJson))

def OciJson.get (value : OciJson) (key : Str) : Option OciJson :=
  match value with
  | .object members => (members.find? fun member => member.1 = key).map (·.2)
  | _ => none
def OciJson.asStr : OciJson → Option Str
  | .string text => some text
  | _ => none
def OciJson.asArray : OciJson → Option (List OciJson)
  | .array items => some items
  | _ => none

-- What the store takes from crates that are not in the repository: the hash
-- functions, the JSON reader and the text of the store's own part record.
structure Crates where
  digestOf : Algorithm → Bytes → Digest
  digestOf_algorithm : ∀ algorithm bytes,(digestOf algorithm bytes).algorithm = algorithm
  fromSlice : Bytes → Except Str OciJson
  partManifest : List (Nat × Bytes) → Bytes

def Crates.sha256Of (crates : Crates) (bytes : Bytes) : Digest := crates.digestOf .sha256 bytes

-- No two byte strings of the set share a digest. The hashes have fixed length,
-- so this is asked of the bytes a run handles and never of all bytes.
def Crates.Distinguishes (crates : Crates) (held : Bytes → Prop) : Prop :=
  ∀ algorithm left right,held left → held right → crates.digestOf algorithm left = crates.digestOf algorithm right →
    left = right

-- Crates for evaluation: the digests of a few short byte strings, the documents
-- among them, and the part records. Anything else gets a digest of zeros.
structure HashRow where
  bytes : Bytes
  hex : Algorithm → Str

def Digest.ofHex (algorithm : Algorithm) (hex : Str) : Digest :=
  if valid : (hex.length == algorithm.hexLen && hex.all lowercaseHex) = true then ⟨algorithm,hex,valid⟩
  else ⟨algorithm,List.replicate algorithm.hexLen '0',by cases algorithm <;> decide⟩

theorem Digest.ofHex_algorithm (algorithm : Algorithm) (hex : Str) : (Digest.ofHex algorithm hex).algorithm = algorithm := by
  unfold Digest.ofHex
  split <;> rfl

def Crates.tabled (hashes : List HashRow) (documents : List (Bytes × OciJson))
    (record : List (Nat × Bytes) → Bytes) : Crates where
  digestOf algorithm bytes := Digest.ofHex algorithm (match hashes.find? fun row => row.bytes = bytes with
    | some row => row.hex algorithm
    | none => [])
  digestOf_algorithm algorithm bytes := Digest.ofHex_algorithm ..
  fromSlice bytes := match documents.find? fun document => document.1 = bytes with
    | some document => .ok document.2
    | none => .error "expected value at line 1 column 1".toList
  partManifest := record

def asciiBytes (text : String) : Bytes := text.toList.map fun c => UInt8.ofNat c.toNat

inductive LinkKind where
  | blob
  | manifest
  | index
deriving DecidableEq, Repr

structure Link where
  kind : LinkKind
  mediaType : Option Str
deriving DecidableEq, Repr

-- The row form: a kind byte, then the media type. An empty media type is read
-- back as none.
def Link.durable (link : Link) : Link := {link with mediaType := link.mediaType.filter fun text => !text.isEmpty}

structure ReferrerDescriptor where
  digest : Digest
  mediaType : Str
  size : Nat
  artifactType : Option Str
  annotations : Option (List (Str × OciJson))

structure TagEntry where
  kappa : Digest
  version : Nat
deriving DecidableEq, Repr

-- One row of `uploads`. The running hash cannot be saved, so it is not here.
structure UploadRow where
  repo : RepoName
  kappaId : UploadId
  createdMs : Nat
  touchedMs : Nat
deriving DecidableEq, Repr

-- The Kappa store's half of a session: where the staging file ends, and the
-- parts written since it was opened or resumed.
structure DiskUploadSession where
  offset : Nat
  parts : List (Nat × Bytes)
deriving DecidableEq, Repr

-- `blake3` holds the bytes a running hasher has been fed; none after a restart.
structure SessionState where
  repo : RepoName
  kappaId : UploadId
  received : Nat
  blake3 : Option Bytes
  createdMs : Nat
  touchedMs : Nat
  rowWrittenMs : Nat
deriving DecidableEq, Repr

-- What the registry holds: blob files and tags of the Kappa store, and every
-- table of `links.redb` but the upload rows. `objectsBackfilled` is the META flag.
structure Content where
  blobs : Table Digest Bytes
  tags : Table (RepoName × Tag) TagEntry
  links : Table (RepoName × Digest) Link
  repos : KeySet RepoName
  referrers : Table (RepoName × Digest × Digest) ReferrerDescriptor
  aliases : Table Digest Digest
  objects : Table Digest Bool
  objectsBackfilled : Bool

-- The volume and the process on it: the Kappa store's namespaces, its half of
-- each upload and the staging files, the durable upload rows, and the map of
-- live sessions, which does not survive a restart.
structure OciStore extends Content where
  namespaces : KeySet RepoName
  uploadSessions : Table UploadId DiskUploadSession
  staging : Table UploadId Bytes
  uploads : Table UploadId UploadRow
  sessions : Table UploadId SessionState

namespace Content

variable (c : Content)

-- Make the volume look as an older binary left it: no object rows and no flag.
def forgetTheObjectTable : Content := {c with objects := ∅,objectsBackfilled := false}

variable (repo : RepoName)

def linkGet (digest : Digest) : Option Link := c.links[(repo,digest)]?

def linkAdd (digest : Digest) (kind : LinkKind) (mediaType : Option Str) : Content :=
  {c with
    links := c.links.insert (repo,digest) (Link.durable ⟨kind,mediaType⟩)
    repos := c.repos.insert repo}

-- Also removes every referrers row in which the digest is the referrer.
def linkRemove (digest : Digest) : Bool × Content :=
  (c.links.contains (repo,digest),
    {c with
      links := c.links.erase (repo,digest)
      referrers := eraseWhere c.referrers fun key => key.1 = repo && key.2.2 = digest})

def aliasOf (digest : Digest) : Option Digest := c.aliases[digest]?

def aliasPut (a b : Digest) : Content := {c with aliases := (c.aliases.insert a b).insert b a}

def referrersOf (subject : Digest) : List ReferrerDescriptor :=
  (c.referrers.toList.filter fun row => row.1.1 = repo && row.1.2.1 = subject).map (·.2)

end Content

namespace OciStore

def created : OciStore :=
  {blobs := ∅,tags := ∅,links := ∅,repos := ∅,referrers := ∅,aliases := ∅,objects := ∅,objectsBackfilled := true,
    namespaces := ∅,uploadSessions := ∅,staging := ∅,uploads := ∅,sessions := ∅}

def repoTouch (s : OciStore) (repo : RepoName) : OciStore := {s with repos := s.repos.insert repo}

def namespaceResolveOrCreate (s : OciStore) (repo : RepoName) : OciStore :=
  {s with namespaces := s.namespaces.insert repo}

end OciStore
end HologramLive
