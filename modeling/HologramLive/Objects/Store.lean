import HologramLive.Artifact.Delivery
import HologramLive.Artifact.Reference
import HologramLive.Repo.ChunkedFiles
import HologramLive.Rpc.Protocol
namespace HologramLive.Objects
open Tables Rpc

-- BLAKE3, whose digests are of 32 bytes.
structure Blake3 where
  hash : Bytes → Bytes
  whole : ∀ bytes,(hash bytes).length = 32

def blake3Prefix : Str := "blake3:".toList
def Blake3.toHex (blake3 : Blake3) (bytes : Bytes) : Str := hex (blake3.hash bytes)
def Blake3.id (blake3 : Blake3) (bytes : Bytes) : Str := blake3Prefix ++ blake3.toHex bytes

-- The files under `blobs/blake3` and `metadata`, by hex digest. A record is written
-- as a whole and reads as what was written.
structure ObjectStore where
  blobs : Table Str Bytes
  metadata : Table Str ObjectMetadata

def ObjectStore.empty : ObjectStore := ⟨∅,∅⟩

def digestOf (id : Str) : Except LiveError Str := (validateId id).map fun _ => id.drop blake3Prefix.length

def validateFilename (filename : Str) : Except LiveError Str :=
  let filename := trimWhitespace filename
  if filename.isEmpty then .error (.protocol "filename cannot be empty".toList)
  else if 255 < (toUtf8 filename).length then
    .error (.protocol "filename cannot be longer than 255 characters".toList)
  else if filename = ".".toList ∨ filename = "..".toList ∨ filename.any (fun c => c = '/' || c = '\\') ∨
      filename.any Repo.isControl then
    .error (.protocol "filename cannot contain path separators, control characters, or reserved names".toList)
  else .ok filename

namespace ObjectStore
variable (store : ObjectStore) (blake3 : Blake3)

-- The creation time is that of the first appearance of the content.
def finishPut (now : Nat) (digest : Str) (size : Nat) (kind mediaType : Str) (filename : Option Str) :
    ObjectMetadata × ObjectStore :=
  let metadata : ObjectMetadata := {
    id := blake3Prefix ++ digest
    kind := kind
    mediaType := mediaType
    filename := filename
    size := size
    createdAtMillis := match store.metadata[digest]? with
      | some existing => existing.createdAtMillis
      | none => now}
  (metadata,{store with metadata := store.metadata.insert digest metadata})

def writeBlob (digest : Str) (bytes : Bytes) : ObjectStore :=
  if store.blobs[digest]?.isSome then store else {store with blobs := store.blobs.insert digest bytes}

def put (now : Nat) (kind mediaType : Str) (filename : Option Str) (bytes : Bytes) : ObjectMetadata × ObjectStore :=
  (store.writeBlob (blake3.toHex bytes) bytes).finishPut now (blake3.toHex bytes) (saturated bytes.length) kind mediaType filename

-- What one call of a reader gives; no bytes are its end.
inductive Read where
  | bytes (chunk : Bytes)
  | interrupted
  | failed (message : Str)

def streamed (got : Bytes) (size : Nat) : List Read → Except LiveError (Bytes × Nat)
  | [] => .ok (got,size)
  | .bytes [] :: _ => .ok (got,size)
  | .bytes chunk :: rest => streamed (got ++ chunk) (saturatingAdd size chunk.length) rest
  | .interrupted :: rest => streamed got size rest
  | .failed message :: _ => .error (.io message)

-- The stream lands in a temporary file of its own, which is gone in the end.
def putReader (now : Nat) (kind mediaType : Str) (filename : Option Str) (reader : List Read) :
    Except LiveError ObjectMetadata × ObjectStore :=
  match streamed [] 0 reader with
  | .error e => (.error e,store)
  | .ok (bytes,size) =>
    let (metadata,store) :=
      (store.writeBlob (blake3.toHex bytes) bytes).finishPut now (blake3.toHex bytes) size kind mediaType filename
    (.ok metadata,store)

def get (id : Str) : Except LiveError Bytes := do
  let digest ← digestOf id
  match store.blobs[digest]? with
  | some bytes => return bytes
  | none => .error (.notFound ("object ".toList ++ id ++ " not found".toList))

def metadataOf (id : Str) : Except LiveError ObjectMetadata := do
  let digest ← digestOf id
  match store.metadata[digest]? with
  | some metadata => return metadata
  | none => .error (.notFound ("metadata for ".toList ++ id ++ " not found".toList))

def renameFile (id filename : Str) : Except LiveError ObjectMetadata × ObjectStore :=
  match validateFilename filename with
  | .error e => (.error e,store)
  | .ok filename =>
    match digestOf id with
    | .error e => (.error e,store)
    | .ok digest =>
      match store.metadata[digest]? with
      | none => (.error (.notFound ("metadata for ".toList ++ id ++ " not found".toList)),store)
      | some metadata =>
        if metadata.kind ≠ "file".toList then (.error (.notFound ("file ".toList ++ id ++ " not found".toList)),store)
        else
          let renamed := {metadata with filename := some filename}
          (.ok renamed,{store with metadata := store.metadata.insert digest renamed})

def newer (left right : ObjectMetadata) : Prop :=
  right.createdAtMillis < left.createdAtMillis ∨
    left.createdAtMillis = right.createdAtMillis ∧ (compare left.id right.id).isLE = true
instance (left right : ObjectMetadata) : Decidable (newer left right) := inferInstanceAs (Decidable (_ ∨ _ ∧ _))

def list (kind : Option Str) : List ObjectMetadata :=
  ((store.metadata.toList.map (·.2)).filter fun metadata => kind.all fun expected => metadata.kind = expected).insertionSort newer

end ObjectStore

theorem streamed_grows
    (read : ObjectStore.streamed got size reader = .ok (bytes,total)) : got.length ≤ bytes.length := by
  induction reader generalizing got size with
  | nil => cases read; exact Nat.le_refl _
  | cons call rest ih =>
    cases call with
    | interrupted => exact ih read
    | failed message => cases read
    | bytes chunk =>
      cases chunk with
      | nil => cases read; exact Nat.le_refl _
      | cons b chunk =>
        have longer : (got ++ b :: chunk).length ≤ bytes.length := ih read
        rw [List.length_append] at longer; omega

theorem digestOf_ok {id digest : Str} :
    digestOf id = .ok digest ↔ id = blake3Prefix ++ digest ∧ digest.length = 64 ∧ digest.all isHexDigit = true := by
  unfold digestOf validateId
  constructor
  · intro read
    split at read
    · cases read
    · rename_i rest start
      have whole : blake3Prefix ++ rest = id := (List.isPrefixOf?_eq_some_iff_append_eq).mp start
      split at read
      · rename_i fine; cases read
        subst whole; simpa using fine
      · cases read
  · rintro ⟨rfl,long,digits⟩
    have start : "blake3:".toList.isPrefixOf? (blake3Prefix ++ digest) = some digest :=
      List.isPrefixOf?_eq_some_iff_append_eq.mpr rfl
    simp only [start,long,digits,and_self,if_true,Except.map,List.drop_left]

theorem toHex_digest (blake3 : Blake3) (bytes : Bytes) :
    (blake3.toHex bytes).length = 64 ∧ (blake3.toHex bytes).all isLowerHex = true := by
  obtain ⟨long,lower⟩ := Repo.hex_lower (blake3.hash bytes)
  exact ⟨by rw [Blake3.toHex,long,blake3.whole],lower⟩

theorem digestOf_id (blake3 : Blake3) (bytes : Bytes) : digestOf (blake3.id bytes) = .ok (blake3.toHex bytes) := by
  obtain ⟨long,lower⟩ := toHex_digest blake3 bytes
  refine digestOf_ok.mpr ⟨rfl,long,?_⟩
  rw [List.all_eq_true] at lower ⊢
  exact fun c among => lowerHex_hex (lower c among)

end HologramLive.Objects
