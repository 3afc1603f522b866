import HologramLive.Buckets.DagPb
import HologramLive.Buckets.Crypt
import HologramLive.Lib.Fallible
namespace HologramLive.Buckets
open Tables Fallible

def chunk : Nat := 2^20

def hexToBytes : Str → Bytes
  | high :: low :: rest => UInt8.ofNat (hexDigits.idxOf high*16+hexDigits.idxOf low) :: hexToBytes rest
  | _ => []

theorem hexToBytes_hex (bytes : Bytes) : hexToBytes (hex bytes) = bytes := by
  have digit : ∀ k : Fin 16,hexDigits.idxOf (hexDigits.getD k.val '0') = k.val := by decide
  induction bytes with
  | nil => rfl
  | cons byte rest ih =>
    have small := byte.toNat_lt
    have high := digit ⟨byte.toNat/16,by omega⟩
    have low := digit ⟨byte.toNat%16,by omega⟩
    have joined : byte.toNat/16*16+byte.toNat%16 = byte.toNat := by omega
    have shape : hex (byte :: rest) = hexDigits.getD (byte.toNat/16) '0' :: hexDigits.getD (byte.toNat%16) '0' :: hex rest := rfl
    rw [shape,hexToBytes,high,low,joined,UInt8.ofNat_toNat,ih]

theorem hex_injective (same : hex bytes = hex other) : bytes = other := by
  rw [←hexToBytes_hex bytes,same,hexToBytes_hex]

structure File where
  bytes : Bytes
  safe : bytes.length < 2^53

variable (subtle : Subtle)

def hashBytes (bytes : Bytes) : Str := hex (subtle.digest bytes)
def blobDigest (bytes : Bytes) : Str := "sha256:".toList ++ hashBytes subtle bytes
structure Blobs where
  rows : Table Str Bytes
  addressed : ∀ digest bytes,rows[digest]? = some bytes → digest = blobDigest subtle bytes

variable {subtle}

def Blobs.insert (blobs : Blobs subtle) (bytes : Bytes) : Blobs subtle where
  rows := blobs.rows.insert (blobDigest subtle bytes) bytes
  addressed := by
    intro digest other found
    rw [get_insert] at found
    split at found
    · rename_i same
      cases found
      exact same.symm
    · exact blobs.addressed digest other found

-- A blob that is there is not sent again. The registry may refuse the upload.
def Blobs.putBlob (accepts : Blobs subtle → Bytes → Bool) (blobs : Blobs subtle) (bytes : Bytes) :
    Except BucketError (Str × Blobs subtle) :=
  let digest := blobDigest subtle bytes
  if blobs.rows[digest]?.isSome then .ok (digest,blobs)
  else if accepts blobs bytes then .ok (digest,blobs.insert bytes)
  else .error (.registry "upload".toList)

def Blobs.blob (blobs : Blobs subtle) (digest : Str) : Except BucketError Bytes × Blobs subtle :=
  match blobs.rows[digest]? with
  | some bytes => (.ok bytes,blobs)
  | none => (.error (.registry ("blob ".toList ++ digest)),blobs)

section Read
variable {σ : Type} (subtle) (blob : σ → Str → Except BucketError Bytes × σ) (key : Option BucketKey)

def opened (bytes : Bytes) : Except BucketError Bytes :=
  match key with
  | some key => openBlock subtle key bytes
  | none => .ok bytes

def walkAll (walk : Str → σ → Option (Except BucketError (List Bytes) × σ)) :
    List Str → σ → Option (Except BucketError (List Bytes) × σ)
  | [],reg => some (.ok [],reg)
  | child :: rest,reg =>
    match walk child reg with
    | none => none
    | some (.error error,reg) => some (.error error,reg)
    | some (.ok parts,reg) => (walkAll walk rest reg).map fun later => (later.1.map (parts ++ ·),later.2)

-- The blocks of the file below a node, in order, with the state of the registry.
def walk : Nat → Str → σ → Option (Except BucketError (List Bytes) × σ)
  | 0,_,_ => none
  | depth+1,cid,reg =>
    match blob reg (cidToDigest cid) with
    | (.error error,reg) => some (.error error,reg)
    | (.ok bytes,reg) =>
      if hashBytes subtle bytes ≠ (cidToDigest cid).drop 7 then some (.error (.address cid),reg)
      else if codecOf cid = raw then some ((opened subtle key bytes).map fun bytes => [bytes],reg)
      else walkAll (walk depth) (linksOf bytes) reg

end Read

def slices (bytes : Bytes) : List Bytes :=
  if bytes.length ≤ chunk then [bytes] else bytes.take chunk :: slices (bytes.drop chunk)
termination_by bytes.length
decreasing_by
  rename_i long
  simp only [List.length_drop,chunk] at long ⊢
  omega

section Write
variable (subtle) (accepts : Blobs subtle → Bytes → Bool) (bkey : Option BucketKey)

def sealed (slice : Bytes) : Bytes :=
  match bkey with
  | some bkey => sealBlock subtle bkey slice
  | none => slice

def leafOf (block : Bytes) : Leaf := ⟨hexToBytes (hashBytes subtle block),block.length⟩

structure ObjectEntry where
  key : Str
  wire : Str
  root : Str
  size : Nat
  mtime : Nat
  blocks : List (Str × Nat)
deriving DecidableEq, Repr

end Write
end HologramLive.Buckets
