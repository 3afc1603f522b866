import HologramLive.Buckets.ObjectRoundTrip
namespace HologramLive.Buckets

def width : Nat := 1024

structure Cid where
  codec : UInt8
  digest : Bytes
deriving DecidableEq, Repr

def Cid.text (cid : Cid) : Str := cidString cid.codec cid.digest
def Cid.bytes (cid : Cid) : Bytes := [0x01,cid.codec,0x12,0x20] ++ cid.digest

structure PBLink where
  name : Str
  tsize : Nat
  hash : Cid
deriving DecidableEq, Repr

-- What the recipe takes from its packages: the encoder of a node with links and
-- data, and the encoder of a UnixFS file with block sizes.
structure Encoders where
  encode : List PBLink → Bytes → Bytes
  marshal : List Nat → Bytes

structure Entry where
  cid : Cid
  fileSize : Nat
  dagSize : Nat
deriving DecidableEq, Repr

structure Level where
  pending : List Entry
  total : Nat
deriving DecidableEq, Repr

-- The state of an importer. A full buffer is a leaf at once.
structure Importer where
  buf : Bytes
  size : Nat
  levels : List Level
  blocks : List (Cid × Bytes)
  room : buf.length < chunk

section Import
variable (subtle : Subtle) (encoders : Encoders)

def cidOf (codec : UInt8) (bytes : Bytes) : Cid := ⟨codec,subtle.digest bytes⟩

variable (kids : List Entry)

def nodeBytes : Bytes :=
  encoders.encode (kids.map fun k => ⟨[],k.dagSize,k.cid⟩) (encoders.marshal (kids.map Entry.fileSize))

def nodeBlock : Cid × Bytes := (cidOf subtle dagPb (nodeBytes encoders kids),nodeBytes encoders kids)

def nodeEntry : Entry where
  cid := cidOf subtle dagPb (nodeBytes encoders kids)
  fileSize := (kids.map Entry.fileSize).sum
  dagSize := (nodeBytes encoders kids).length+(kids.map Entry.dagSize).sum

def push : List Level → Entry → List Level × List (Cid × Bytes)
  | [],entry => ([⟨[entry],1⟩],[])
  | level :: higher,entry =>
    let kids := level.pending ++ [entry]
    if kids.length = width then
      let (higher,blocks) := push higher (nodeEntry subtle encoders kids)
      (⟨[],level.total+1⟩ :: higher,nodeBlock subtle encoders kids :: blocks)
    else (⟨kids,level.total+1⟩ :: higher,[])

def leafEntry (bytes : Bytes) : Entry := ⟨cidOf subtle raw bytes,bytes.length,bytes.length⟩

def leaf (levels : List Level) (bytes : Bytes) : List Level × List (Cid × Bytes) :=
  let (levels,blocks) := push subtle encoders levels (leafEntry subtle bytes)
  (levels,(cidOf subtle raw bytes,bytes) :: blocks)

def write (importer : Importer) (bytes : Bytes) : Importer :=
  if _ : bytes = [] then importer
  else
    let n := min (chunk-importer.buf.length) bytes.length
    if short : importer.buf.length+n < chunk then
      write ⟨importer.buf ++ bytes.take n,importer.size+n,importer.levels,importer.blocks,by simp; omega⟩ (bytes.drop n)
    else
      let (levels,blocks) := leaf subtle encoders importer.levels (importer.buf ++ bytes.take n)
      write ⟨[],importer.size+n,levels,importer.blocks ++ blocks,by decide⟩ (bytes.drop n)
termination_by bytes.length
decreasing_by
  all_goals
    have room := importer.room
    have some_ := List.length_pos_iff.mpr ‹_›
    simp only [List.length_drop]
    omega

structure Imported where
  cid : Cid
  size : Nat
  dagSize : Nat
  blocks : List (Cid × Bytes)
deriving DecidableEq, Repr

def closeFrom : Nat → List Level → Option (Entry × List (Cid × Bytes))
  | 0,_ | _,[] => none
  | turns+1,level :: higher =>
    match level.total,level.pending with
    | 1,[root] => some (root,[])
    | _,[] => closeFrom turns higher
    | _,kids =>
      let (higher,blocks) := push subtle encoders higher (nodeEntry subtle encoders kids)
      (closeFrom turns higher).map fun rest => (rest.1,nodeBlock subtle encoders kids :: blocks ++ rest.2)

def close (turns : Nat) (importer : Importer) : Option Imported :=
  let (levels,last) :=
    if 0 < importer.buf.length ∨ importer.size = 0 then leaf subtle encoders importer.levels importer.buf else (importer.levels,[])
  (closeFrom subtle encoders turns levels).map fun rest =>
    ⟨rest.1.cid,importer.size,rest.1.dagSize,importer.blocks ++ last ++ rest.2⟩

end Import
end HologramLive.Buckets

namespace HologramLive.Buckets
open Fallible List
variable {subtle : Subtle} {encoders : Encoders}

-- The encoders emit the links first, then the data, and fields in the order of
-- their numbers.
structure InOrder (encoders : Encoders) : Prop where
  encode : ∀ links data,(∀ link ∈ links,link.name = []) → encoders.encode links data =
    (links.flatMap fun link => field 2 2 (field 1 2 link.hash.bytes ++ field 2 2 [] ++ field 3 0 (varint link.tsize))) ++
      field 1 2 data
  marshal : ∀ sizes,encoders.marshal sizes =
    field 1 0 (varint 2) ++ field 3 0 (varint sizes.sum) ++ sizes.flatMap fun size => field 4 0 (varint size)

section Feeding
variable (subtle encoders)

end Feeding

variable (cuts : List Bytes)

variable {pending : List Entry}

variable {kids : List Entry}

variable {blocks : List (Cid × Bytes)} {root : Entry}

variable {levels : List Level}

section Leaves
variable (subtle)

end Leaves

section Wide
variable (subtle encoders)

def NodeOfNodes (blocks : List (Cid × Bytes)) (entry : Entry) : Prop :=
  ∃ kids,kids ≠ [] ∧ (∀ kid ∈ kids,kid.cid.codec = dagPb) ∧ entry = nodeEntry subtle encoders kids ∧
    nodeBlock subtle encoders kids ∈ blocks

def Grown (blocks : List (Cid × Bytes)) (levels : List Level) : Prop :=
  ∀ level ∈ levels,∀ entry ∈ level.pending,NodeOfNodes subtle encoders blocks entry

def Raised (blocks : List (Cid × Bytes)) : List Level → Prop
  | [] => True
  | level :: higher => (∀ entry ∈ level.pending,entry.cid.codec = dagPb) ∧ Grown subtle encoders blocks higher

end Wide

variable {blocks more : List (Cid × Bytes)}

theorem NodeOfNodes.mono (node : NodeOfNodes subtle encoders blocks entry)
    (sub : ∀ block ∈ blocks,block ∈ more) : NodeOfNodes subtle encoders more entry := by
  obtain ⟨kids,some_,below,same,given⟩ := node
  exact ⟨kids,some_,below,same,sub _ given⟩

theorem Grown.mono (grown : Grown subtle encoders blocks levels)
    (sub : ∀ block ∈ blocks,block ∈ more) : Grown subtle encoders more levels :=
  fun level member entry here => (grown level member entry here).mono sub

theorem NodeOfNodes.codec (node : NodeOfNodes subtle encoders blocks entry) : entry.cid.codec = dagPb := by
  obtain ⟨kids,_,_,same,_⟩ := node
  rw [same]
  rfl

variable {turns : Nat}

theorem Raised.mono (raised : Raised subtle encoders blocks levels)
    (sub : ∀ block ∈ blocks,block ∈ more) : Raised subtle encoders more levels := by
  cases levels with
  | nil => exact True.intro
  | cons level higher => exact ⟨raised.1,raised.2.mono sub⟩

variable {imported : Imported}

variable {accepts : Blobs subtle → Bytes → Bool} {emptyPushed : Bool} {reg next : Blobs subtle} {key : Str} {file : File} {now : Nat}
  {entry : ObjectEntry} {writes : List Bytes}

def lengths : Subtle where
  digest block := replicate 32 (if block.length < 1000 then 0 else 1)
  sign _ _ := replicate 32 0
  encrypt _ _ _ plain := plain ++ replicate 16 0
  decrypt _ _ _ sealed := some (sealed.take (sealed.length-16))
  digest_length _ := length_replicate
  sign_length := blank.sign_length
  encrypt_length := blank.encrypt_length
  decrypt_encrypt := blank.decrypt_encrypt

end HologramLive.Buckets
