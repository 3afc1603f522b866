import HologramLive.Lib.Doubles
import HologramLive.Holo.Types
namespace HologramLive.Buckets

def b32 : Str := "abcdefghijklmnopqrstuvwxyz234567".toList
def raw : UInt8 := 0x55
def dagPb : UInt8 := 0x70

def b32Char (n : Nat) : Char := b32.getD (n%32) 'a'

-- The inner loop of `base32`: five bits of the word are a character while five
-- are left.
def spell (value : Nat) : Nat → Str
  | bits+5 => b32Char (value/2^bits) :: spell value bits
  | _ => []

-- Words have 32 bits.
def base32From : Bytes → Nat → Nat → Str
  | [],bits,value => if 0 < bits then [b32Char (value*2^(5-bits)%2^32)] else []
  | byte :: rest,bits,value =>
    let value := (value*2^8+byte.toNat)%2^32
    spell value (bits+8) ++ base32From rest ((bits+8)%5) value

def base32 (bytes : Bytes) : Str := base32From bytes 0 0

variable (codec : UInt8)

variable (digest : Bytes)

def cidString : Str := 'b' :: base32 ([0x01,codec,0x12,0x20] ++ digest)

-- A character that is not of the alphabet is at -1, which sets every bit.
def b32Word (value : Nat) (c : Char) : Nat :=
  if c ∈ b32 then (value*2^5+b32.idxOf c)%2^32 else 2^32-1

def cidBytes : Str → Nat → Nat → Bytes
  | [],_,_ => []
  | c :: rest,bits,value =>
    let value := b32Word value c
    if 8 ≤ bits+5 then UInt8.ofNat (value/2^(bits+5-8)) :: cidBytes rest (bits+5-8) value
    else cidBytes rest (bits+5) value

def cidToDigest (cid : Str) : Str := "sha256:".toList ++ hex ((cidBytes (cid.drop 1) 0 0).drop 4)

def codecOf (cid : Str) : UInt8 := if "bafk".toList.isPrefixOf cid then raw else dagPb

end HologramLive.Buckets

namespace HologramLive.Buckets
open Doubles List

def varint (n : Nat) : Bytes :=
  if n < 0x80 then [UInt8.ofNat n] else UInt8.ofNat (n%128+0x80) :: varint (n/128)

-- The reader works on what is left of the bytes. Behind the end it reads a
-- missing byte, which counts as zero.
def readVarintFrom : Bytes → Nat → Whole → Whole × Bytes
  | [],shift,value => (value.add (.scaled 0 shift),[])
  | byte :: rest,shift,value =>
    let value := value.add (.scaled (byte.toNat%128) shift)
    if byte.toNat < 0x80 then (value,rest) else readVarintFrom rest (shift+7) value

variable (bytes : Bytes)

def readVarint : Whole × Bytes := readVarintFrom bytes 0 (.fin 0)

def fieldNumber (tag : Whole) : Int := tag.toInt32/8

theorem readVarintFrom_length (shift : Nat) (value : Whole) :
    (readVarintFrom bytes shift value).2.length ≤ bytes.length-1 := by
  induction bytes generalizing shift value with
  | nil => simp [readVarintFrom]
  | cons byte rest ih =>
    rw [readVarintFrom]
    split
    · simp
    · have shorter := ih (shift+7) (value.add (.scaled (byte.toNat%128) shift))
      simp only [length_cons]
      omega

theorem readVarint_length : (readVarint bytes).2.length ≤ bytes.length-1 := readVarintFrom_length bytes 0 (.fin 0)

theorem field_shorter {bytes : Bytes} (some_ : bytes ≠ []) (length : Whole) :
    (length.dropped (readVarint (readVarint bytes).2).2).length < bytes.length := by
  have tagged := readVarint_length bytes
  have sized := readVarint_length (readVarint bytes).2
  have dropped := length.dropped_length (readVarint (readVarint bytes).2).2
  have long := length_pos_iff.mpr some_
  omega

def hashOf (link : Bytes) (hash : Option Bytes) : Option Bytes :=
  if _ : link = [] then hash
  else
    let ltag := (readVarint link).1
    let llen := (readVarint (readVarint link).2).1
    let rest := (readVarint (readVarint link).2).2
    hashOf (llen.dropped rest) (if fieldNumber ltag = 1 then some (llen.taken rest) else hash)
termination_by link.length
decreasing_by exact field_shorter ‹_› _

def linksOf (bytes : Bytes) : List Str :=
  if _ : bytes = [] then []
  else
    let tag := (readVarint bytes).1
    let len := (readVarint (readVarint bytes).2).1
    let rest := (readVarint (readVarint bytes).2).2
    let links := linksOf (len.dropped rest)
    if fieldNumber tag = 2 then
      match hashOf (len.taken rest) none with
      | some hash => cidString (hash.getD 1 0) (hash.drop 4) :: links
      | none => links
    else links
termination_by bytes.length
decreasing_by exact field_shorter ‹_› _

def field (num wire : Nat) (payload : Bytes) : Bytes :=
  varint (num*8+wire) ++ (if wire = 2 then varint payload.length else []) ++ payload

structure Leaf where
  digest : Bytes
  size : Nat
deriving DecidableEq, Repr

def unixfsOf (leaves : List Leaf) (totalSize : Nat) : Bytes :=
  field 1 0 (varint 2) ++ field 3 0 (varint totalSize) ++ leaves.flatMap fun l => field 4 0 (varint l.size)

def linkOf (l : Leaf) : Bytes :=
  field 1 2 ([0x01,raw,0x12,0x20] ++ l.digest) ++ field 2 2 [] ++ field 3 0 (varint l.size)

def fileNode (leaves : List Leaf) (totalSize : Nat) : Bytes :=
  (leaves.flatMap fun l => field 2 2 (linkOf l)) ++ field 1 2 (unixfsOf leaves totalSize)

section Fields
variable {num : Nat} {payload : Bytes} (small : num*8+2 < 2^31) (sized : payload.length < 2^53)

end Fields

-- A leaf of the hand-written node, with numbers that are exact.
structure Leaf.Exact (leaf : Leaf) : Prop where
  digest : leaf.digest.length = 32
  size : leaf.size < 2^53

end HologramLive.Buckets
