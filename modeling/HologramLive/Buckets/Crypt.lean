import HologramLive.Holo.Types
namespace HologramLive.Buckets

structure Subtle where
  digest : Bytes → Bytes
  sign : Bytes → Bytes → Bytes
  encrypt : Bytes → Bytes → Bytes → Bytes → Bytes
  decrypt : Bytes → Bytes → Bytes → Bytes → Option Bytes
  digest_length : ∀ bytes,(digest bytes).length = 32
  sign_length : ∀ key bytes,(sign key bytes).length = 32
  encrypt_length : ∀ key iv additionalData plain,(encrypt key iv additionalData plain).length = plain.length+16
  decrypt_encrypt : ∀ key iv additionalData plain,
    decrypt key iv additionalData (encrypt key iv additionalData plain) = some plain

-- `keyFromText` takes 32 bytes.
structure BucketKey where
  bytes : Bytes
  exact : bytes.length = 32
deriving DecidableEq

inductive BucketError where
  | refused (why : Str)
  | address (cid : Str)
  | registry (message : Str)
deriving DecidableEq, Repr

def aadBlock : Bytes := toUtf8 "uor-bucket-block/v1".toList
def aadName : Bytes := toUtf8 "uor-bucket-name/v1".toList

def b64 : Str := "ABCDEFGHIJKLMNOPQRSTUVWXYZabcdefghijklmnopqrstuvwxyz0123456789-_".toList
def b64Char (n : Nat) : Char := b64.getD n 'A'
def b64url : Bytes → Str
  | [] => []
  | [a] => let n := a.toNat*2^16; [b64Char (n/2^18),b64Char (n/2^12%64)]
  | [a,b] => let n := a.toNat*2^16+b.toNat*2^8; [b64Char (n/2^18),b64Char (n/2^12%64),b64Char (n/2^6%64)]
  | a :: b :: c :: rest =>
    let n := a.toNat*2^16+b.toNat*2^8+c.toNat
    b64Char (n/2^18) :: b64Char (n/2^12%64) :: b64Char (n/2^6%64) :: b64Char (n%64) :: b64url rest

variable (subtle : Subtle)

variable (key : BucketKey)

def nonceFor (bytes : Bytes) : Bytes := (subtle.sign key.bytes bytes).take 12

def sealBlock (plain : Bytes) : Bytes :=
  let nonce := nonceFor subtle key plain
  nonce ++ subtle.encrypt key.bytes nonce aadBlock plain

def openBlock (sealed : Bytes) : Except BucketError Bytes :=
  if sealed.length < 28 then .error (.refused "refused: a sealed block is at least 28 bytes".toList)
  else match subtle.decrypt key.bytes (sealed.take 12) aadBlock (sealed.drop 12) with
    | some plain => .ok plain
    | none => .error (.refused "refused: this block does not open with this key".toList)

def sealName (name : Str) : Str :=
  let plain := toUtf8 name
  let nonce := nonceFor subtle key (toUtf8 "name/".toList ++ plain)
  "e.".toList ++ b64url (nonce ++ subtle.encrypt key.bytes nonce aadName plain)

theorem nonceFor_length (bytes : Bytes) : (nonceFor subtle key bytes).length = 12 := by
  simp [nonceFor,subtle.sign_length]

end HologramLive.Buckets
