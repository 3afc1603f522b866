import HologramLive.Buckets.Crypt
import HologramLive.Inference.Completion
import HologramLive.Lib.Utf16
namespace HologramLive.Buckets
open Js (Text Unit16 unit)
open List Js Inference

def sextet (ch : Unit16) : Option Nat := (b64.map unit).idxOf? ch

def unb64Loop : Text → Nat → Nat → Except Str Bytes
  | [],_,_ => .ok []
  | ch :: rest,bits,value => match sextet ch with
    | none => .error "not base64url".toList
    | some v =>
      let value := (value*64+v)%2^32
      if 8 ≤ bits+6 then do
        let out ← unb64Loop rest (bits+6-8) value
        return UInt8.ofNat (value/2^(bits+6-8)%256) :: out
      else unb64Loop rest (bits+6) value
def unb64url (text : Text) : Except Str Bytes := unb64Loop text 0 0

section Base64
variable {bytes : Bytes} {text : Text} {sextets : List Nat}

def b64Unit (n : Nat) : Unit16 := unit (b64Char n)

theorem sextet_b64Unit (small : n < 64) : sextet (b64Unit n) = some n := by
  have all : ∀ n : Fin 64,sextet (b64Unit n) = some n.val := by decide +kernel
  exact all ⟨n,small⟩

theorem sextet_some (read : sextet ch = some n) : n < 64 ∧ b64Unit n = ch := by
  unfold sextet at read
  obtain ⟨small,same,_⟩ := idxOf?_eq_some_iff.mp read
  have length : (b64.map unit).length = 64 := rfl
  have within : n < b64.length := by rwa [length_map] at small
  refine ⟨length ▸ small,?_⟩
  rw [getElem_map] at same
  rw [b64Unit,b64Char,getD_eq_getElem?_getD,getElem?_eq_getElem within]
  exact same

def sextetsOf : Bytes → List Nat
  | [] => []
  | [a] => [a.toNat/4,a.toNat%4*16]
  | [a,b] => [a.toNat/4,a.toNat%4*16+b.toNat/16,b.toNat%16*4]
  | a :: b :: c :: rest =>
    a.toNat/4 :: (a.toNat%4*16+b.toNat/16) :: (b.toNat%16*4+c.toNat/64) :: c.toNat%64 :: sextetsOf rest

def bytesOf : List Nat → Bytes
  | a :: b :: c :: d :: rest =>
    UInt8.ofNat (a*4+b/16) :: UInt8.ofNat (b%16*16+c/4) :: UInt8.ofNat (c%4*64+d) :: bytesOf rest
  | [a,b,c] => [UInt8.ofNat (a*4+b/16),UInt8.ofNat (b%16*16+c/4)]
  | [a,b] => [UInt8.ofNat (a*4+b/16)]
  | _ => []

-- No bits are left over, and no character stands alone.
def Exact : List Nat → Prop
  | _ :: _ :: _ :: _ :: rest => Exact rest
  | [_,_,c] => c%4 = 0
  | [_,b] => b%16 = 0
  | [_] => False
  | [] => True

theorem byte_lt (b : UInt8) : b.toNat < 256 := b.toNat_lt

theorem b64url_sextets (bytes : Bytes) : b64url bytes = (sextetsOf bytes).map b64Char := by
  induction bytes using sextetsOf.induct with
  | case1 => rfl
  | case2 a =>
    have := byte_lt a
    have first : a.toNat*2^16/2^18 = a.toNat/4 := by omega
    have second : a.toNat*2^16/2^12%64 = a.toNat%4*16 := by omega
    simp only [b64url,sextetsOf,map_cons,map_nil,first,second]
  | case3 a b =>
    have := byte_lt a
    have := byte_lt b
    have first : (a.toNat*2^16+b.toNat*2^8)/2^18 = a.toNat/4 := by omega
    have second : (a.toNat*2^16+b.toNat*2^8)/2^12%64 = a.toNat%4*16+b.toNat/16 := by omega
    have third : (a.toNat*2^16+b.toNat*2^8)/2^6%64 = b.toNat%16*4 := by omega
    simp only [b64url,sextetsOf,map_cons,map_nil,first,second,third]
  | case4 a b c rest ih =>
    have := byte_lt a
    have := byte_lt b
    have := byte_lt c
    have first : (a.toNat*2^16+b.toNat*2^8+c.toNat)/2^18 = a.toNat/4 := by omega
    have second : (a.toNat*2^16+b.toNat*2^8+c.toNat)/2^12%64 = a.toNat%4*16+b.toNat/16 := by omega
    have third : (a.toNat*2^16+b.toNat*2^8+c.toNat)/2^6%64 = b.toNat%16*4+c.toNat/64 := by omega
    have fourth : (a.toNat*2^16+b.toNat*2^8+c.toNat)%64 = c.toNat%64 := by omega
    simp only [b64url,sextetsOf,map_cons,ih,first,second,third,fourth]

theorem sextetsOf_small (bytes : Bytes) : (∀ n ∈ sextetsOf bytes,n < 64) ∧ Exact (sextetsOf bytes) := by
  induction bytes using sextetsOf.induct with
  | case1 => exact ⟨fun n member => (by cases member),trivial⟩
  | case2 a =>
    have := byte_lt a
    refine ⟨fun n member => ?_,?_⟩
    · simp only [sextetsOf,mem_cons,not_mem_nil,or_false] at member
      omega
    · show a.toNat%4*16%16 = 0
      omega
  | case3 a b =>
    have := byte_lt a
    have := byte_lt b
    refine ⟨fun n member => ?_,?_⟩
    · simp only [sextetsOf,mem_cons,not_mem_nil,or_false] at member
      omega
    · show b.toNat%16*4%4 = 0
      omega
  | case4 a b c rest ih =>
    have := byte_lt a
    have := byte_lt b
    have := byte_lt c
    refine ⟨fun n member => ?_,ih.2⟩
    simp only [sextetsOf,mem_cons] at member
    obtain rfl | rfl | rfl | rfl | later := member
    · omega
    · omega
    · omega
    · omega
    · exact ih.1 n later

theorem ofNat_toNat {b : UInt8} {n : Nat} (same : n = b.toNat) : UInt8.ofNat n = b := by
  rw [same]
  exact UInt8.ofNat_toNat

theorem bytesOf_sextetsOf (bytes : Bytes) : bytesOf (sextetsOf bytes) = bytes := by
  induction bytes using sextetsOf.induct with
  | case1 => rfl
  | case2 a =>
    have := byte_lt a
    simp only [sextetsOf,bytesOf]
    rw [ofNat_toNat (by omega : a.toNat/4*4+a.toNat%4*16/16 = a.toNat)]
  | case3 a b =>
    have := byte_lt a
    have := byte_lt b
    simp only [sextetsOf,bytesOf]
    rw [ofNat_toNat (by omega : a.toNat/4*4+(a.toNat%4*16+b.toNat/16)/16 = a.toNat),
      ofNat_toNat (by omega : (a.toNat%4*16+b.toNat/16)%16*16+b.toNat%16*4/4 = b.toNat)]
  | case4 a b c rest ih =>
    have := byte_lt a
    have := byte_lt b
    have := byte_lt c
    simp only [sextetsOf,bytesOf,ih]
    rw [ofNat_toNat (by omega : a.toNat/4*4+(a.toNat%4*16+b.toNat/16)/16 = a.toNat),
      ofNat_toNat (by omega : (a.toNat%4*16+b.toNat/16)%16*16+(b.toNat%16*4+c.toNat/64)/4 = b.toNat),
      ofNat_toNat (by omega : (b.toNat%16*4+c.toNat/64)%4*64+c.toNat%64 = c.toNat)]

theorem toNat_small {n : Nat} (small : n < 256) : (UInt8.ofNat n).toNat = n := by
  rw [UInt8.toNat_ofNat']
  exact Nat.mod_eq_of_lt small

theorem sextetsOf_bytesOf (small : ∀ n ∈ sextets,n < 64) (exact_ : Exact sextets) :
    sextetsOf (bytesOf sextets) = sextets := by
  induction sextets using bytesOf.induct with
  | case1 a b c d rest ih =>
    have := small a (by simp)
    have := small b (by simp)
    have := small c (by simp)
    have := small d (by simp)
    have later := ih (fun n member => small n (by simp [member])) exact_
    simp only [bytesOf,sextetsOf,later]
    rw [toNat_small (by omega),toNat_small (by omega),toNat_small (by omega)]
    congr 1
    · omega
    · congr 1
      · omega
      · congr 1
        · omega
        · congr 1
          omega
  | case2 a b c =>
    have := small a (by simp)
    have := small b (by simp)
    have := small c (by simp)
    have : c%4 = 0 := exact_
    simp only [bytesOf,sextetsOf]
    rw [toNat_small (by omega),toNat_small (by omega)]
    congr 1
    · omega
    · congr 1
      · omega
      · congr 1
        omega
  | case3 a b =>
    have := small a (by simp)
    have := small b (by simp)
    have : b%16 = 0 := exact_
    simp only [bytesOf,sextetsOf]
    rw [toNat_small (by omega)]
    congr 1
    · omega
    · congr 1
      omega
  | case4 other _ _ _ =>
    obtain _ | ⟨a,_ | ⟨b,_ | ⟨c,_ | ⟨d,rest⟩⟩⟩⟩ := other
    · rfl
    · cases exact_
    · rename_i short
      exact absurd rfl (short a b)
    · rename_i short _
      exact absurd rfl (short a b c)
    · rename_i short _ _
      exact absurd rfl (short a b c d rest)

def Reads (text : Text) (sextets : List Nat) : Prop := List.Forall₂ (fun ch n => sextet ch = some n) text sextets

theorem reads_unit (reads : Reads text sextets) : (∀ n ∈ sextets,n < 64) ∧ text = sextets.map b64Unit := by
  induction reads with
  | nil => exact ⟨fun n member => (by cases member),rfl⟩
  | cons read _ ih =>
    obtain ⟨small,same⟩ := sextet_some read
    refine ⟨fun n member => ?_,?_⟩
    · obtain rfl | later := mem_cons.mp member
      · exact small
      · exact ih.1 n later
    · rw [map_cons,same,← ih.2]

theorem reads_map (small : ∀ n ∈ sextets,n < 64) : Reads (sextets.map b64Unit) sextets := by
  induction sextets with
  | nil => exact .nil
  | cons n rest ih =>
    exact .cons (sextet_b64Unit (small n mem_cons_self)) (ih fun m member => small m (mem_cons_of_mem _ member))

-- Four characters leave no bits waiting, whatever the value's upper bits are.
theorem unb64Loop_reads (reads : Reads text sextets) (value : Nat) : unb64Loop text 0 value = .ok (bytesOf sextets) := by
  induction sextets using bytesOf.induct generalizing text value with
  | case1 a b c d rest ih =>
    obtain _ | ⟨ra,_ | ⟨rb,_ | ⟨rc,_ | ⟨rd,later⟩⟩⟩⟩ := reads
    have la := (sextet_some ra).1
    have lb := (sextet_some rb).1
    have lc := (sextet_some rc).1
    have ld := (sextet_some rd).1
    have first : ((value*64+a)%2^32*64+b)%2^32/2^4%256 = a*4+b/16 := by omega
    have second : (((value*64+a)%2^32*64+b)%2^32*64+c)%2^32/2^2%256 = b%16*16+c/4 := by omega
    have third : ((((value*64+a)%2^32*64+b)%2^32*64+c)%2^32*64+d)%2^32/2^0%256 = c%4*64+d := by omega
    simp only [unb64Loop,ra,rb,rc,rd,Nat.reduceAdd,Nat.reduceLeDiff,Nat.reduceSub,if_true,if_false,ih later,bind,Except.bind,
      pure,Except.pure,first,second,third,bytesOf]
  | case2 a b c =>
    obtain _ | ⟨ra,_ | ⟨rb,_ | ⟨rc,_ | _⟩⟩⟩ := reads
    have la := (sextet_some ra).1
    have lb := (sextet_some rb).1
    have lc := (sextet_some rc).1
    have first : ((value*64+a)%2^32*64+b)%2^32/2^4%256 = a*4+b/16 := by omega
    have second : (((value*64+a)%2^32*64+b)%2^32*64+c)%2^32/2^2%256 = b%16*16+c/4 := by omega
    simp only [unb64Loop,ra,rb,rc,Nat.reduceAdd,Nat.reduceLeDiff,Nat.reduceSub,if_true,if_false,bind,Except.bind,
      pure,Except.pure,first,second,bytesOf]
  | case3 a b =>
    obtain _ | ⟨ra,_ | ⟨rb,_ | _⟩⟩ := reads
    have la := (sextet_some ra).1
    have lb := (sextet_some rb).1
    have first : ((value*64+a)%2^32*64+b)%2^32/2^4%256 = a*4+b/16 := by omega
    simp only [unb64Loop,ra,rb,Nat.reduceAdd,Nat.reduceLeDiff,Nat.reduceSub,if_true,if_false,bind,Except.bind,
      pure,Except.pure,first,bytesOf]
  | case4 other _ _ _ =>
    obtain _ | ⟨ra,_ | ⟨rb,_ | ⟨rc,_ | _⟩⟩⟩ := reads
    · rfl
    · simp only [unb64Loop,ra,Nat.reduceAdd,Nat.reduceLeDiff,if_false,bytesOf]
    · rename_i short
      exact absurd rfl (short _ _)
    · rename_i short _
      exact absurd rfl (short _ _ _)
    · rename_i short _ _
      exact absurd rfl (short _ _ _ _ _)

def b64urlText (bytes : Bytes) : Text := (b64url bytes).map unit

def Canonical (text : Text) : Prop := ∃ sextets,Reads text sextets ∧ Exact sextets

theorem b64urlText_sextets (bytes : Bytes) : b64urlText bytes = (sextetsOf bytes).map b64Unit := by
  rw [b64urlText,b64url_sextets,map_map]
  rfl

theorem unb64url_b64url (bytes : Bytes) : unb64url (b64urlText bytes) = .ok bytes := by
  rw [b64urlText_sextets,unb64url,unb64Loop_reads (reads_map (sextetsOf_small bytes).1),bytesOf_sextetsOf]

theorem b64url_canonical (read : unb64url text = .ok bytes) : b64urlText bytes = text ↔ Canonical text := by
  rw [b64urlText_sextets]
  constructor
  · intro same
    rw [← same]
    exact ⟨sextetsOf bytes,reads_map (sextetsOf_small bytes).1,(sextetsOf_small bytes).2⟩
  · rintro ⟨sextets,reads,exact_⟩
    obtain ⟨small,same⟩ := reads_unit reads
    rw [unb64url,unb64Loop_reads reads] at read
    cases read
    rw [sextetsOf_bytesOf small exact_,← same]

end Base64

-- `TextEncoder` and `TextDecoder`: lone surrogates are substituted, a byte order
-- mark at the start is taken off.
def encode (text : Text) : Bytes := toUtf8 (scalars text)
def byteOrderMark : Bytes := [0xEF,0xBB,0xBF]
def decode (bytes : Bytes) : Text :=
  Js.utf16 (fromUtf8Lossy (if byteOrderMark.isPrefixOf bytes then bytes.drop 3 else bytes))

namespace SealedNames
variable (subtle : Subtle) (key : BucketKey)

variable (name : Text)

def sealName : Text :=
  let plain := encode name
  let nonce := nonceFor subtle key (toUtf8 "name/".toList ++ plain)
  ascii "e." ++ b64urlText (nonce ++ subtle.encrypt key.bytes nonce aadName plain)

def isSealedName (text : Text) : Bool := (ascii "e.").isPrefixOf text

def openName (sealed : Text) : Except Str Text :=
  if isSealedName sealed then do
    let bytes ← unb64url (sealed.drop 2)
    match subtle.decrypt key.bytes (bytes.take 12) aadName (bytes.drop 12) with
    | some plain => return decode plain
    | none => .error "refused: this name does not open with this key".toList
  else .ok sealed

-- AES-GCM opens nothing but what was sealed with the same key, nonce and data.
def Opens : Prop := ∀ key iv additionalData sealed plain,
  subtle.decrypt key iv additionalData sealed = some plain → sealed = subtle.encrypt key iv additionalData plain

section Utf8
variable {chars : List Char}

def feff : Char := Char.ofNat 0xFEFF

theorem starts_feff : byteOrderMark.isPrefixOf (toUtf8 chars) = true ↔ chars.head? = some feff := by
  cases chars with
  | nil => exact ⟨fun marked => (by cases marked),fun none => (by cases none)⟩
  | cons c rest =>
    have spelled : toUtf8 (c :: rest) = String.utf8EncodeChar c ++ toUtf8 rest := flatMap_cons
    have mark : String.utf8EncodeChar feff = byteOrderMark := by decide
    constructor
    · intro marked
      obtain ⟨more,same⟩ := isPrefixOf_iff_prefix.mp marked
      have first := decodeChar_append c (toUtf8 rest)
      rw [← spelled,← same,← mark,decodeChar_append] at first
      rw [head?_cons,Option.some.inj first]
    · intro first
      cases Option.some.inj first
      rw [spelled,mark]
      exact isPrefixOf_iff_prefix.mpr (prefix_append _ _)

theorem decode_toUtf8 : decode (toUtf8 chars) = Js.utf16 (if chars.head? = some feff then chars.tail else chars) := by
  unfold decode
  by_cases marked : chars.head? = some feff
  · rw [if_pos (starts_feff.mpr marked),if_pos marked]
    cases chars with
    | nil => cases marked
    | cons c rest =>
      cases Option.some.inj marked
      have spelled : toUtf8 (feff :: rest) = byteOrderMark ++ toUtf8 rest := flatMap_cons
      rw [spelled]
      show Js.utf16 (fromUtf8Lossy (toUtf8 rest)) = _
      rw [lossy_utf8]
      rfl
  · rw [if_neg fun starts => marked (starts_feff.mp starts),if_neg marked,lossy_utf8]

end Utf8

-- A name that the encoders carry: no surrogate of it is alone, and it does not
-- start with a byte order mark.
def Plain : Prop := wellFormed name = true ∧ name.head? ≠ some 0xFEFF

theorem scalars_head : (scalars name).head? = some feff ↔ name.head? = some 0xFEFF := by
  have plain : surrogate 0xFEFF = false := by decide
  have only {u : Unit16} (same : scalar u = feff) : u = 0xFEFF := by
    cases mark : surrogate u with
    | true => rw [scalar,mark,if_pos rfl] at same; exact absurd same (by decide)
    | false =>
      have units := units_scalar mark
      rw [same] at units
      exact (List.cons.inj units).1.symm
  induction name using scalars.induct with
  | case1 u v rest pair =>
    obtain ⟨lead,trail⟩ := Bool.and_eq_true_iff.mp pair
    rw [scalars,if_pos pair]
    constructor
    · intro same
      have units := units_pairScalar lead trail
      rw [Option.some.inj same] at units
      cases units
    · intro same
      cases Option.some.inj same
      rw [surrogate,lead] at plain
      cases plain
  | case2 u v rest alone =>
    rw [scalars,if_neg alone]
    exact ⟨fun same => congrArg some (only (Option.some.inj same)),fun same => by cases Option.some.inj same; rfl⟩
  | case3 u => exact ⟨fun same => congrArg some (only (Option.some.inj same)),fun same => by cases Option.some.inj same; rfl⟩
  | case4 => exact ⟨fun same => (by cases same),fun same => (by cases same)⟩

theorem decode_encode : decode (encode name) = name ↔ Plain name := by
  rw [encode,decode_toUtf8]
  by_cases marked : name.head? = some 0xFEFF
  · rw [if_pos ((scalars_head name).mpr marked)]
    refine ⟨fun same => ?_,fun plain => absurd marked plain.2⟩
    cases name with
    | nil => cases marked
    | cons u rest =>
      cases Option.some.inj marked
      have shorter := congrArg List.length same
      rw [scalars_plain (by decide),tail_cons,length_utf16_scalars,length_cons] at shorter
      omega
  · rw [if_neg fun starts => marked ((scalars_head name).mp starts),utf16_scalars]
    exact ⟨fun formed => ⟨formed,marked⟩,And.left⟩

theorem encode_decode (plain : Bytes) : encode (decode plain) = plain ↔ ∃ name,Plain name ∧ plain = encode name := by
  constructor
  · intro same
    refine ⟨decode plain,?_,same.symm⟩
    rw [← decode_encode,same]
  · rintro ⟨name,faithful,rfl⟩
    rw [(decode_encode name).mpr faithful]

section Sealing
variable {subtle : Subtle} {key : BucketKey}

def marked : Text := ascii "e."

theorem sealed_split {sealed : Text} (starts : isSealedName sealed = true) : marked ++ sealed.drop 2 = sealed := by
  obtain ⟨body,rfl⟩ := isPrefixOf_iff_prefix.mp starts
  rfl

def sealedBytes (subtle : Subtle) (key : BucketKey) (plain : Bytes) : Bytes :=
  nonceFor subtle key (toUtf8 "name/".toList ++ plain) ++
    subtle.encrypt key.bytes (nonceFor subtle key (toUtf8 "name/".toList ++ plain)) aadName plain

theorem sealName_bytes : sealName subtle key name = marked ++ b64urlText (sealedBytes subtle key (encode name)) := rfl

theorem sealedBytes_parts (plain : Bytes) :
    (sealedBytes subtle key plain).take 12 = nonceFor subtle key (toUtf8 "name/".toList ++ plain) ∧
    subtle.decrypt key.bytes ((sealedBytes subtle key plain).take 12) aadName ((sealedBytes subtle key plain).drop 12) = some plain := by
  have length := nonceFor_length subtle key (toUtf8 "name/".toList ++ plain)
  have front : (sealedBytes subtle key plain).take 12 = nonceFor subtle key (toUtf8 "name/".toList ++ plain) :=
    take_left' length
  refine ⟨front,?_⟩
  rw [front,sealedBytes,drop_left' length,subtle.decrypt_encrypt]

theorem openName_sealName : openName subtle key (sealName subtle key name) = .ok (decode (encode name)) := by
  have starts : isSealedName (sealName subtle key name) = true :=
    isPrefixOf_iff_prefix.mpr (prefix_append _ _)
  have body : (sealName subtle key name).drop 2 = b64urlText (sealedBytes subtle key (encode name)) := rfl
  rw [openName,if_pos starts,body,unb64url_b64url]
  simp only [bind,Except.bind,(sealedBytes_parts (encode name)).2]
  rfl

theorem sealName_same (one two : Text) :
    sealName subtle key one = sealName subtle key two ↔ scalars one = scalars two := by
  constructor
  · intro same
    rw [sealName_bytes,sealName_bytes] at same
    have read := unb64url_b64url (sealedBytes subtle key (encode one))
    rw [append_cancel_left same,unb64url_b64url] at read
    have bytes := Except.ok.inj read
    have plain := (@sealedBytes_parts subtle key (encode one)).2
    rw [← bytes,(sealedBytes_parts (encode two)).2] at plain
    have texts := congrArg fromUtf8Lossy (Option.some.inj plain)
    rwa [encode,encode,lossy_utf8,lossy_utf8,eq_comm] at texts
  · intro same
    rw [sealName,sealName,encode,encode,same]

theorem openName_ok {sealed name : Text} (starts : isSealedName sealed = true) (opened : openName subtle key sealed = .ok name) :
    ∃ bytes plain,unb64url (sealed.drop 2) = .ok bytes ∧
      subtle.decrypt key.bytes (bytes.take 12) aadName (bytes.drop 12) = some plain ∧ name = decode plain := by
  rw [openName,if_pos starts] at opened
  cases read : unb64url (sealed.drop 2) with
  | error error => rw [read] at opened; cases opened
  | ok bytes =>
    rw [read] at opened
    simp only [bind,Except.bind] at opened
    cases decrypted : subtle.decrypt key.bytes (bytes.take 12) aadName (bytes.drop 12) with
    | none => rw [decrypted] at opened; cases opened
    | some plain =>
      rw [decrypted] at opened
      cases opened
      exact ⟨bytes,plain,rfl,decrypted,rfl⟩

-- A sealed name that is spelled as it would be sealed: its text is canonical, its
-- nonce belongs to the plaintext, and the plaintext is that of a plain name.
def Spelled (subtle : Subtle) (key : BucketKey) (sealed : Text) : Prop :=
  Canonical (sealed.drop 2) ∧ ∀ bytes plain,unb64url (sealed.drop 2) = .ok bytes →
    subtle.decrypt key.bytes (bytes.take 12) aadName (bytes.drop 12) = some plain →
      bytes.take 12 = nonceFor subtle key (toUtf8 "name/".toList ++ plain) ∧ ∃ name,Plain name ∧ plain = encode name

theorem sealName_openName (opens : Opens subtle) {sealed name : Text} (starts : isSealedName sealed = true)
    (opened : openName subtle key sealed = .ok name) : sealName subtle key name = sealed ↔ Spelled subtle key sealed := by
  obtain ⟨bytes,plain,read,decrypted,rfl⟩ := openName_ok starts opened
  constructor
  · intro same
    have body : b64urlText (sealedBytes subtle key (encode (decode plain))) = sealed.drop 2 := by
      rw [← same]
      rfl
    rw [← body,unb64url_b64url] at read
    cases read
    have again := (@sealedBytes_parts subtle key (encode (decode plain))).2
    rw [decrypted] at again
    have back := Option.some.inj again
    refine ⟨body ▸ (b64url_canonical (unb64url_b64url _)).mp rfl,fun bytes other read unsealed => ?_⟩
    rw [← body,unb64url_b64url] at read
    cases read
    rw [decrypted] at unsealed
    cases unsealed
    refine ⟨?_,(encode_decode plain).mp back.symm⟩
    rw [(sealedBytes_parts _).1,← back]
  · rintro ⟨canonical,spelled⟩
    obtain ⟨nonce,other,faithful,rfl⟩ := spelled bytes plain read decrypted
    have sealed_ := opens _ _ _ _ _ decrypted
    have whole : sealedBytes subtle key (encode other) = bytes := by
      rw [sealedBytes,← nonce,← sealed_]
      exact take_append_drop 12 bytes
    rw [(decode_encode other).mpr faithful,sealName_bytes,whole,(b64url_canonical read).mpr canonical]
    exact sealed_split starts

-- Exactly the plain names come back, names are told apart by their scalar values,
-- and exactly the texts spelled so are the ones that sealing produces.
theorem names_sealed (opens : Opens subtle) (key : BucketKey) :
    (∀ name,openName subtle key (sealName subtle key name) = .ok name ↔ Plain name) ∧
    (∀ one two,sealName subtle key one = sealName subtle key two ↔ scalars one = scalars two) ∧
    (∀ sealed name,isSealedName sealed = true → openName subtle key sealed = .ok name →
      (sealName subtle key name = sealed ↔ Spelled subtle key sealed)) ∧
    (∀ bytes,unb64url (b64urlText bytes) = .ok bytes) ∧
    ∀ text bytes,unb64url text = .ok bytes → (b64urlText bytes = text ↔ Canonical text) := by
  refine ⟨fun name => ?_,sealName_same,fun _ _ starts opened => sealName_openName opens starts opened,unb64url_b64url,
    fun _ _ read => b64url_canonical read⟩
  rw [openName_sealName,← decode_encode]
  exact ⟨Except.ok.inj,congrArg _⟩

end Sealing

def letterKey : BucketKey := ⟨(range 32).map UInt8.ofNat,by decide⟩
def letterMac : Bytes := [194,109,147,76,190,135,81,195,32,103,176,38,45,141,105,155,63,220,37,165,189,54,12,71,190,150,99,244,247,
  29,188,131]
def letterSealed : Bytes := [108,164,21,150,187,176,140,174,77,30,208,211,7,46,155,243,149]

def letterEncrypt (key iv additionalData plain : Bytes) : Bytes :=
  if key = letterKey.bytes ∧ iv = letterMac.take 12 ∧ additionalData = aadName ∧ plain = [97] then letterSealed
  else plain ++ replicate 16 0

def letterDecrypt (key iv additionalData sealed : Bytes) : Option Bytes :=
  if letterEncrypt key iv additionalData [97] = sealed then some [97]
  else if letterEncrypt key iv additionalData (sealed.take (sealed.length-16)) = sealed then some (sealed.take (sealed.length-16))
  else none

def letterSubtle : Subtle where
  digest _ := replicate 32 0
  sign key bytes := if key = letterKey.bytes ∧ bytes = toUtf8 "name/a".toList then letterMac else replicate 32 0
  encrypt := letterEncrypt
  decrypt := letterDecrypt
  digest_length _ := length_replicate
  sign_length key bytes := by split <;> rfl
  encrypt_length key iv additionalData plain := by
    unfold letterEncrypt
    split
    · rename_i letter
      rw [letter.2.2.2]
      rfl
    · rw [length_append,length_replicate]
  decrypt_encrypt key iv additionalData plain := by
    have tagged (bytes : Bytes) : letterSealed ≠ bytes ++ replicate 16 0 := fun same => by
      have ends := congrArg (fun bytes => bytes.reverse.head?) same
      rw [reverse_append,reverse_replicate] at ends
      have last : some (149 : UInt8) = some 0 := ends
      exact absurd last (by decide)
    unfold letterDecrypt
    by_cases letter : letterEncrypt key iv additionalData [97] = letterEncrypt key iv additionalData plain
    · rw [if_pos letter]
      unfold letterEncrypt at letter
      split at letter
      · split at letter
        · rename_i one; rw [one.2.2.2]
        · exact absurd letter (tagged plain)
      · split at letter
        · exact absurd letter.symm (tagged [97])
        · rw [append_cancel_right letter]
    · rw [if_neg letter]
      have shown : letterEncrypt key iv additionalData plain = plain ++ replicate 16 0 := by
        unfold letterEncrypt
        refine if_neg fun same => letter ?_
        rw [same.2.2.2]
      have back : (plain ++ replicate 16 (0 : UInt8)).take ((plain ++ replicate 16 (0 : UInt8)).length-16) = plain := by
        rw [length_append,length_replicate,Nat.add_sub_cancel]; exact take_left
      rw [shown,back,shown,if_pos rfl]

theorem letter_opens : Opens letterSubtle := by
  intro key iv additionalData sealed plain decrypted
  change letterDecrypt key iv additionalData sealed = some plain at decrypted
  unfold letterDecrypt at decrypted
  split at decrypted
  · rename_i same
    cases decrypted
    exact same.symm
  · split at decrypted
    · rename_i same
      cases decrypted
      exact same.symm
    · cases decrypted

theorem letter_sealed : openName letterSubtle letterKey (sealName letterSubtle letterKey (ascii "a")) = .ok (ascii "a") :=
  ((names_sealed letter_opens letterKey).1 (ascii "a")).mpr ⟨by decide,by decide⟩

-- A name with a byte order mark at its start comes back without it.
theorem mark_lost : ¬∀ (subtle : Subtle),Opens subtle → ∀ (key : BucketKey) (name : Text),
    openName subtle key (sealName subtle key name) = .ok name := by
  intro all
  have read := all letterSubtle letter_opens letterKey [0xFEFF,unit 'a']
  rw [openName_sealName] at read
  exact ((decode_encode _).mp (Except.ok.inj read)).2 rfl

end SealedNames

end HologramLive.Buckets
