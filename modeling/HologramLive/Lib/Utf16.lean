import HologramLive.Lib.JsJson
namespace Js

variable (u : Unit16)

def surrogate : Bool := leading u || trailing u

def substitute : Char := Char.ofNat 0xFFFD

def scalar : Char := if surrogate u then substitute else Char.ofNat u.val
def pairScalar (u v : Unit16) : Char := Char.ofNat (0x10000+(u.val-0xD800)*0x400+(v.val-0xDC00))

-- The scalar values of a text, with a substitute for every lone surrogate.
def scalars : Text → List Char
  | u :: v :: rest =>
    if leading u && trailing v then pairScalar u v :: scalars rest else scalar u :: scalars (v :: rest)
  | [u] => [scalar u]
  | [] => []

def units (c : Char) : Text :=
  if c.toNat < 0x10000 then [Fin.ofNat 65536 c.toNat]
  else [Fin.ofNat 65536 (0xD800+(c.toNat-0x10000)/0x400),Fin.ofNat 65536 (0xDC00+(c.toNat-0x10000)%0x400)]
def utf16 (chars : List Char) : Text := chars.flatMap units

def wellFormed : Text → Bool
  | u :: v :: rest => if leading u && trailing v then wellFormed rest else !surrogate u && wellFormed (v :: rest)
  | [u] => !surrogate u
  | [] => true

theorem toNat_ofNat (valid : n < 0xD800 ∨ 0xDFFF < n ∧ n < 0x110000) : (Char.ofNat n).toNat = n := by
  have ok : n.isValidChar := valid
  unfold Char.ofNat
  rw [dif_pos ok]
  show (Char.ofNatAux n ok).val.toNat = n
  have small : n < 2^32 := by omega
  exact UInt32.toNat_ofNatLT

theorem toNat_valid (c : Char) : c.toNat < 0xD800 ∨ 0xDFFF < c.toNat ∧ c.toNat < 0x110000 := c.valid

theorem surrogate_iff : surrogate u = true ↔ 0xD800 ≤ u.val ∧ u.val < 0xE000 := by
  simp only [surrogate,leading,trailing,Bool.or_eq_true,Bool.and_eq_true,decide_eq_true_eq]
  omega

theorem units_small {c : Char} (small : c.toNat < 0x10000) :
    ∃ u : Unit16,units c = [u] ∧ u.val = c.toNat ∧ surrogate u = false ∧ scalar u = c := by
  refine ⟨Fin.ofNat 65536 c.toNat,if_pos small,Nat.mod_eq_of_lt small,?_⟩
  have value : (Fin.ofNat 65536 c.toNat).val = c.toNat := Nat.mod_eq_of_lt small
  have plain : surrogate (Fin.ofNat 65536 c.toNat) = false := by
    rw [Bool.eq_false_iff,ne_eq,surrogate_iff,value]
    have valid := toNat_valid c
    omega
  refine ⟨plain,?_⟩
  rw [scalar,plain,value]
  exact Char.ofNat_toNat c

theorem units_large {c : Char} (large : ¬c.toNat < 0x10000) :
    ∃ u v : Unit16,units c = [u,v] ∧ leading u = true ∧ trailing v = true ∧ pairScalar u v = c := by
  have valid := toNat_valid c
  have high : 0xD800+(c.toNat-0x10000)/0x400 < 65536 := by omega
  have low : 0xDC00+(c.toNat-0x10000)%0x400 < 65536 := by omega
  have first : (Fin.ofNat 65536 (0xD800+(c.toNat-0x10000)/0x400)).val = 0xD800+(c.toNat-0x10000)/0x400 := Nat.mod_eq_of_lt high
  have second : (Fin.ofNat 65536 (0xDC00+(c.toNat-0x10000)%0x400)).val = 0xDC00+(c.toNat-0x10000)%0x400 := Nat.mod_eq_of_lt low
  refine ⟨_,_,if_neg large,?_,?_,?_⟩
  · simp only [leading,first,Bool.and_eq_true,decide_eq_true_eq]
    omega
  · simp only [trailing,second,Bool.and_eq_true,decide_eq_true_eq]
    omega
  · have whole : 0x10000+(0xD800+(c.toNat-0x10000)/0x400-0xD800)*0x400+(0xDC00+(c.toNat-0x10000)%0x400-0xDC00) = c.toNat := by
      omega
    rw [pairScalar,first,second,whole]
    exact Char.ofNat_toNat c

theorem scalars_plain {u : Unit16} (plain : surrogate u = false) (rest : Text) : scalars (u :: rest) = scalar u :: scalars rest := by
  have lead : leading u = false := (Bool.or_eq_false_iff.mp plain).1
  cases rest with
  | nil => rfl
  | cons v rest => rw [scalars,lead]; rfl

theorem wellFormed_plain {u : Unit16} (plain : surrogate u = false) (rest : Text) : wellFormed (u :: rest) = wellFormed rest := by
  have lead : leading u = false := (Bool.or_eq_false_iff.mp plain).1
  cases rest with
  | nil => rw [wellFormed,plain]; rfl
  | cons v rest => rw [wellFormed,lead,plain]; rfl

open List

theorem scalars_utf16 (chars : List Char) : scalars (utf16 chars) = chars ∧ wellFormed (utf16 chars) = true := by
  induction chars with
  | nil => exact ⟨rfl,rfl⟩
  | cons c rest ih =>
    have spelled : utf16 (c :: rest) = units c ++ utf16 rest := flatMap_cons
    rw [spelled]
    by_cases small : c.toNat < 0x10000
    · obtain ⟨u,one,_,plain,same⟩ := units_small small
      rw [one,singleton_append,scalars_plain plain,wellFormed_plain plain,same,ih.1]
      exact ⟨rfl,ih.2⟩
    · obtain ⟨u,v,two,lead,trail,same⟩ := units_large small
      rw [two]
      show scalars (u :: v :: utf16 rest) = _ ∧ wellFormed (u :: v :: utf16 rest) = true
      rw [scalars,wellFormed,lead,trail]
      simp only [Bool.and_self,if_true]
      rw [same,ih.1]
      exact ⟨rfl,ih.2⟩

theorem ofNat_val : Fin.ofNat 65536 u.val = u := Fin.ext (Nat.mod_eq_of_lt u.isLt)

theorem units_scalar {u : Unit16} (plain : surrogate u = false) : units (scalar u) = [u] := by
  have bounded := u.isLt
  have valid : u.val < 0xD800 ∨ 0xDFFF < u.val ∧ u.val < 0x110000 := by
    have not := mt (surrogate_iff u).mpr (by rw [plain]; exact Bool.false_ne_true)
    omega
  have value : (scalar u).toNat = u.val := by
    rw [scalar,plain]
    exact toNat_ofNat valid
  rw [units,value,if_pos bounded,ofNat_val]

theorem units_pairScalar {u v : Unit16} (lead : leading u = true) (trail : trailing v = true) : units (pairScalar u v) = [u,v] := by
  simp only [leading,trailing,Bool.and_eq_true,decide_eq_true_eq] at lead trail
  have value : (pairScalar u v).toNat = 0x10000+(u.val-0xD800)*0x400+(v.val-0xDC00) := toNat_ofNat (by omega)
  rw [units,value,if_neg (by omega)]
  have first : 0xD800+(0x10000+(u.val-0xD800)*0x400+(v.val-0xDC00)-0x10000)/0x400 = u.val := by omega
  have second : 0xDC00+(0x10000+(u.val-0xD800)*0x400+(v.val-0xDC00)-0x10000)%0x400 = v.val := by omega
  rw [first,second,ofNat_val,ofNat_val]

theorem utf16_scalars (text : Text) : utf16 (scalars text) = text ↔ wellFormed text = true := by
  constructor
  · intro same
    rw [← same]
    exact (scalars_utf16 _).2
  · intro formed
    induction text using scalars.induct with
    | case1 u v rest pair ih =>
      rw [wellFormed,if_pos pair] at formed
      obtain ⟨lead,trail⟩ := Bool.and_eq_true_iff.mp pair
      rw [scalars,if_pos pair]
      show units (pairScalar u v) ++ utf16 (scalars rest) = _
      rw [units_pairScalar lead trail,ih formed]
      rfl
    | case2 u v rest alone ih =>
      rw [wellFormed,if_neg alone] at formed
      obtain ⟨plain,formed⟩ := Bool.and_eq_true_iff.mp formed
      rw [scalars,if_neg alone]
      show units (scalar u) ++ utf16 (scalars (v :: rest)) = _
      rw [units_scalar (by simpa using plain),ih formed]
      rfl
    | case3 u =>
      show units (scalar u) ++ [] = _
      rw [units_scalar (by simpa [wellFormed] using formed)]
      rfl
    | case4 => rfl

theorem length_utf16_scalars (text : Text) : (utf16 (scalars text)).length = text.length := by
  have one (u : Unit16) : (units (scalar u)).length = 1 := by
    cases plain : surrogate u with
    | false => rw [units_scalar plain]; rfl
    | true => rw [scalar,plain]; rfl
  induction text using scalars.induct with
  | case1 u v rest pair ih =>
    obtain ⟨lead,trail⟩ := Bool.and_eq_true_iff.mp pair
    rw [scalars,if_pos pair]
    show (units (pairScalar u v) ++ utf16 (scalars rest)).length = _
    rw [units_pairScalar lead trail,length_append,ih]
    simp only [length_cons,length_nil]
    omega
  | case2 u v rest alone ih =>
    rw [scalars,if_neg alone]
    show (units (scalar u) ++ utf16 (scalars (v :: rest))).length = _
    rw [length_append,one,ih]
    simp only [length_cons]
    omega
  | case3 u =>
    show (units (scalar u) ++ []).length = _
    rw [append_nil,one]
    rfl
  | case4 => rfl

end Js
