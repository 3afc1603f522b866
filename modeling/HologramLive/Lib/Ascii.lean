import Mathlib
namespace Ascii

-- A character below 128 is one byte, and no byte of a longer character is below it.
theorem spelled {c : Char} (small : c.toNat < 128) : String.utf8EncodeChar c = [UInt8.ofNat c.toNat] := by
  have size : c.utf8Size = 1 := by
    unfold Char.utf8Size
    change c.val.toNat < 128 at small
    rw [if_pos (UInt32.le_iff_toNat_le.mpr (show c.val.toNat ≤ 127 by omega))]
  rw [String.utf8EncodeChar_eq_singleton size]
  rfl

theorem high_byte (n part base : Nat) (positive : 0 < part) (low : 128 ≤ base) (bound : part+base ≤ 256) :
    128 ≤ (UInt8.ofNat (n % part+base)).toNat := by
  have small := Nat.mod_lt n positive
  rw [UInt8.toNat_ofNat',Nat.mod_eq_of_lt (by omega)]
  omega

open List

theorem small_byte (small : b.toNat < 128) (member : b ∈ String.utf8EncodeChar c) : c.toNat = b.toNat := by
  unfold String.utf8EncodeChar at member
  simp only at member
  split at member
  · rename_i ascii
    rw [mem_singleton] at member
    rw [member,UInt8.toNat_ofNat']
    change c.toNat = c.toNat % 256
    change c.toNat ≤ 127 at ascii
    omega
  · have high : ∀ n part base : Nat,0 < part → 128 ≤ base → part+base ≤ 256 → b ≠ UInt8.ofNat (n % part+base) := by
      intro n part base positive low bound same
      have large := high_byte n part base positive low bound
      rw [←same] at large
      omega
    split at member
    · simp only [mem_cons,not_mem_nil,or_false] at member
      rcases member with same | same
      all_goals exact (high _ _ _ (by decide) (by decide) (by decide) same).elim
    split at member
    · simp only [mem_cons,not_mem_nil,or_false] at member
      rcases member with same | same | same
      all_goals exact (high _ _ _ (by decide) (by decide) (by decide) same).elim
    · simp only [mem_cons,not_mem_nil,or_false] at member
      rcases member with same | same | same | same
      all_goals exact (high _ _ _ (by decide) (by decide) (by decide) same).elim

theorem count_byte (small : c.toNat < 128) (text : List Char) :
    (text.flatMap String.utf8EncodeChar).count (UInt8.ofNat c.toNat) = text.count c := by
  induction text with
  | nil => rfl
  | cons first rest ih =>
    rw [flatMap_cons,count_append,ih,count_cons]
    by_cases same : first = c
    · rw [same,spelled small,count_singleton_self,if_pos (beq_self_eq_true c)]
      exact Nat.add_comm _ _
    · rw [if_neg (by simpa using same),Nat.add_zero,count_eq_zero.mpr,Nat.zero_add]
      intro member
      have value : (UInt8.ofNat c.toNat).toNat = c.toNat := by
        rw [UInt8.toNat_ofNat',Nat.mod_eq_of_lt (by omega)]
      have equal := small_byte (by rw [value]; exact small) member
      exact same (Char.toNat_inj.mp (equal.trans value))

end Ascii
