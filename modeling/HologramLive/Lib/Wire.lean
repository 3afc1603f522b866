import Mathlib
namespace Wire
variable {ε α β : Type}

abbrev Reader (ε α : Type) := StateT (List UInt8) (Except ε) α

def toBe : Nat → Nat → List UInt8
  | 0,_ => []
  | width+1,n => toBe width (n/256) ++ [UInt8.ofNat (n%256)]

variable (bytes : List UInt8)

def ofBe : Nat := bytes.foldl (fun n byte => n*256+byte.toNat) 0

def take (truncated : ε) (length : Nat) : Reader ε (List UInt8) := fun input =>
  if length ≤ input.length then .ok (input.take length,input.drop length) else .error truncated

def uint (truncated : ε) (width : Nat) : Reader ε Nat := do
  let bytes ← take truncated width
  return ofBe bytes

def refuse (bad : Prop) [Decidable bad] (e : ε) : Reader ε Unit := if bad then throw e else pure ()

@[simp] theorem length_toBe (width n : Nat) : (toBe width n).length = width := by
  induction width generalizing n with
  | zero => rfl
  | succ width ih => simp [toBe,ih]

theorem ofBe_snoc (byte : UInt8) : ofBe (bytes ++ [byte]) = ofBe bytes*256+byte.toNat := by
  simp [ofBe]

open List

theorem ofBe_lt : ofBe bytes < 256^bytes.length := by
  induction bytes using reverseRecOn with
  | nil => decide
  | append_singleton bytes byte ih =>
    have small := byte.toNat_lt
    rw [ofBe_snoc,length_append,length_singleton,Nat.pow_succ]
    omega

theorem ofBe_toBe (width n : Nat) (fits : n < 256^width) : ofBe (toBe width n) = n := by
  induction width generalizing n with
  | zero => simp only [Nat.pow_zero] at fits; simp only [toBe,ofBe,foldl_nil]; omega
  | succ width ih =>
    have rest : n/256 < 256^width := by rw [Nat.pow_succ] at fits; omega
    rw [toBe,ofBe_snoc,ih _ rest,UInt8.toNat_ofNat',Nat.mod_eq_of_lt (by omega : n%256 < 2^8)]
    omega

theorem toBe_ofBe : toBe bytes.length (ofBe bytes) = bytes := by
  induction bytes using reverseRecOn with
  | nil => rfl
  | append_singleton bytes byte ih =>
    have small := byte.toNat_lt
    have high : (ofBe bytes*256+byte.toNat)/256 = ofBe bytes := by omega
    have low : (ofBe bytes*256+byte.toNat)%256 = byte.toNat := by omega
    rw [ofBe_snoc,length_append,length_singleton,toBe,high,low,ih,UInt8.ofNat_toNat]

variable {input rest : List UInt8}

theorem bind_read {read : Reader ε α} {next : α → Reader ε β} {b : β} :
    (read >>= next) input = .ok (b,rest) ↔ ∃ a mid, read input = .ok (a,mid) ∧ next a mid = .ok (b,rest) := by
  cases ran : read input with
  | error e => simp [bind,StateT.bind,Except.bind,ran]
  | ok out => obtain ⟨a,mid⟩ := out; simp [bind,StateT.bind,Except.bind,ran]

theorem pure_ok : (pure a : Reader ε α) input = .ok (b,rest) ↔ a = b ∧ input = rest := by
  simp [pure,StateT.pure,Except.pure]

theorem refuse_ok {bad : Prop} [Decidable bad] : refuse bad e input = .ok (u,rest) ↔ ¬bad ∧ input = rest := by
  unfold refuse
  split
  · rename_i holds; simp [throw,throwThe,MonadExceptOf.throw,StateT.lift,bind,Except.bind,holds]
  · rename_i fails; simp [pure,StateT.pure,Except.pure,fails]

theorem take_ok {length : Nat} :
    take e length input = .ok (value,rest) ↔ value.length = length ∧ input = value ++ rest := by
  unfold take
  constructor
  · intro taken
    split at taken
    · rename_i long
      cases taken
      exact ⟨length_take_of_le long,(take_append_drop length input).symm⟩
    · cases taken
  · intro ⟨exact,joined⟩
    subst exact joined
    simp

theorem uint_ok : uint e width input = .ok (n,rest) ↔ n < 256^width ∧ input = toBe width n ++ rest := by
  unfold uint
  rw [bind_read]
  constructor
  · rintro ⟨bytes,mid,taken,same⟩
    obtain ⟨long,joined⟩ := take_ok.mp taken
    obtain ⟨rfl,rfl⟩ := pure_ok.mp same
    subst long
    exact ⟨ofBe_lt bytes,by rw [toBe_ofBe,joined]⟩
  · rintro ⟨fits,joined⟩
    exact ⟨toBe width n,rest,take_ok.mpr ⟨length_toBe width n,joined⟩,
      pure_ok.mpr ⟨ofBe_toBe width n fits,rfl⟩⟩

end Wire
