import Mathlib
namespace Expressions
open RegularExpression Language List

section Letters
variable {α : Type}

def oneOf (letters : List α) : RegularExpression α := (letters.map char).foldr (· + ·) 0
def repeated (r : RegularExpression α) : RegularExpression α := r * r.star
def upTo (n : Nat) (r : RegularExpression α) : RegularExpression α := (1 + r) ^ n
def word (letters : List α) : RegularExpression α := (letters.map char).foldr (· * ·) 1

def fromTo (low high : Char) : List Char := (range (high.toNat+1-low.toNat)).map fun i => Char.ofNat (low.toNat+i)

variable {letters w : List α} {r s : RegularExpression α}

theorem mem_mul : w ∈ (r * s).matches' ↔ ∃ a b,w = a ++ b ∧ a ∈ r.matches' ∧ b ∈ s.matches' := by
  rw [matches'_mul,Language.mem_mul]
  constructor
  · rintro ⟨a,first,b,second,rfl⟩
    exact ⟨a,b,rfl,first,second⟩
  · rintro ⟨a,b,rfl,first,second⟩
    exact ⟨a,first,b,second,rfl⟩

theorem mem_add : w ∈ (r + s).matches' ↔ w ∈ r.matches' ∨ w ∈ s.matches' := by
  rw [matches'_add]
  exact Language.mem_add _ _ _

theorem mem_char : w ∈ (char a).matches' ↔ w = [a] := by
  rw [matches'_char]
  exact Set.mem_singleton_iff

theorem mem_one : w ∈ (1 : RegularExpression α).matches' ↔ w = [] := by
  rw [matches'_epsilon]
  exact Language.mem_one w

theorem mem_oneOf : w ∈ (oneOf letters).matches' ↔ ∃ a ∈ letters,w = [a] := by
  induction letters with
  | nil =>
    refine ⟨fun member => ?_,fun ⟨a,member,_⟩ => (by cases member)⟩
    exact absurd member (notMem_zero w)
  | cons a rest ih =>
    show w ∈ (char a + oneOf rest).matches' ↔ _
    rw [mem_add,mem_char,ih]
    simp

theorem mem_word : w ∈ (word letters).matches' ↔ w = letters := by
  induction letters generalizing w with
  | nil => exact mem_one
  | cons a rest ih =>
    show w ∈ (char a * word rest).matches' ↔ _
    rw [mem_mul]
    constructor
    · rintro ⟨first,later,rfl,head,tail⟩
      rw [mem_char.mp head,ih.mp tail]
      rfl
    · rintro rfl
      exact ⟨[a],rest,rfl,mem_char.mpr rfl,ih.mpr rfl⟩

theorem mem_star : w ∈ r.star.matches' ↔ w = [] ∨ ∃ a b,w = a ++ b ∧ a ≠ [] ∧ a ∈ r.matches' ∧ b ∈ r.star.matches' := by
  rw [matches'_star]
  constructor
  · intro member
    obtain ⟨words,rfl,each⟩ := mem_kstar_iff_exists_nonempty.mp member
    cases words with
    | nil => exact .inl rfl
    | cons first rest =>
      obtain ⟨good,others⟩ := forall_mem_cons.mp each
      exact .inr ⟨first,rest.flatten,rfl,good.2,good.1,join_mem_kstar fun y member => (others y member).1⟩
  · rintro (rfl | ⟨a,b,rfl,_,first,later⟩)
    · exact nil_mem_kstar _
    · obtain ⟨words,rfl,each⟩ := mem_kstar.mp later
      exact join_mem_kstar (forall_mem_cons.mpr ⟨first,each⟩)

theorem mem_star_oneOf : w ∈ (oneOf letters).star.matches' ↔ ∀ a ∈ w,a ∈ letters := by
  induction w with
  | nil => exact ⟨fun _ a member => (by cases member),fun _ => mem_star.mpr (.inl rfl)⟩
  | cons a rest ih =>
    rw [mem_star,forall_mem_cons,←ih]
    constructor
    · rintro (none | ⟨first,later,shape,_,one,more⟩)
      · cases none
      · obtain ⟨b,listed,rfl⟩ := mem_oneOf.mp one
        cases shape; exact ⟨listed,more⟩
    · rintro ⟨listed,more⟩
      exact .inr ⟨[a],rest,rfl,by simp,mem_oneOf.mpr ⟨a,listed,rfl⟩,more⟩

theorem mem_repeated_oneOf : w ∈ (repeated (oneOf letters)).matches' ↔ w ≠ [] ∧ ∀ a ∈ w,a ∈ letters := by
  unfold repeated
  rw [mem_mul]
  constructor
  · rintro ⟨first,later,rfl,one,more⟩
    obtain ⟨a,listed,rfl⟩ := mem_oneOf.mp one
    exact ⟨by simp,forall_mem_cons.mpr ⟨listed,mem_star_oneOf.mp more⟩⟩
  · rintro ⟨full,each⟩
    cases w with
    | nil => exact absurd rfl full
    | cons a rest =>
      obtain ⟨listed,others⟩ := forall_mem_cons.mp each
      exact ⟨[a],rest,rfl,mem_oneOf.mpr ⟨a,listed,rfl⟩,mem_star_oneOf.mpr others⟩

theorem mem_pow_succ {n : Nat} : w ∈ (r ^ (n+1)).matches' ↔ w ∈ (r ^ n * r).matches' := by
  rw [matches'_pow,matches'_mul,matches'_pow,pow_succ]

theorem mem_pow_zero : w ∈ (r ^ 0).matches' ↔ w = [] := by
  rw [matches'_pow,pow_zero]
  exact Language.mem_one w

theorem mem_pow_oneOf : w ∈ (oneOf letters ^ n).matches' ↔ w.length = n ∧ ∀ a ∈ w,a ∈ letters := by
  induction n generalizing w with
  | zero =>
    rw [mem_pow_zero,length_eq_zero_iff]
    exact ⟨fun empty => ⟨empty,by simp [empty]⟩,And.left⟩
  | succ n ih =>
    rw [mem_pow_succ,mem_mul]
    constructor
    · rintro ⟨front,last,rfl,many,one⟩
      obtain ⟨length,each⟩ := ih.mp many
      obtain ⟨a,listed,rfl⟩ := mem_oneOf.mp one
      refine ⟨by simp [length],fun b member => ?_⟩
      rcases mem_append.mp member with old | new
      · exact each b old
      · rw [mem_singleton.mp new]; exact listed
    · rintro ⟨length,each⟩
      have full : w ≠ [] := by
        rintro rfl
        cases length
      refine ⟨w.dropLast,[w.getLast full],(dropLast_append_getLast full).symm,ih.mpr ⟨by simp [length],fun a member => ?_⟩,
        mem_oneOf.mpr ⟨_,each _ (getLast_mem full),rfl⟩⟩
      exact each a (mem_of_mem_dropLast member)

theorem mem_upTo_oneOf : w ∈ (upTo n (oneOf letters)).matches' ↔ w.length ≤ n ∧ ∀ a ∈ w,a ∈ letters := by
  unfold upTo
  induction n generalizing w with
  | zero =>
    rw [mem_pow_zero,Nat.le_zero,length_eq_zero_iff]
    exact ⟨fun empty => ⟨empty,by simp [empty]⟩,And.left⟩
  | succ n ih =>
    rw [mem_pow_succ,mem_mul]
    constructor
    · rintro ⟨front,last,rfl,many,one⟩
      obtain ⟨length,each⟩ := ih.mp many
      rcases mem_add.mp one with none | one
      · rw [mem_one.mp none,append_nil]; exact ⟨Nat.le_succ_of_le length,each⟩
      · obtain ⟨a,listed,rfl⟩ := mem_oneOf.mp one
        refine ⟨by simp [length],fun b member => ?_⟩
        rcases mem_append.mp member with old | new
        · exact each b old
        · rw [mem_singleton.mp new]; exact listed
    · rintro ⟨length,each⟩
      rcases eq_nil_or_concat w with rfl | ⟨front,a,rfl⟩
      · exact ⟨[],[],rfl,ih.mpr ⟨Nat.zero_le _,by simp⟩,mem_add.mpr (.inl (mem_one.mpr rfl))⟩
      · rw [concat_eq_append] at length each ⊢
        refine ⟨front,[a],rfl,ih.mpr ⟨by simpa using length,fun b member => each b (mem_append_left _ member)⟩,?_⟩
        exact mem_add.mpr (.inr (mem_oneOf.mpr ⟨a,each a (mem_append_right _ mem_cons_self),rfl⟩))

end Letters

theorem toNat_ofNat (plain : n < 0xd800) : (Char.ofNat n).toNat = n := by
  have valid : n.isValidChar := .inl plain
  unfold Char.ofNat
  rw [dif_pos valid]
  rfl

theorem mem_fromTo (plain : high.toNat < 0xd800) : c ∈ fromTo low high ↔ low ≤ c ∧ c ≤ high := by
  have order (a b : Char) : a ≤ b ↔ a.toNat ≤ b.toNat := UInt32.le_iff_toNat_le
  rw [order,order]
  unfold fromTo
  rw [mem_map]
  constructor
  · rintro ⟨i,among,rfl⟩
    rw [mem_range] at among
    have value : (Char.ofNat (low.toNat+i)).toNat = low.toNat+i := toNat_ofNat (by omega)
    omega
  · rintro ⟨above,below⟩
    refine ⟨c.toNat-low.toNat,mem_range.mpr (by omega),?_⟩
    rw [show low.toNat+(c.toNat-low.toNat) = c.toNat by omega]
    exact Char.ofNat_toNat c

theorem mem_splitOn {α : Type} [DecidableEq α] {separator c : α} {text : List α} (member : c ∈ text) (other : c ≠ separator) :
    ∃ part ∈ text.splitOn separator,c ∈ part := by
  induction text with
  | nil => cases member
  | cons first rest ih =>
    rw [splitOn_cons_eq_if_modifyHead]
    split
    · rename_i same
      rcases mem_cons.mp member with rfl | later
      · exact absurd (eq_of_beq same) other
      · obtain ⟨part,among,inside⟩ := ih later
        exact ⟨part,mem_cons_of_mem _ among,inside⟩
    · cases shape : rest.splitOn separator with
      | nil => exact absurd shape (splitOn_ne_nil _ _)
      | cons head tail =>
        rw [shape] at ih
        rcases mem_cons.mp member with rfl | later
        · exact ⟨c :: head,by simp,by simp⟩
        · obtain ⟨part,among,inside⟩ := ih later
          rcases mem_cons.mp among with rfl | deeper
          · exact ⟨first :: part,by simp,mem_cons_of_mem _ inside⟩
          · exact ⟨part,by simp [deeper],inside⟩

theorem mem_separated {α : Type} [DecidableEq α] {part : RegularExpression α} {separator : α} {w : List α}
    (apart : ∀ v ∈ part.matches',separator ∉ v) :
    w ∈ (part * (char separator * part).star).matches' ↔ ∀ v ∈ w.splitOn separator,v ∈ part.matches' := by
  have tail : ∀ n (w : List α),w.length ≤ n → (w ∈ (char separator * part).star.matches' ↔
      w = [] ∨ ∃ rest,w = separator :: rest ∧ ∀ v ∈ rest.splitOn separator,v ∈ part.matches') := by
    intro n
    induction n with
    | zero =>
      intro w short
      rw [length_eq_zero_iff.mp (Nat.le_zero.mp short)]
      exact ⟨fun _ => .inl rfl,fun _ => mem_star.mpr (.inl rfl)⟩
    | succ n ih =>
      intro w short
      rw [mem_star]
      constructor
      · rintro (empty | ⟨front,later,rfl,_,one,more⟩)
        · exact .inl empty
        · obtain ⟨mark,v,rfl,first,good⟩ := mem_mul.mp one
          cases mem_char.mp first
          have shorter : later.length ≤ n := by
            simp only [length_append,length_cons] at short; omega
          refine .inr ⟨v ++ later,rfl,?_⟩
          rcases (ih later shorter).mp more with rfl | ⟨rest,rfl,each⟩
          · rw [append_nil,splitOn_eq_singleton (apart v good)]; exact forall_mem_singleton.mpr good
          · rw [splitOn_append_cons_self,splitOn_eq_singleton (apart v good)]
            exact forall_mem_cons.mpr ⟨good,each⟩
      · rintro (empty | ⟨rest,rfl,each⟩)
        · exact .inl empty
        · have bound : rest.length ≤ n := by simpa using short
          by_cases inside : separator ∈ rest
          · obtain ⟨v,later,rfl,fresh⟩ := eq_append_cons_of_mem inside
            rw [splitOn_append_cons_self,splitOn_eq_singleton fresh] at each
            obtain ⟨good,others⟩ := forall_mem_cons.mp each
            refine .inr ⟨separator :: v,separator :: later,rfl,by simp,mem_mul.mpr ⟨[separator],v,rfl,mem_char.mpr rfl,good⟩,?_⟩
            refine (ih _ ?_).mpr (.inr ⟨later,rfl,others⟩)
            simp only [length_append,length_cons] at bound ⊢; omega
          · rw [splitOn_eq_singleton inside,forall_mem_singleton] at each
            exact .inr ⟨separator :: rest,[],(append_nil _).symm,by simp,
              mem_mul.mpr ⟨[separator],rest,rfl,mem_char.mpr rfl,each⟩,mem_star.mpr (.inl rfl)⟩
  rw [mem_mul]
  constructor
  · rintro ⟨v,later,rfl,good,more⟩
    rcases (tail _ later (Nat.le_refl _)).mp more with rfl | ⟨rest,rfl,each⟩
    · rw [append_nil,splitOn_eq_singleton (apart v good)]
      exact forall_mem_singleton.mpr good
    · rw [splitOn_append_cons_self,splitOn_eq_singleton (apart v good)]
      exact forall_mem_cons.mpr ⟨good,each⟩
  · intro each
    by_cases inside : separator ∈ w
    · obtain ⟨v,later,rfl,fresh⟩ := eq_append_cons_of_mem inside
      rw [splitOn_append_cons_self,splitOn_eq_singleton fresh] at each
      obtain ⟨good,others⟩ := forall_mem_cons.mp each
      exact ⟨v,separator :: later,rfl,good,(tail _ _ (Nat.le_refl _)).mpr (.inr ⟨later,rfl,others⟩)⟩
    · rw [splitOn_eq_singleton inside,forall_mem_singleton] at each
      exact ⟨w,[],(append_nil _).symm,each,mem_star.mpr (.inl rfl)⟩

end Expressions
