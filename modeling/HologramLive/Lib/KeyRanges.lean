import HologramLive.Lib.Tables
namespace KeyRanges
open Std Tables List

section Letters
variable {α : Type} [Ord α] [TransOrd α] [LawfulEqOrd α] {low high : α}

structure Adjacent (low high : α) : Prop where
  first : ∀ a,a ≠ low → compare low a = .lt
  second : ∀ a,compare a high = .lt ↔ a = low

omit [LawfulEqOrd α] in
theorem Adjacent.below (adjacent : Adjacent low high) (other : a ≠ low) : compare a low = .gt :=
  OrientedCmp.gt_iff_lt.mpr (adjacent.first a other)

theorem within_part (adjacent : Adjacent low high) (part key : List α) :
    (compare (part ++ [low]) key ≠ .gt ∧ compare key (part ++ [high]) = .lt) ↔ ∃ rest,key = part ++ low :: rest := by
  induction part generalizing key with
  | nil =>
    cases key with
    | nil => simp
    | cons c rest =>
      simp only [nil_append,List.compare_cons_cons,List.cons.injEq]
      by_cases same : c = low
      · subst same
        have below : compare c high = .lt := (adjacent.second c).mpr rfl
        have reached : (compare ([] : List α) rest) ≠ .gt := by
          cases rest <;> simp
        simp [below,compare_self,reached]
      · have above : ¬ compare c high = .lt := fun below => same ((adjacent.second c).mp below)
        have after : (compare rest ([] : List α)) ≠ .lt := by
          cases rest <;> simp
        simp only [same,false_and,exists_false,iff_false,not_and]; intro _ ends
        rcases Ordering.then_eq_lt.mp ends with below | ⟨_,below⟩
        · exact above below
        · exact after below
  | cons a part ih =>
    cases key with
    | nil => simp
    | cons c rest =>
      simp only [cons_append,List.compare_cons_cons,List.cons.injEq]
      by_cases same : c = a
      · subst same; simp only [compare_self,true_and]
        exact ih rest
      · simp only [same,false_and,exists_false,iff_false,not_and]; intro starts ends
        have differ : compare a c ≠ .eq := fun equal => same (LawfulEqOrd.eq_of_compare equal).symm
        cases order : compare a c with
        | eq => exact differ order
        | gt => simp [order] at starts
        | lt =>
          have back : compare c a = .gt := OrientedCmp.gt_iff_lt.mpr order
          simp [back] at ends

theorem compare_joined (adjacent : Adjacent low high) (one : low ∉ left) (two : low ∉ right)
    (a b : List α) : compare (left ++ low :: a) (right ++ low :: b) = (compare left right).then (compare a b) := by
  induction left generalizing right with
  | nil =>
    cases right with
    | nil => simp [List.compare_cons_cons,compare_self]
    | cons c rest =>
      have other : c ≠ low := fun same => two (by simp [same])
      have order := adjacent.first c other
      simp [List.compare_cons_cons,order]
  | cons d left ih =>
    have apart : d ≠ low := fun same => one (by simp [same])
    cases right with
    | nil =>
      have order := adjacent.below apart
      simp [List.compare_cons_cons,order]
    | cons c rest =>
      have inner := @ih rest (fun member => one (mem_cons_of_mem _ member)) (fun member => two (mem_cons_of_mem _ member))
      simp only [cons_append,List.compare_cons_cons,inner,Ordering.then_assoc]

end Letters

section Scans
variable {κ τ ν : Type} [Ord κ] [TransOrd κ] [LawfulEqOrd κ] [Ord τ] [TransOrd τ] [LawfulEqOrd τ]

inductive Bound (τ : Type) where
  | included (key : τ)
  | excluded (key : τ)
  | unbounded

def Bound.opens : Bound τ → τ → Bool
  | .included start,key => compare start key != .gt
  | .excluded start,key => compare start key == .lt
  | .unbounded,_ => true
def Bound.closes : Bound τ → τ → Bool
  | .included last,key => compare key last != .gt
  | .excluded last,key => compare key last == .lt
  | .unbounded,_ => true

def range (table : Table τ ν) (start last : Bound τ) : List (τ × ν) :=
  table.toList.filter fun row => start.opens row.1 && last.closes row.1

-- Keys written so that their order is kept.
structure Spelling (spell : κ → τ) : Prop where
  ordered : ∀ a b,compare (spell a) (spell b) = compare a b

omit [TransOrd κ] [TransOrd τ] in
theorem Spelling.injective {spell : κ → τ} (spelling : Spelling spell) : Function.Injective spell := fun a b same => by
  refine LawfulEqOrd.eq_of_compare ?_
  rw [←spelling.ordered,same]
  exact compare_self

structure Spells (spell : κ → τ) (raw : Table τ ν) (table : Table κ ν) : Prop where
  kept : ∀ k,raw[spell k]? = table[k]?
  written : ∀ key v,raw[key]? = some v → ∃ k,key = spell k

variable {spell : κ → τ} {raw : Table τ ν} {table : Table κ ν}

omit [LawfulEqOrd κ] [LawfulEqOrd τ] in
theorem Spells.empty : Spells spell (∅ : Table τ ν) (∅ : Table κ ν) := ⟨fun k => by simp,fun key v found => by simp at found⟩

theorem Spells.insert [DecidableEq κ] [DecidableEq τ] (spelling : Spelling spell) (spells : Spells spell raw table) (k : κ)
    (v : ν) : Spells spell (raw.insert (spell k) v) (table.insert k v) := by
  refine ⟨fun other => ?_,fun key value found => ?_⟩
  · simp only [get_insert,spells.kept,spelling.injective.eq_iff]
  · rw [get_insert] at found
    split at found
    · rename_i same; exact ⟨k,same.symm⟩
    · exact spells.written key value found

theorem Spells.erase [DecidableEq κ] [DecidableEq τ] (spelling : Spelling spell) (spells : Spells spell raw table) (k : κ) :
    Spells spell (raw.erase (spell k)) (table.erase k) := by
  refine ⟨fun other => ?_,fun key value found => ?_⟩
  · simp only [get_erase,spells.kept,spelling.injective.eq_iff]
  · rw [get_erase] at found
    split at found
    · cases found
    · exact spells.written key value found

theorem Spells.eraseWhere [DecidableEq κ] [DecidableEq τ] (spells : Spells spell raw table) (same : ∀ k,gone (spell k) = dropped k) :
    Spells spell (Tables.eraseWhere raw gone) (Tables.eraseWhere table dropped) := by
  refine ⟨fun other => ?_,fun key value found => ?_⟩
  · rw [get_eraseWhere,get_eraseWhere,spells.kept,same]
  · rw [get_eraseWhere] at found
    split at found
    · cases found
    · exact spells.written key value found

theorem Spells.rows (spelling : Spelling spell) (spells : Spells spell raw table) :
    raw.toList = table.toList.map fun row => (spell row.1,row.2) := by
  have left : raw.toList.Pairwise fun a b => compare a.1 b.1 = .lt := ExtTreeMap.ordered_keys_toList
  have right : (table.toList.map fun row => (spell row.1,row.2)).Pairwise fun a b => compare a.1 b.1 = .lt := by
    rw [pairwise_map]
    refine ExtTreeMap.ordered_keys_toList.imp fun {a b} before => ?_
    rw [spelling.ordered]
    exact before
  have distinct {rows : List (τ × ν)} (sorted : rows.Pairwise fun a b => compare a.1 b.1 = .lt) : rows.Nodup := by
    refine sorted.imp fun {a b} before => ?_
    intro equal
    subst equal
    simp [compare_self] at before
  have members (row : τ × ν) : row ∈ raw.toList ↔ row ∈ table.toList.map fun row => (spell row.1,row.2) := by
    obtain ⟨key,value⟩ := row
    rw [mem_rows,mem_map]
    constructor
    · intro found
      obtain ⟨k,rfl⟩ := spells.written key value found
      exact ⟨(k,value),mem_rows.mpr ((spells.kept k).symm.trans found),rfl⟩
    · rintro ⟨⟨k,v⟩,listed,shape⟩
      obtain ⟨rfl,rfl⟩ := Prod.mk.inj shape
      exact (spells.kept k).trans (mem_rows.mp listed)
  have permuted := (perm_ext_iff_of_nodup (distinct left) (distinct right)).mpr members
  refine permuted.eq_of_pairwise (fun a b _ _ before after => ?_) left right
  have around : compare a.1 a.1 = .lt := TransCmp.lt_trans before after
  simp [compare_self] at around

theorem Spells.range (spelling : Spelling spell) (spells : Spells spell raw table) (start last : Bound τ) :
    range raw start last = (table.toList.filter fun row => start.opens (spell row.1) && last.closes (spell row.1)).map
        fun row => (spell row.1,row.2) := by
  rw [KeyRanges.range,spells.rows spelling,filter_map]
  rfl

omit [TransOrd κ] [LawfulEqOrd κ] [Ord κ] in
theorem eraseRange [DecidableEq τ] (raw : Table τ ν) (start last : Bound τ) (fits : τ → Bool) :
    eraseKeys raw (((range raw start last).filter fun row => fits row.1).map (·.1)) =
      eraseWhere raw fun key => start.opens key && last.closes key && fits key := by
  refine table_ext fun key => ?_
  rw [get_eraseKeys,get_eraseWhere]
  have collected : key ∈ ((range raw start last).filter fun row => fits row.1).map (·.1) ↔
      (start.opens key && last.closes key && fits key) = true ∧ ∃ v,raw[key]? = some v := by
    simp only [range,filter_filter,mem_map,mem_filter,Prod.exists,mem_rows,exists_and_right,exists_eq_right]
    grind
  cases found : raw[key]? with
  | none => simp
  | some v =>
    refine if_congr (collected.trans ?_) rfl rfl
    simp [found]

end Scans

section Composite
variable {α β τ ν : Type} [Ord α] [TransOrd α] [LawfulEqOrd α] [DecidableEq α] [Ord β] [TransOrd β] [LawfulEqOrd β]
  [Ord τ] [TransOrd τ] [LawfulEqOrd τ] {spell : α × β → τ} {raw : Table τ ν} {table : Table (α × β) ν}

theorem Spells.under (spelling : Spelling spell) (spells : Spells spell raw table) (part : α) (start last : Bound τ)
    (keep : β → Bool) (asks : ∀ k,(start.opens (spell k) && last.closes (spell k)) = (decide (k.1 = part) && keep k.2)) :
    KeyRanges.range raw start last =
      ((rowsUnder table part).filter fun row => keep row.1).map fun row => (spell (part,row.1),row.2) := by
  rw [spells.range spelling,rowsUnder,filter_map,map_map,filter_filter]
  have same : (fun row : (α × β) × ν => start.opens (spell row.1) && last.closes (spell row.1)) =
      fun row => ((fun row : β × ν => keep row.1) ∘ fun row : (α × β) × ν => (row.1.2,row.2)) row && decide (row.1.1 = part) := by
    funext row
    rw [asks,Bool.and_comm]
    rfl
  rw [same]
  refine map_congr_left fun row listed => ?_
  obtain ⟨⟨first,rest⟩,value⟩ := row
  have fits := (mem_filter.mp listed).2
  obtain ⟨_,starts⟩ := Bool.and_eq_true_iff.mp fits
  have here : first = part := of_decide_eq_true starts
  rw [here]
  rfl

end Composite
end KeyRanges
