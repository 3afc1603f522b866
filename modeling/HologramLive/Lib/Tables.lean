import Mathlib
namespace Tables
open Std List
variable {κ ν : Type} [Ord κ] [TransOrd κ] [LawfulEqOrd κ]

-- Composite keys are ordered part by part.
instance ordProd {α β : Type} [Ord α] [Ord β] : Ord (α × β) := lexOrd
instance ordPair : TransOrd (List Char × List Char) := inferInstance
instance ordLists : TransOrd (List (List Char)) := inferInstance
instance ordBytes : TransOrd (List (List UInt8)) := inferInstance
instance lawfulText : LawfulBEq (List Char) := inferInstance

-- An ordered key-value table. Rows come out in key order, and two tables with
-- the same rows are equal.
abbrev Table (κ ν : Type) [Ord κ] := ExtTreeMap κ ν compare
abbrev KeySet (κ : Type) [Ord κ] := ExtTreeSet κ compare

theorem get_insert [DecidableEq κ] (table : Table κ ν) (k a : κ) (v : ν) :
    (table.insert k v)[a]? = if k = a then some v else table[a]? := by
  rw [ExtTreeMap.getElem?_insert]
  simp only [Std.compare_eq_iff_eq]

theorem get_erase [DecidableEq κ] (table : Table κ ν) (k a : κ) :
    (table.erase k)[a]? = if k = a then none else table[a]? := by
  rw [ExtTreeMap.getElem?_erase]
  simp only [Std.compare_eq_iff_eq]

theorem table_ext {left right : Table κ ν} (same : ∀ k : κ, left[k]? = right[k]?) : left = right :=
  ExtTreeMap.ext_getElem? fun {k} => same k

theorem mem_rows {table : Table κ ν} : (k,v) ∈ table.toList ↔ table[k]? = some v :=
  ExtTreeMap.mem_toList_iff_getElem?_eq_some

theorem insert_same [DecidableEq κ] {table : Table κ ν} (present : table[k]? = some v) : table.insert k v = table := by
  refine table_ext fun a => ?_
  rw [get_insert]
  split
  · rename_i equal; rw [←equal,present]
  · rfl

def rowsUnder {α β : Type} [Ord α] [TransOrd α] [LawfulEqOrd α] [DecidableEq α] [Ord β] [TransOrd β] [LawfulEqOrd β]
    (table : Table (α × β) ν) (part : α) : List (β × ν) :=
  (table.toList.filter fun row => row.1.1 = part).map fun row => (row.1.2,row.2)

section Parts
variable {α β : Type} [Ord α] [TransOrd α] [LawfulEqOrd α] [DecidableEq α] [Ord β] [TransOrd β] [LawfulEqOrd β]

theorem mem_rowsUnder {table : Table (α × β) ν} {part : α} {rest : β} {v : ν} :
    (rest,v) ∈ rowsUnder table part ↔ table[(part,rest)]? = some v := by
  unfold rowsUnder
  rw [←mem_rows]
  constructor
  · intro member
    obtain ⟨row,among,shape⟩ := mem_map.mp member
    obtain ⟨found,starts⟩ := mem_filter.mp among
    obtain ⟨⟨first,second⟩,value⟩ := row
    simp only [Prod.mk.injEq] at shape
    have same : first = part := by simpa using starts
    rw [←same,←shape.1,←shape.2]
    exact found
  · intro member
    exact mem_map.mpr ⟨((part,rest),v),mem_filter.mpr ⟨member,by simp⟩,rfl⟩

theorem rowsUnder_sorted (table : Table (α × β) ν) (part : α) :
    (rowsUnder table part).Pairwise fun a b => (compare a.1 b.1 == .lt) = true := by
  unfold rowsUnder
  rw [pairwise_map,pairwise_filter]
  refine ExtTreeMap.ordered_keys_toList.imp fun {a b} ordered startsA startsB => ?_
  have left : a.1.1 = part := by simpa using startsA
  have right : b.1.1 = part := by simpa using startsB
  have reduced : compare a.1 b.1 = compare a.1.2 b.1.2 := by
    have first : compare a.1.1 b.1.1 = .eq := by rw [left,right]; exact ReflCmp.compare_self
    change (compare a.1.1 b.1.1).then (compare a.1.2 b.1.2) = _
    rw [first]; rfl
  rw [←reduced]
  simp [ordered]

end Parts

variable (table : Table κ ν)

-- Removal by a scan: the keys to remove are collected first, then removed one
-- by one, as a write transaction over a sorted table does it.
def eraseKeys (keys : List κ) : Table κ ν := keys.foldl (fun kept k => kept.erase k) table

theorem get_eraseKeys [DecidableEq κ] (keys : List κ) (table : Table κ ν) (a : κ) :
    (eraseKeys table keys)[a]? = if a ∈ keys then none else table[a]? := by
  induction keys generalizing table with
  | nil => simp [eraseKeys]
  | cons k rest ih =>
    have step : eraseKeys table (k :: rest) = eraseKeys (table.erase k) rest := rfl
    rw [step,ih,get_erase]
    grind

def insertKeys (keys : List κ) (v : ν) : Table κ ν := keys.foldl (fun grown k => grown.insert k v) table

theorem get_insertKeys [DecidableEq κ] (keys : List κ) (v : ν) (table : Table κ ν) (a : κ) :
    (insertKeys table keys v)[a]? = if a ∈ keys then some v else table[a]? := by
  induction keys generalizing table with
  | nil => simp [insertKeys]
  | cons k rest ih =>
    have step : insertKeys table (k :: rest) v = insertKeys (table.insert k v) rest v := rfl
    rw [step,ih,get_insert]
    grind

def eraseWhere (gone : κ → Bool) : Table κ ν := eraseKeys table (table.keys.filter gone)

theorem get_eraseWhere [DecidableEq κ] (table : Table κ ν) (gone : κ → Bool) (a : κ) :
    (eraseWhere table gone)[a]? = if gone a then none else table[a]? := by
  rw [eraseWhere,get_eraseKeys]
  by_cases present : a ∈ table
  · simp [present]
  · have absent : table[a]? = none := ExtTreeMap.getElem?_eq_none present
    simp [absent]

def eraseRows (gone : κ → ν → Bool) : Table κ ν :=
  eraseKeys table ((table.toList.filter fun row => gone row.1 row.2).map (·.1))

theorem get_eraseRows [DecidableEq κ] (table : Table κ ν) (gone : κ → ν → Bool) (a : κ) :
    (eraseRows table gone)[a]? = table[a]?.filter fun v => !gone a v := by
  rw [eraseRows,get_eraseKeys]
  have member : a ∈ (table.toList.filter fun row => gone row.1 row.2).map (·.1) ↔
      ∃ v, table[a]? = some v ∧ gone a v = true := by
    simp only [mem_map,mem_filter,Prod.exists,exists_and_right,exists_eq_right,mem_rows]
  simp only [member]
  cases row : table[a]? with
  | none => simp
  | some v => by_cases drop : gone a v <;> simp [drop,Option.filter]

-- Reading a sorted sequence page by page: each page starts after the last row
-- read so far, and a short page is the last one.
def drain {α : Type} (page : Option α → List α) (size : Nat) : Nat → List α → List α
  | 0,all => all
  | fuel + 1,all =>
    let got := page all.getLast?
    if got.length < size then all ++ got else drain page size fuel (all ++ got)

omit [LawfulEqOrd κ] in
theorem before_asymmetric {a b : κ} (ordered : (compare a b == .lt) = true) : (compare b a == .lt) = false := by
  have lt : compare a b = .lt := by simpa using ordered
  have gt : compare b a = .gt := OrientedCmp.gt_iff_lt.mpr lt
  simp [gt]

omit [TransOrd κ] in
theorem before_irreflexive (a : κ) : (compare a a == .lt) = false := by simp

section Drain
variable {α : Type} {before : α → α → Bool}

theorem after_last {rows : List α} (sorted : rows.Pairwise fun a b => before a b = true)
    (asymmetric : ∀ a b,before a b = true → before b a = false) (irreflexive : ∀ a,before a a = false) (count : Nat) :
    (rows.filter fun row => (rows.take count).getLast?.all fun last => before last row) = rows.drop count := by
  induction rows generalizing count with
  | nil => simp
  | cons row rest ih =>
    obtain ⟨first,ordered⟩ := pairwise_cons.mp sorted
    cases count with
    | zero => simp
    | succ count =>
      cases taken : (rest.take count).getLast? with
      | none =>
        have emptied : rest.take count = [] := getLast?_eq_none_iff.mp taken
        have whole : rest.drop count = rest := by
          rcases take_eq_nil_iff.mp emptied with rfl | rfl <;> simp
        have last : ((row :: rest).take (count + 1)).getLast? = some row := by simp [emptied]
        rw [last,filter_cons]
        simp only [Option.all_some,irreflexive,Bool.false_eq_true,if_false,drop_succ_cons,whole]
        exact filter_eq_self.mpr first
      | some last =>
        have member : last ∈ rest := mem_of_mem_take (mem_of_getLast? taken)
        have same : ((row :: rest).take (count + 1)).getLast? = some last := by
          rw [take_succ_cons,getLast?_cons,taken]; rfl
        have earlier := asymmetric row last (first last member)
        have later := ih ordered count
        rw [taken] at later; rw [same,filter_cons]
        simp only [Option.all_some,earlier,Bool.false_eq_true,if_false,drop_succ_cons] at later ⊢
        exact later

theorem drain_rows
    (sorted : rows.Pairwise fun a b => before a b = true) (asymmetric : ∀ a b,before a b = true → before b a = false)
    (irreflexive : ∀ a,before a a = false) (positive : 0 < size)
    (paged : ∀ after,page after = (rows.filter fun row => after.all fun last => before last row).take size) :
    ∀ fuel count,rows.length - count < fuel → drain page size fuel (rows.take count) = rows := by
  intro fuel
  induction fuel with
  | zero => intro count short; omega
  | succ fuel ih =>
    intro count short
    have got : page (rows.take count).getLast? = (rows.drop count).take size := by
      rw [paged,after_last sorted asymmetric irreflexive]
    have joined : rows.take count ++ (rows.drop count).take size = rows.take (count + size) := take_add.symm
    unfold drain
    simp only [got,joined]
    split
    · rename_i last
      rw [length_take,length_drop] at last
      exact take_of_length_le (by omega)
    · exact ih (count + size) (by
        rename_i full; rw [length_take,length_drop] at full
        omega)

end Drain

-- Two strictly sorted lists with the same members are one list.
omit [LawfulEqOrd κ] in
theorem sorted_ext {left right : List κ} (first : left.Pairwise fun a b => compare a b = .lt)
    (second : right.Pairwise fun a b => compare a b = .lt) (same : ∀ a,a ∈ left ↔ a ∈ right) : left = right := by
  have irreflexive (a : κ) : compare a a ≠ .lt := by simp [ReflCmp.compare_self]
  have distinct {list : List κ} (sorted : list.Pairwise fun a b => compare a b = .lt) : list.Nodup := by
    refine sorted.imp fun {a b} ordered => ?_
    intro equal
    subst equal
    exact irreflexive a ordered
  have permuted : left.Perm right := (perm_ext_iff_of_nodup (distinct first) (distinct second)).mpr same
  refine permuted.eq_of_pairwise (fun a b _ _ before after => ?_) first second
  exact absurd (TransCmp.lt_trans before after) (irreflexive a)

omit [TransOrd κ] in
theorem firsts_sorted [Ord ν] [ReflOrd ν] {rows : List (κ × ν)} (sorted : rows.Pairwise fun a b => compare a b = .lt)
    (single : ∀ a ∈ rows,∀ b ∈ rows,a.1 = b.1 → a = b) : (rows.map (·.1)).Pairwise fun a b => compare a b = .lt := by
  rw [pairwise_map]
  refine sorted.imp_of_mem fun {a b} here there ordered => ?_
  change (compare a.1 b.1).then (compare a.2 b.2) = .lt at ordered
  cases first : compare a.1 b.1 with
  | lt => rfl
  | gt => simp [first] at ordered
  | eq =>
    have equal := single a here b there (LawfulEqOrd.eq_of_compare first)
    subst equal
    simp [ReflCmp.compare_self] at ordered

-- A key type ordered through its text.
omit [TransOrd κ] in
theorem compareOn_lawful {α : Type} {f : α → κ} (injective : Function.Injective f) : LawfulEqCmp (compareOn f) where
  compare_self := compare_self
  eq_of_compare same := injective (LawfulEqOrd.eq_of_compare same)

end Tables
