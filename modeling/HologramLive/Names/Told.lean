import HologramLive.Names.History

namespace Names
open Js Tables List

theorem filter_get {ν : Type} (table : Table Text ν) (keep : Text → ν → Bool) (k : Text) :
    (table.filter keep)[k]? = table[k]?.filter (keep k) := by
  rw [Std.ExtTreeMap.getElem?_filter']

theorem empty_get {ν : Type} {table : Table Text ν} (empty : table.isEmpty = true) (k : Text) : table[k]? = none := by
  rw [Std.ExtTreeMap.isEmpty_iff.mp empty]
  simp

theorem some_get {ν : Type} {table : Table Text ν} (some_ : table.isEmpty = false) :
    ∃ (k : Text) (v : ν),table[k]? = some v := by
  by_contra none
  refine absurd (?_ : table.isEmpty = true) (by rw [some_]; decide)
  rw [Std.ExtTreeMap.isEmpty_iff]
  refine table_ext fun k => ?_
  cases found : table[k]? with
  | none => simp
  | some v => exact absurd ⟨k,v,found⟩ none

theorem get_some {ν : Type} {table : Table Text ν} {k : Text} {v : ν} (found : table[k]? = some v) :
    table.isEmpty = false := by
  cases empty : table.isEmpty with
  | false => rfl
  | true => rw [empty_get empty] at found; cases found

section Cons
variable (k : Nat) (n r : Text) (files : Files) (facts : Facts)

theorem observed_seen (who : Text) :
    observed ((k,.seen n r files) :: facts) who = if n = who then some r else observed facts who := by
  unfold observed
  rw [findSome?_cons]
  by_cases same : n = who <;> simp [same]

theorem digest_seen (who at_ path : Text) : digest ((k,.seen n r files) :: facts) who at_ path =
    if n = who ∧ r = at_ then files[path]?.or (digest facts who at_ path) else digest facts who at_ path := by
  unfold digest
  rw [findSome?_cons]
  by_cases same : n = who ∧ r = at_
  · simp only [if_pos same]
    cases files[path]? <;> rfl
  · simp only [if_neg same]

theorem lastIndex_seen (who at_ : Text) : lastIndex ((k,.seen n r files) :: facts) who at_ = lastIndex facts who at_ := by
  unfold lastIndex
  rw [findSome?_cons]

theorem filed_seen (who : Text) : filed ((k,.seen n r files) :: facts) who =
    if n = who ∧ files.isEmpty = false then some r else filed facts who := by
  unfold filed
  rw [findSome?_cons]
  by_cases same : n = who ∧ files.isEmpty = false
  · simp only [if_pos same]
  · simp only [if_neg same]

end Cons

section Told
variable (n m : Nat) (facts : Facts) (name revision : Text) (files : Files)

def freshOf : Files := files.filter fun path _ => (digest facts name revision path).isNone
def keptOf : Files := files.filter fun path _ => (digest facts name revision path).isSome

theorem fresh_or_kept (path : Text) (other : Option Text) :
    (freshOf facts name revision files)[path]?.or ((keptOf facts name revision files)[path]?.or other) =
      files[path]?.or other := by
  unfold freshOf keptOf
  rw [filter_get,filter_get]
  cases files[path]? with
  | none => rfl
  | some d => cases digest facts name revision path <;> rfl

theorem observed_told (who : Text) :
    observed (told n m facts name revision files) who = if name = who then some revision else observed facts who := by
  rw [told,observed_seen,observed_seen]
  split <;> rfl

theorem digest_told (who at_ path : Text) : digest (told n m facts name revision files) who at_ path =
    if name = who ∧ revision = at_ then files[path]?.or (digest facts who at_ path) else digest facts who at_ path := by
  rw [told,digest_seen,digest_seen]
  split
  · exact fresh_or_kept facts name revision files path _
  · rfl

theorem lastIndex_told (who at_ : Text) :
    lastIndex (told n m facts name revision files) who at_ = lastIndex facts who at_ := by
  rw [told,lastIndex_seen,lastIndex_seen]

theorem split_empty : files.isEmpty = true ↔
    (freshOf facts name revision files).isEmpty = true ∧ (keptOf facts name revision files).isEmpty = true := by
  constructor
  · intro empty
    constructor
    · rw [Std.ExtTreeMap.isEmpty_iff]
      refine table_ext fun path => ?_
      rw [freshOf,filter_get,empty_get empty]
      simp
    · rw [Std.ExtTreeMap.isEmpty_iff]
      refine table_ext fun path => ?_
      rw [keptOf,filter_get,empty_get empty]
      simp
  · rintro ⟨fresh,kept⟩
    rw [Std.ExtTreeMap.isEmpty_iff]
    refine table_ext fun path => ?_
    have both := fresh_or_kept facts name revision files path none
    rw [empty_get fresh,empty_get kept] at both
    simpa using both.symm

theorem filed_told (who : Text) : filed (told n m facts name revision files) who =
    if name = who ∧ files.isEmpty = false then some revision else filed facts who := by
  have whole := split_empty facts name revision files
  rw [told,filed_seen,filed_seen]
  show (if name = who ∧ (freshOf facts name revision files).isEmpty = false then some revision
    else if name = who ∧ (keptOf facts name revision files).isEmpty = false then some revision else filed facts who) = _
  cases fresh : (freshOf facts name revision files).isEmpty <;> cases kept : (keptOf facts name revision files).isEmpty <;>
    cases all : files.isEmpty <;> simp_all

theorem known_told (who at_ : Text) : known (told n m facts name revision files) who at_ ≠ [] ↔
    name = who ∧ revision = at_ ∧ files.isEmpty = false ∨ known facts who at_ ≠ [] := by
  have some_ (facts : Facts) (who at_ : Text) : known facts who at_ ≠ [] ↔ ∃ path,(digest facts who at_ path).isSome = true := by
    constructor
    · intro filled
      obtain ⟨path,member⟩ := exists_mem_of_ne_nil _ filled
      exact ⟨path,known_digest member⟩
    · rintro ⟨path,found⟩
      obtain ⟨d,is⟩ := Option.isSome_iff_exists.mp found
      exact ne_nil_of_mem (digest_known is)
  rw [some_,some_]
  constructor
  · rintro ⟨path,found⟩
    rw [digest_told] at found
    split at found
    · rename_i same
      cases has : files[path]? with
      | none => rw [has] at found; exact .inr ⟨path,found⟩
      | some d => exact .inl ⟨same.1,same.2,get_some has⟩
    · exact .inr ⟨path,found⟩
  · rintro (⟨rfl,rfl,filled⟩ | ⟨path,found⟩)
    · obtain ⟨path,d,has⟩ := some_get filled
      exact ⟨path,by rw [digest_told,if_pos ⟨rfl,rfl⟩,has]; rfl⟩
    · refine ⟨path,?_⟩
      rw [digest_told]
      split
      · cases files[path]? with
        | none => exact found
        | some d => rfl
      · exact found

end Told

structure Noted (e : Value) (kind name revision : Text) (files : Files) : Prop where
  kind : e.get? (ascii "kind") = some (.str kind)
  name : e.get? (ascii "name") = some (.str name)
  revision : e.get? (ascii "revision") = some (.str revision)
  files : rowsOf (e.get? (ascii "files")) = files.toList.map fun row => (row.1,.str row.2)

def Observing (kind : Text) : Prop := kind = ascii "witnessed" ∨ kind = ascii "replaced" ∨ kind = ascii "moved"

theorem fold_find (injective : Function.Injective g) {rows : List (Text × Text)}
    (distinct : (rows.map (·.1)).Nodup) (table : Table Text Value) (k : Text) :
    (rows.foldl (fun table row => table.insert (g row.1) (.str row.2)) table)[k]? =
      ((rows.find? fun row => g row.1 = k).map fun row => Value.str row.2).or table[k]? := by
  induction rows generalizing table with
  | nil => rfl
  | cons row rest ih =>
    rw [map_cons,nodup_cons] at distinct
    rw [foldl_cons,ih distinct.2,find?_cons,get_insert]
    by_cases same : g row.1 = k
    · have absent : rest.find? (fun row => g row.1 = k) = none := by
        rw [find?_eq_none]
        intro other member equal
        have other_ : g other.1 = k := by simpa using equal
        exact distinct.1 (mem_map.mpr ⟨other,member,injective (other_.trans same.symm)⟩)
      simp [same,absent]
    · simp [same]

theorem fold_files {g : Text → Text} (injective : Function.Injective g) (files : Files) (table : Table Text Value) :
    (∀ p d : Text,files[p]? = some d →
      (files.toList.foldl (fun table row => table.insert (g row.1) (.str row.2)) table)[g p]? = some (.str d)) ∧
    ∀ k : Text,(∀ p : Text,files[p]?.isSome = true → g p ≠ k) →
      (files.toList.foldl (fun table row => table.insert (g row.1) (.str row.2)) table)[k]? = table[k]? := by
  have distinct : (files.toList.map (·.1)).Nodup := by
    rw [Std.ExtTreeMap.map_fst_toList_eq_keys]
    exact Std.ExtTreeMap.nodup_keys
  constructor
  · intro p d found
    rw [fold_find injective distinct]
    have member := mem_rows.mpr found
    cases first : files.toList.find? fun row => g row.1 = g p with
    | none =>
      have out := find?_eq_none.mp first _ member
      simp at out
    | some row =>
      have is : g row.1 = g p := by simpa using find?_some first
      have among := mem_rows.mp (show (row.1,row.2) ∈ files.toList from mem_of_find?_eq_some first)
      rw [injective is,found] at among
      rw [Option.some.inj among]
      rfl
  · intro k apart
    rw [fold_find injective distinct]
    cases first : files.toList.find? fun row => g row.1 = k with
    | none => rfl
    | some row =>
      have is : g row.1 = k := by simpa using find?_some first
      have among := mem_rows.mp (show (row.1,row.2) ∈ files.toList from mem_of_find?_eq_some first)
      exact absurd is (apart row.1 (by rw [among]; rfl))

variable {written : Files}

theorem assign_files (proto : ascii "__proto__" ∉ written.keys) (files : Table Text Value) (path : Text) :
    (assign files (written.toList.map fun row => (row.1,.str row.2)))[path]? =
      (written[path]?.map Value.str).or files[path]? := by
  have plain : assign files (written.toList.map fun row => (row.1,.str row.2)) =
      written.toList.foldl (fun table row => table.insert row.1 (.str row.2)) files := by
    unfold assign
    rw [foldl_map]
    refine foldl_ext _ _ _ fun table row member => if_neg fun same => proto ?_
    rw [Std.ExtTreeMap.mem_keys,Std.ExtTreeMap.mem_iff_isSome_getElem?]
    rw [←show row.1 = ascii "__proto__" from same,mem_rows.mp member]
    rfl
  obtain ⟨inside,outside⟩ := fold_files (fun _ _ same => same) written files
  rw [plain]
  cases found : written[path]? with
  | some d => exact inside path d found
  | none =>
    refine outside path fun p has same => ?_
    rw [show p = path from same,found] at has
    cases has

-- What the facts become when an entry with these files is told of: the answer
-- for its name is the files on top of those known at the revision it stood at.
structure Tells (facts others : Facts) (name revision : Text) (written : Files) : Prop where
  observed : ∀ who,observed others who = if name = who then some revision else observed facts who
  elsewhere : ∀ who r path,name ≠ who → digest others who r path = digest facts who r path
  here : ∀ path,digest others name revision path =
    written[path]?.or (if Names.observed facts name = some revision then digest facts name revision path else none)
  index : ∀ who r,lastIndex others who r = lastIndex facts who r
  unindexed : Names.observed facts name ≠ some revision → lastIndex facts name revision = none

variable {p : Pointed} {e : Value}

theorem pointed_other
    (noted : Noted e kind name revision written) (other : name ≠ who) : pointedStep who none none p e = p := by
  have out : skipped who none none e = true := by
    unfold skipped
    rw [noted.name]
    simp [isText,other]
  rw [pointedStep,if_pos out]

theorem pointed_here (observing : Observing kind)
    (noted : Noted e kind name revision written) : pointedStep name none none p e =
      { (if identical (some (.str revision)) p.revision then p else ⟨some (.str revision),∅,some .null⟩) with
        files := assign (if identical (some (.str revision)) p.revision then p else ⟨some (.str revision),∅,some .null⟩).files
          (written.toList.map fun row => (row.1,.str row.2)) } := by
  have within : skipped name none none e = false := by
    unfold skipped
    rw [noted.name]
    simp [isText]
  have kinds : (isText (some (.str kind)) (ascii "witnessed") || isText (some (.str kind)) (ascii "replaced") ||
      isText (some (.str kind)) (ascii "moved")) = true := by
    rcases observing with rfl | rfl | rfl <;> decide
  rw [pointedStep,if_neg (by rw [within]; decide)]
  simp only [noted.kind,noted.revision,noted.files,if_pos kinds]

theorem Tells.answers (tells : Tells facts others name revision written) (observing : Observing kind)
    (noted : Noted e kind name revision written) (proto : ascii "__proto__" ∉ written.keys) (answers : Answers p facts who) :
    Answers (pointedStep who none none p e) others who := by
  by_cases same : name = who
  · subst same
    unfold Answers
    rw [tells.observed,if_pos rfl,pointed_here observing noted]
    unfold Answers at answers
    by_cases stays : Names.observed facts name = some revision
    · rw [stays] at answers
      obtain ⟨points,files,index⟩ := answers
      have identical_ : identical (some (.str revision)) p.revision = true := by rw [points]; exact decide_eq_true rfl
      simp only [if_pos identical_]
      refine ⟨points,fun path => ?_,by rw [tells.index]; exact index⟩
      rw [assign_files proto,files,tells.here,if_pos stays]
      cases written[path]? <;> rfl
    · have apart : identical (some (.str revision)) p.revision = false := by
        cases last : Names.observed facts name with
        | none => rw [last] at answers; rw [answers]; rfl
        | some r =>
          rw [last] at answers stays; rw [answers.1]
          exact decide_eq_false fun equal => stays (by rw [equal])
      simp only [apart,Bool.false_eq_true,if_false]
      refine ⟨trivial,fun path => ?_,?_⟩
      · rw [assign_files proto,tells.here,if_neg stays]
        cases written[path]? <;> simp
      · rw [tells.index,tells.unindexed stays]; rfl
  · rw [pointed_other noted same]
    unfold Answers at answers ⊢
    rw [tells.observed,if_neg same]
    split
    · rename_i none; rw [none] at answers; exact answers
    · rename_i r last
      rw [last] at answers
      refine ⟨answers.1,fun path => ?_,?_⟩
      · rw [tells.elsewhere who r path same]; exact answers.2.1 path
      · rw [tells.index]; exact answers.2.2

end Names
