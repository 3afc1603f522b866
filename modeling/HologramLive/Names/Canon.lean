import HologramLive.Names.Log

-- What canonical JSON keeps: a value is read back with its keys in order.
namespace Names
open Js Tables List

theorem keyOrder_total {α : Type} (a b : Text × α) : keyOrder a b ∨ keyOrder b a := by
  unfold keyOrder
  cases before : compare a.1 b.1 with
  | lt => exact .inl rfl
  | eq => exact .inl rfl
  | gt => exact .inr (by rw [Std.OrientedCmp.gt_iff_lt.mp before]; rfl)

theorem keyOrder_trans {α : Type} {a b c : Text × α} (first : keyOrder a b) (second : keyOrder b c) : keyOrder a c :=
  Std.TransCmp.isLE_trans first second

instance {α : Type} : Std.Total (keyOrder (α := α)) := ⟨keyOrder_total⟩
instance {α : Type} : IsTrans (Text × α) keyOrder := ⟨fun _ _ _ => keyOrder_trans⟩

mutual
def sorted : Value → Value
  | .null => .null
  | .bool value => .bool value
  | .num text => .num text
  | .str text => .str text
  | .arr items => .arr (sortedItems items)
  | .obj rows => .obj ((sortedRows rows).insertionSort keyOrder)
termination_by structural value => value
def sortedItems : List Value → List Value
  | [] => []
  | item :: rest => sorted item :: sortedItems rest
termination_by structural items => items
def sortedRows : List (Text × Value) → List (Text × Value)
  | [] => []
  | (key,value) :: rest => (key,sorted value) :: sortedRows rest
termination_by structural rows => rows
end

variable (rows : List (Text × Value))

theorem sortedRows_map : sortedRows rows = rows.map fun row => (row.1,sorted row.2) := by
  induction rows with
  | nil => rfl
  | cons row rest ih => rw [sortedRows,ih]; rfl

theorem settledRows_map : settledRows rows = rows.map fun row => (row.1,settled row.2) := by
  induction rows with
  | nil => rfl
  | cons row rest ih => rw [settledRows,ih]; rfl

theorem rowTexts_map : rowTexts rows = rows.map fun row => quoted row.1 ++ 58 :: stringify row.2 := by
  induction rows with
  | nil => rfl
  | cons row rest ih => rw [rowTexts,ih]; rfl

theorem sort_map {α β : Type} (f : α → β) (rows : List (Text × α)) :
    (rows.insertionSort keyOrder).map (fun row => (row.1,f row.2)) =
      (rows.map fun row => (row.1,f row.2)).insertionSort keyOrder :=
  map_insertionSort keyOrder keyOrder (fun row => (row.1,f row.2)) rows fun _ _ _ _ => Iff.rfl

mutual
theorem canon_stringify (value : Value) : canon value = stringify (sorted value) := by
  match value with
  | .null => rfl
  | .bool _ => rfl
  | .num _ => rfl
  | .str _ => rfl
  | .arr items =>
    rw [canon,sorted,stringify,canonItems_texts items]
  | .obj rows =>
    have pairs := sort_map stringify (sortedRows rows)
    rw [canon,sorted,stringify,rowTexts_map,canonRows_texts rows,←pairs,map_map]
    rfl
termination_by structural value
theorem canonItems_texts (items : List Value) : canonItems items = itemTexts (sortedItems items) := by
  match items with
  | [] => rfl
  | item :: rest => rw [canonItems,sortedItems,itemTexts,canon_stringify item,canonItems_texts rest]
termination_by structural items
theorem canonRows_texts (rows : List (Text × Value)) :
    canonRows rows = (sortedRows rows).map fun row => (row.1,stringify row.2) := by
  match rows with
  | [] => rfl
  | (key,value) :: rest =>
    rw [canonRows,sortedRows,map_cons,canon_stringify value,canonRows_texts rest]
termination_by structural rows
end

section Sorting
variable {numerals : Numerals}

theorem soundRows_iff : SoundRows numerals rows ↔ ∀ row ∈ rows,Sound numerals row.2 := by
  induction rows with
  | nil => simp [SoundRows]
  | cons row rest ih => rw [SoundRows,ih]; simp

theorem sort_keys {α : Type} (rows : List (Text × α)) (distinct : (rows.map (·.1)).Nodup) :
    ((rows.insertionSort keyOrder).map (·.1)).Nodup :=
  (((perm_insertionSort keyOrder rows).map (·.1)).nodup_iff).mpr distinct

mutual
theorem sorted_sound (value : Value) (sound : Sound numerals value) : Sound numerals (sorted value) := by
  match value with
  | .null => exact sound
  | .bool _ => exact sound
  | .num _ => exact sound
  | .str _ => exact sound
  | .arr items =>
    rw [Sound] at sound
    rw [sorted,Sound]
    exact sortedItems_sound items sound
  | .obj rows =>
    rw [Sound] at sound
    have inner := (soundRows_iff _).mp (sortedRows_sound rows sound.2)
    have keys : (sortedRows rows).map (·.1) = rows.map (·.1) := by rw [sortedRows_map,map_map]; rfl
    rw [sorted,Sound,soundRows_iff]
    exact ⟨sort_keys _ (by rw [keys]; exact sound.1),
      fun row member => inner row ((perm_insertionSort keyOrder _).mem_iff.mp member)⟩
termination_by structural value
theorem sortedItems_sound (items : List Value) (sound : SoundItems numerals items) :
    SoundItems numerals (sortedItems items) := by
  match items with
  | [] => exact sound
  | item :: rest => exact ⟨sorted_sound item sound.1,sortedItems_sound rest sound.2⟩
termination_by structural items
theorem sortedRows_sound (rows : List (Text × Value)) (sound : SoundRows numerals rows) :
    SoundRows numerals (sortedRows rows) := by
  match rows with
  | [] => exact sound
  | (key,value) :: rest => exact ⟨sorted_sound value sound.1,sortedRows_sound rest sound.2⟩
termination_by structural rows
end

theorem parse_canon {value : Value} (sound : Sound numerals value) :
    parse numerals (canon value) = some (settled (sorted value)) := by
  rw [canon_stringify]
  exact parse_stringify (sorted_sound value sound)

theorem find_perm {rows others : List (Text × Value)} (distinct : (rows.map (·.1)).Nodup) (same : rows.Perm others)
    (key : Text) : (rows.find? fun row => row.1 = key) = others.find? fun row => row.1 = key := by
  have distinctOthers : (others.map (·.1)).Nodup := ((same.map (·.1)).nodup_iff).mp distinct
  have single {list : List (Text × Value)} (nodup : (list.map (·.1)).Nodup) {a b : Text × Value} (first : a ∈ list)
      (second : b ∈ list) (equal : a.1 = b.1) : a = b := inj_on_of_nodup_map nodup first second equal
  cases found : others.find? fun row => row.1 = key with
  | none =>
    rw [find?_eq_none] at found ⊢
    exact fun row member => found row (same.mem_iff.mp member)
  | some row =>
    have is := find?_some found
    have member := same.mem_iff.mpr (mem_of_find?_eq_some found)
    cases again : rows.find? fun row => row.1 = key with
    | none =>
      rw [find?_eq_none] at again
      exact absurd is (again row member)
    | some other =>
      have otherIs := find?_some again
      have keys : other.1 = row.1 := by
        have left : other.1 = key := by simpa using otherIs
        have right : row.1 = key := by simpa using is
        rw [left,right]
      rw [single distinct (mem_of_find?_eq_some again) member keys]

theorem find_values (f : Value → Value) (rows : List (Text × Value)) (key : Text) :
    (((rows.map fun row => (row.1,f row.2)).find? fun row => row.1 = key).map (·.2)) =
      ((rows.find? fun row => row.1 = key).map (·.2)).map f := by
  induction rows with
  | nil => rfl
  | cons row rest ih =>
    rw [map_cons,find?_cons,find?_cons]
    by_cases same : row.1 = key
    · simp [same]
    · simp only [same,decide_false]
      exact ih

theorem get_sorted {value : Value} (sound : Sound numerals value) (key : Text) :
    (sorted value).get? key = (value.get? key).map sorted := by
  cases value with
  | null => rfl
  | bool _ => rfl
  | num _ => rfl
  | str _ => rfl
  | arr _ => rfl
  | obj rows =>
    rw [Sound] at sound
    have keys : ((sortedRows rows).map (·.1)).Nodup := by
      rw [sortedRows_map,map_map]
      exact sound.1
    rw [sorted,Value.get?,Value.get?,←find_perm keys (perm_insertionSort keyOrder _).symm,sortedRows_map]
    exact find_values sorted rows key

end Sorting

-- What the fields of an entry are: texts, whole numbers and tables of texts.
inductive Written : Value → Prop
  | num (n : Nat) (small : n ≤ 2^53) : Written (.num (digits n))
  | str (text : Text) : Written (.str text)
  | obj (rows : List (Text × Value)) (distinct : (rows.map (·.1)).Nodup) (all : ∀ row ∈ rows,Written row.2) :
    Written (.obj rows)

variable (n : Nat)

theorem digits_units : ∀ u ∈ digits n,isDigit u = true := by
  intro u member
  obtain ⟨c,among,rfl⟩ := mem_map.mp member
  have digit := Nat.isDigit_of_mem_toDigits (by decide) (by decide) among
  have range : 48 ≤ c.toNat ∧ c.toNat ≤ 57 := Char.isDigit_iff_toNat.mp digit
  have same : (unit c).val = c.toNat := by
    show c.toNat % 65536 = c.toNat
    omega
  simp only [isDigit,same,Bool.and_eq_true,decide_eq_true_eq]
  exact range

theorem digits_ne_nil : digits n ≠ [] := by
  intro empty
  exact Nat.toDigits_ne_nil (map_eq_nil_iff.mp empty)

theorem digits_finite : infinite (digits n) = false := by
  have units := digits_units n
  unfold infinite
  rw [Bool.or_eq_false_iff,decide_eq_false_iff_not,decide_eq_false_iff_not]
  constructor
  · intro same
    exact absurd (units (unit 'I') (by rw [same]; decide)) (by decide)
  · intro same
    exact absurd (units (unit '-') (by rw [same]; decide)) (by decide)

theorem toDigits_head {n : Nat} (positive : 0 < n) : ∃ c rest,Nat.toDigits 10 n = c :: rest ∧ c ≠ '0' := by
  induction n using Nat.strongRecOn with
  | ind n ih =>
    by_cases small : n < 10
    · refine ⟨Nat.digitChar n,[],Nat.toDigits_of_lt_base small,?_⟩
      interval_cases n <;> decide
    · obtain ⟨c,rest,shape,other⟩ := ih (n/10) (Nat.div_lt_self positive (by decide)) (by omega)
      refine ⟨c,rest ++ [Nat.digitChar (n%10)],?_,other⟩
      rw [Nat.toDigits_of_base_le (by decide) (by omega),shape]
      rfl

theorem takeWhile_all {units : Text} (all : ∀ u ∈ units,isDigit u = true) :
    units.takeWhile isDigit = units ∧ units.dropWhile isDigit = [] := by
  have taken := @takeWhile_append_of_pos _ isDigit units [] all
  have dropped := @dropWhile_append_of_pos _ isDigit units [] all
  simpa using And.intro taken dropped

theorem readNumber_digits : readNumber (digits n) = some (digits n,[]) := by
  rcases Nat.eq_zero_or_pos n with rfl | positive
  · rfl
  obtain ⟨c,rest,shape,other⟩ := toDigits_head positive
  have units := digits_units n
  obtain ⟨taken,dropped⟩ := takeWhile_all units
  have spelled : digits n = unit c :: rest.map unit := by rw [digits,shape]; rfl
  have first := units (unit c) (by rw [spelled]; exact mem_cons_self)
  have unsigned : unit c ∉ ([45] : List Unit16) := by
    intro member
    rw [mem_singleton.mp member] at first
    exact absurd first (by decide)
  have nonzero : unit c ≠ 48 := by
    intro zero
    have digit : c.isDigit = true :=
      Nat.isDigit_of_mem_toDigits (by decide : 0 < 10) (by decide) (by rw [shape]; exact mem_cons_self)
    have range : 48 ≤ c.toNat ∧ c.toNat ≤ 57 := Char.isDigit_iff_toNat.mp digit
    have value : c.toNat % 65536 = 48 := congrArg Fin.val zero
    exact other (Char.toNat_inj.mp (by rw [show '0'.toNat = 48 from rfl]; omega))
  have whole : readWhole (unit c :: rest.map unit) = some (digits n,[]) := by
    rw [readWhole,if_neg nonzero,←spelled,readDigits,taken,dropped,if_neg (by simpa using digits_ne_nil n)]
  unfold readNumber
  rw [spelled,readSign,if_neg unsigned]
  show (readWhole (unit c :: rest.map unit)).bind _ = _
  rw [whole,←spelled]
  show some (([] : Text) ++ (digits n ++ []),([] : Text)) = _
  simp

theorem naturalOf_digits : naturalOf (digits n) = some n := by
  have all : (digits n).all isDigit = true := all_eq_true.mpr (digits_units n)
  have back : (digits n).map (fun u => Char.ofNat u.val) = Nat.toDigits 10 n := by
    rw [digits,map_map]
    refine (map_congr_left fun c member => ?_).trans (map_id _)
    have digit := Nat.isDigit_of_mem_toDigits (by decide : 0 < 10) (by decide) member
    have range : 48 ≤ c.toNat ∧ c.toNat ≤ 57 := Char.isDigit_iff_toNat.mp digit
    have value : c.toNat % 65536 = c.toNat := by omega
    show Char.ofNat (c.toNat % 65536) = c
    rw [value,Char.ofNat_toNat]
  rw [naturalOf,if_pos all,back,Nat.ofDigitChars_ten_toDigits]

section Fields
variable {numerals : Numerals} {value : Value}

theorem Written.sound (written : Written value) : Sound numerals value := by
  induction written with
  | num n small => exact .inr ⟨readNumber_digits n,numerals.naturals n small⟩
  | str text => trivial
  | obj rows distinct _ ih => exact ⟨distinct,(soundRows_iff rows).mpr ih⟩

theorem Written.sorted (written : Written value) : Written (sorted value) := by
  induction written with
  | num n small => exact .num n small
  | str text => exact .str text
  | obj rows distinct _ ih =>
    have keys : (sortedRows rows).map (·.1) = rows.map (·.1) := by rw [sortedRows_map,map_map]; rfl
    refine .obj _ (sort_keys _ (by rw [keys]; exact distinct)) fun row member => ?_
    have among := (perm_insertionSort keyOrder _).mem_iff.mp member
    rw [sortedRows_map] at among
    obtain ⟨before,from_,rfl⟩ := mem_map.mp among
    exact ih before from_

theorem Written.settled (written : Written value) (same : settled other = value) : other = value := by
  induction written generalizing other with
  | num n small =>
    cases other with
    | num text =>
      rw [Js.settled] at same
      split at same
      · cases same
      · exact same
    | _ => cases same
  | str text =>
    cases other with
    | num found =>
      rw [Js.settled] at same
      split at same <;> cases same
    | str found => exact same
    | _ => cases same
  | obj rows distinct _ ih =>
    cases other with
    | num found =>
      rw [Js.settled] at same
      split at same <;> cases same
    | obj others =>
      rw [Js.settled,settledRows_map] at same
      have mapped := Value.obj.inj same
      refine congrArg Value.obj ?_
      have keep : others.map (fun row => (row.1,Js.settled row.2)) = others.map id := by
        refine map_congr_left fun row member => ?_
        have among : (row.1,Js.settled row.2) ∈ rows := by rw [←mapped]; exact mem_map.mpr ⟨row,member,rfl⟩
        have equal := @ih (row.1,Js.settled row.2) among row.2 rfl
        exact Prod.ext rfl equal.symm
      rw [←mapped,keep,map_id]
    | _ => cases same

theorem Written.kept (written : Written value) : Js.settled value = value := by
  induction written with
  | num n small => rw [Js.settled,digits_finite]; rfl
  | str text => rfl
  | obj rows distinct _ ih =>
    rw [Js.settled,settledRows_map]
    refine congrArg Value.obj ((map_congr_left fun row member => ?_).trans (map_id _))
    exact Prod.ext rfl (ih row member)

end Fields

end Names
