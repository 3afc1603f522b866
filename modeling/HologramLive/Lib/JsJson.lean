import HologramLive.Lib.Tables

-- Texts of UTF-16 units, and JSON text as `JSON.stringify` writes it and
-- `JSON.parse` reads it.
namespace Js

abbrev Unit16 := Fin 65536
abbrev Text := List Unit16
instance ordText : Std.TransOrd Text := inferInstance
instance someUnit : NeZero 65536 := inferInstance

def unit (c : Char) : Unit16 := Fin.ofNat 65536 c.toNat
def ascii (word : String) : Text := word.toList.map unit

-- A number stands as the text that `String` gives it: numbers are equal when
-- these texts are, the two zeros included. The rows of an object are those of
-- its own keys.
inductive Value where
  | null
  | bool (value : Bool)
  | num (text : Text)
  | str (text : Text)
  | arr (items : List Value)
  | obj (rows : List (Text × Value))

def Value.get? : Value → Text → Option Value
  | .obj rows,key => (rows.find? fun row => row.1 = key).map (·.2)
  | _,_ => none

def hexDigit (n : Nat) : Unit16 := unit (Nat.digitChar n)

variable (u : Unit16)

def hexEscape : Text :=
  [92,unit 'u',hexDigit (u.val/4096),hexDigit (u.val/256%16),hexDigit (u.val/16%16),hexDigit (u.val%16)]

def leading : Bool := 0xD800 ≤ u.val && u.val < 0xDC00
def trailing : Bool := 0xDC00 ≤ u.val && u.val < 0xE000

def escaped : Text :=
  if u = 34 then [92,34]
  else if u = 92 then [92,92]
  else if u = 8 then [92,unit 'b']
  else if u = 9 then [92,unit 't']
  else if u = 10 then [92,unit 'n']
  else if u = 12 then [92,unit 'f']
  else if u = 13 then [92,unit 'r']
  else if u.val < 32 || leading u || trailing u then hexEscape u
  else [u]

-- A surrogate is written as it is only as part of a pair.
def escapes : Text → Text
  | u :: v :: rest =>
    if leading u && trailing v then u :: v :: escapes rest else escaped u ++ escapes (v :: rest)
  | [u] => escaped u
  | [] => []

def quoted (text : Text) : Text := 34 :: (escapes text ++ [34])

def listed : Bool → List Text → Text
  | _,[] => []
  | first,text :: rest => (if first then [] else [44]) ++ (text ++ listed false rest)
def join (texts : List Text) : Text := listed true texts

def infinite (number : Text) : Bool := number = ascii "Infinity" || number = ascii "-Infinity"

mutual
def stringify : Value → Text
  | .null => ascii "null"
  | .bool true => ascii "true"
  | .bool false => ascii "false"
  | .num text => if infinite text then ascii "null" else text
  | .str text => quoted text
  | .arr items => 91 :: (join (itemTexts items) ++ [93])
  | .obj rows => 123 :: (join (rowTexts rows) ++ [125])
termination_by structural value => value
def itemTexts : List Value → List Text
  | [] => []
  | item :: rest => stringify item :: itemTexts rest
termination_by structural items => items
def rowTexts : List (Text × Value) → List Text
  | [] => []
  | (key,value) :: rest => (quoted key ++ 58 :: stringify value) :: rowTexts rest
termination_by structural rows => rows
end

def isDigit : Bool := 48 ≤ u.val && u.val ≤ 57
def digits (n : Nat) : Text := (Nat.toDigits 10 n).map unit

def hexValue : Option Nat :=
  if isDigit u then some (u.val-48)
  else if 97 ≤ u.val ∧ u.val ≤ 102 then some (u.val-87)
  else if 65 ≤ u.val ∧ u.val ≤ 70 then some (u.val-55)
  else none

def hexUnit (a b c d : Unit16) : Option Unit16 :=
  (hexValue a).bind fun a => (hexValue b).bind fun b => (hexValue c).bind fun c => (hexValue d).map fun d =>
    Fin.ofNat 65536 (((a*16+b)*16+c)*16+d)

def unescape (mark : Unit16) : Option Unit16 :=
  if mark = 34 ∨ mark = 92 ∨ mark = 47 then some mark
  else if mark = unit 'b' then some 8
  else if mark = unit 't' then some 9
  else if mark = unit 'n' then some 10
  else if mark = unit 'f' then some 12
  else if mark = unit 'r' then some 13
  else none

def readText : Text → Option (Text × Text)
  | [] => none
  | u :: rest =>
    if u = 34 then some ([],rest)
    else if u = 92 then match rest with
      | [] => none
      | mark :: later =>
        if mark = unit 'u' then match later with
          | a :: b :: c :: d :: last => (hexUnit a b c d).bind fun u => (readText last).map fun read => (u :: read.1,read.2)
          | _ => none
        else (unescape mark).bind fun u => (readText later).map fun read => (u :: read.1,read.2)
    else if u.val < 32 then none
    else (readText rest).map fun read => (u :: read.1,read.2)

variable (input : Text)

def readDigits : Option (Text × Text) :=
  if (input.takeWhile isDigit).isEmpty then none else some (input.takeWhile isDigit,input.dropWhile isDigit)

def readSign (signs : List Unit16) : Text → Text × Text
  | [] => ([],[])
  | u :: rest => if u ∈ signs then ([u],rest) else ([],u :: rest)

def readWhole : Text → Option (Text × Text)
  | [] => none
  | u :: rest => if u = 48 then some ([48],rest) else readDigits (u :: rest)

def readFraction : Text → Option (Text × Text)
  | [] => some ([],[])
  | u :: rest => if u = 46 then (readDigits rest).map fun read => (46 :: read.1,read.2) else some ([],u :: rest)

def readExponent : Text → Option (Text × Text)
  | [] => some ([],[])
  | u :: rest =>
    if u = 101 ∨ u = 69 then
      (readDigits (readSign [43,45] rest).2).map fun read => (u :: ((readSign [43,45] rest).1 ++ read.1),read.2)
    else some ([],u :: rest)

def readNumber : Option (Text × Text) :=
  (readWhole (readSign [45] input).2).bind fun whole =>
  (readFraction whole.2).bind fun fraction =>
  (readExponent fraction.2).map fun exponent =>
    ((readSign [45] input).1 ++ (whole.1 ++ (fraction.1 ++ exponent.1)),exponent.2)

-- What the language does with the text of a number: the text of the double
-- nearest to it. That text reads back as the same double; up to 2^53 the whole
-- numbers are doubles.
structure Numerals where
  shown : Text → Text
  steady : ∀ input token rest,readNumber input = some (token,rest) → infinite (shown token) = true ∨
    readNumber (shown token) = some (shown token,[]) ∧ shown (shown token) = shown token
  naturals : ∀ n,n ≤ 2^53 → shown (digits n) = digits n

def isSpace : Bool := u = 32 || u = 9 || u = 10 || u = 13
def skip : Text := input.dropWhile isSpace

def separated (first : Bool) (input : Text) : Option Text :=
  if first then some input else if input.head? = some 44 then some input.tail else none

def put (row : Text × Value) : List (Text × Value) → List (Text × Value)
  | [] => [row]
  | other :: rest => if other.1 = row.1 then row :: rest else other :: put row rest
variable (rows : List (Text × Value))

def gathered : List (Text × Value) := rows.foldl (fun kept row => put row kept) []

def readKey : Option (Text × Text) :=
  (if input.head? = some 34 then readText input.tail else none).bind fun key =>
    if (skip key.2).head? = some 58 then some (key.1,skip (skip key.2).tail) else none

mutual
def readValue (numerals : Numerals) : Nat → Text → Option (Value × Text)
  | 0,_ => none
  | _,[] => none
  | fuel+1,u :: rest =>
    if u = unit 'n' then ((ascii "ull").isPrefixOf? rest).map fun rest => (.null,rest)
    else if u = unit 't' then ((ascii "rue").isPrefixOf? rest).map fun rest => (.bool true,rest)
    else if u = unit 'f' then ((ascii "alse").isPrefixOf? rest).map fun rest => (.bool false,rest)
    else if u = 34 then (readText rest).map fun read => (.str read.1,read.2)
    else if u = 91 then (readItems numerals fuel true (skip rest)).map fun read => (.arr read.1,read.2)
    else if u = 123 then (readRows numerals fuel true (skip rest)).map fun read => (.obj (gathered read.1),read.2)
    else (readNumber (u :: rest)).map fun read => (.num (numerals.shown read.1),read.2)
def readItems (numerals : Numerals) : Nat → Bool → Text → Option (List Value × Text)
  | 0,_,_ => none
  | fuel+1,first,input =>
    if input.head? = some 93 then some ([],input.tail)
    else (separated first input).bind fun input =>
      (readValue numerals fuel (skip input)).bind fun item =>
      (readItems numerals fuel false (skip item.2)).map fun items => (item.1 :: items.1,items.2)
def readRows (numerals : Numerals) : Nat → Bool → Text → Option (List (Text × Value) × Text)
  | 0,_,_ => none
  | fuel+1,first,input =>
    if input.head? = some 125 then some ([],input.tail)
    else (separated first input).bind fun input =>
      (readKey (skip input)).bind fun key =>
      (readValue numerals fuel key.2).bind fun value =>
      (readRows numerals fuel false (skip value.2)).map fun rows => ((key.1,value.1) :: rows.1,rows.2)
end

def parse (numerals : Numerals) (input : Text) : Option Value :=
  (readValue numerals (2*input.length+2) (skip input)).bind fun read =>
    if (skip read.2).isEmpty then some read.1 else none

theorem hexValue_digit (small : n < 16) : hexValue (hexDigit n) = some n := by
  interval_cases n <;> decide

theorem hexUnit_escape :
    hexUnit (hexDigit (u.val/4096)) (hexDigit (u.val/256%16)) (hexDigit (u.val/16%16)) (hexDigit (u.val%16)) = some u := by
  have bound := u.isLt
  unfold hexUnit
  rw [hexValue_digit (by omega : u.val/4096 < 16),hexValue_digit (Nat.mod_lt _ (by decide)),
    hexValue_digit (Nat.mod_lt _ (by decide)),hexValue_digit (Nat.mod_lt _ (by decide))]
  have whole : ((u.val/4096*16+u.val/256%16)*16+u.val/16%16)*16+u.val%16 = u.val := by omega
  show some (Fin.ofNat 65536 (((u.val/4096*16+u.val/256%16)*16+u.val/16%16)*16+u.val%16)) = some u
  rw [whole]
  exact congrArg some (Fin.ofNat_val_eq_self u)

theorem readText_end (rest : Text) : readText (34 :: rest) = some ([],rest) := by
  rw [readText.eq_def]
  simp only [if_true]

theorem readText_plain {u : Unit16} (quote : u ≠ 34) (slash : u ≠ 92) (shown : ¬u.val < 32) (rest : Text) :
    readText (u :: rest) = (readText rest).map fun read => (u :: read.1,read.2) := by
  rw [readText.eq_def]
  simp only [if_neg quote,if_neg slash,if_neg shown]

theorem readText_mark {mark u : Unit16} (short : mark ≠ unit 'u') (known : unescape mark = some u) (rest : Text) :
    readText (92 :: mark :: rest) = (readText rest).map fun read => (u :: read.1,read.2) := by
  rw [readText.eq_def]
  simp only [if_neg (show (92 : Unit16) ≠ 34 by decide),if_true,if_neg short,known,Option.bind_some]

open List Option

theorem readText_hex (rest : Text) :
    readText (hexEscape u ++ rest) = (readText rest).map fun read => (u :: read.1,read.2) := by
  unfold hexEscape
  rw [readText.eq_def]
  simp only [cons_append,nil_append,if_neg (show (92 : Unit16) ≠ 34 by decide),if_pos,hexUnit_escape,
    Option.bind_some]

theorem readText_escaped (rest : Text) :
    readText (escaped u ++ rest) = (readText rest).map fun read => (u :: read.1,read.2) := by
  unfold escaped
  iterate 7
    split
    · rename_i same; subst same; exact readText_mark (by decide) (by decide) rest
  split
  · exact readText_hex u rest
  · rename_i quote slash _ _ _ _ _ plain
    simp only [Bool.or_eq_true,decide_eq_true_eq,not_or] at plain
    exact readText_plain quote slash plain.1.1 rest

theorem surrogate_plain {u : Unit16} (surrogate : leading u = true ∨ trailing u = true) :
    u ≠ 34 ∧ u ≠ 92 ∧ ¬u.val < 32 := by
  have high : 0xD800 ≤ u.val := by
    rcases surrogate with holds | holds
    · simp only [leading,Bool.and_eq_true,decide_eq_true_eq] at holds; exact holds.1
    · simp only [trailing,Bool.and_eq_true,decide_eq_true_eq] at holds; omega
  refine ⟨?_,?_,by omega⟩
  · intro same; subst same; exact absurd high (by decide)
  · intro same; subst same; exact absurd high (by decide)

theorem readText_escapes (text rest : Text) : readText (escapes text ++ 34 :: rest) = some (text,rest) := by
  induction text using escapes.induct with
  | case1 u v later pair ih =>
    have both : leading u = true ∧ trailing v = true := by simpa using pair
    obtain ⟨quoteU,slashU,shownU⟩ := surrogate_plain (.inl both.1)
    obtain ⟨quoteV,slashV,shownV⟩ := surrogate_plain (.inr both.2)
    rw [escapes,if_pos pair,cons_append,cons_append,readText_plain quoteU slashU shownU,
      readText_plain quoteV slashV shownV,ih]
    rfl
  | case2 u v later alone ih => rw [escapes,if_neg alone,append_assoc,readText_escaped,ih]; rfl
  | case3 u => rw [escapes,readText_escaped,readText_end]; rfl
  | case4 => exact readText_end rest

theorem readText_quoted (text rest : Text) : readText (escapes text ++ [34] ++ rest) = some (text,rest) := by
  rw [append_assoc]
  exact readText_escapes text rest

def Ends (rest : Text) : Prop := ∀ u,rest.head? = some u → u = 44 ∨ u = 93 ∨ u = 125

theorem ends_cons {u : Unit16} (stop : u = 44 ∨ u = 93 ∨ u = 125) (rest : Text) : Ends (u :: rest) := by
  intro v head
  cases head
  exact stop

section Stops
variable {rest : Text}

theorem Ends.stops (ends : Ends rest) (among : Unit16 → Bool) (comma : among 44 = false) (bracket : among 93 = false)
    (brace : among 125 = false) (input : Text) : (input ++ rest).takeWhile among = input.takeWhile among ∧
      (input ++ rest).dropWhile among = input.dropWhile among ++ rest := by
  have stop : rest.takeWhile among = [] ∧ rest.dropWhile among = rest := by
    cases rest with
    | nil => exact ⟨rfl,rfl⟩
    | cons u later =>
      have out : among u = false := by
        rcases ends u rfl with rfl | rfl | rfl
        · exact comma
        · exact bracket
        · exact brace
      exact ⟨takeWhile_cons_of_neg (by simp [out]),dropWhile_cons_of_neg (by simp [out])⟩
  induction input with
  | nil => exact stop
  | cons u later ih =>
    cases holds : among u with
    | true => simp [holds,ih]
    | false => simp [holds]

theorem Ends.digits (ends : Ends rest) (input : Text) :
    readDigits (input ++ rest) = (readDigits input).map fun read => (read.1,read.2 ++ rest) := by
  obtain ⟨taken,dropped⟩ := ends.stops isDigit (by decide) (by decide) (by decide) input
  unfold readDigits
  rw [taken,dropped]
  split <;> rfl

theorem Ends.sign (ends : Ends rest) (comma : (44 : Unit16) ∉ signs) (bracket : (93 : Unit16) ∉ signs)
    (brace : (125 : Unit16) ∉ signs) (input : Text) :
    readSign signs (input ++ rest) = ((readSign signs input).1,(readSign signs input).2 ++ rest) := by
  cases input with
  | nil =>
    cases rest with
    | nil => rfl
    | cons u later =>
      have out : u ∉ signs := by rcases ends u rfl with rfl | rfl | rfl <;> assumption
      show readSign signs (u :: later) = ([],u :: later)
      rw [readSign,if_neg out]
  | cons u later =>
    rw [cons_append,readSign,readSign]
    split <;> rfl

theorem Ends.whole (ends : Ends rest) (input : Text) :
    readWhole (input ++ rest) = (readWhole input).map fun read => (read.1,read.2 ++ rest) := by
  cases input with
  | nil =>
    cases rest with
    | nil => rfl
    | cons u later =>
      rcases ends u rfl with rfl | rfl | rfl <;> rfl
  | cons u later =>
    rw [cons_append,readWhole,readWhole]
    split
    · rfl
    · exact ends.digits (u :: later)

theorem Ends.fraction (ends : Ends rest) (input : Text) :
    readFraction (input ++ rest) = (readFraction input).map fun read => (read.1,read.2 ++ rest) := by
  cases input with
  | nil =>
    cases rest with
    | nil => rfl
    | cons u later => rcases ends u rfl with rfl | rfl | rfl <;> rfl
  | cons u later =>
    rw [cons_append,readFraction,readFraction]
    split
    · rw [ends.digits later,Option.map_map,Option.map_map]
      rfl
    · rfl

theorem Ends.exponent (ends : Ends rest) (input : Text) :
    readExponent (input ++ rest) = (readExponent input).map fun read => (read.1,read.2 ++ rest) := by
  cases input with
  | nil =>
    cases rest with
    | nil => rfl
    | cons u later => rcases ends u rfl with rfl | rfl | rfl <;> rfl
  | cons u later =>
    rw [cons_append,readExponent,readExponent]
    split
    · rw [ends.sign (by decide) (by decide) (by decide) later]
      rw [ends.digits,Option.map_map,Option.map_map]
      rfl
    · rfl

theorem Ends.number (ends : Ends rest) (input : Text) :
    readNumber (input ++ rest) = (readNumber input).map fun read => (read.1,read.2 ++ rest) := by
  unfold readNumber
  rw [ends.sign (by decide) (by decide) (by decide) input,ends.whole]
  cases readWhole (readSign [45] input).2 with
  | none => rfl
  | some whole =>
    simp only [map_some,Option.bind_some]
    rw [ends.fraction]
    cases readFraction whole.2 with
    | none => rfl
    | some fraction =>
      simp only [map_some,Option.bind_some]
      rw [ends.exponent]
      cases readExponent fraction.2 <;> rfl

end Stops

mutual
def Sound (numerals : Numerals) : Value → Prop
  | .null => True
  | .bool _ => True
  | .num text => infinite text = true ∨ readNumber text = some (text,[]) ∧ numerals.shown text = text
  | .str _ => True
  | .arr items => SoundItems numerals items
  | .obj rows => (rows.map (·.1)).Nodup ∧ SoundRows numerals rows
termination_by structural value => value
def SoundItems (numerals : Numerals) : List Value → Prop
  | [] => True
  | item :: rest => Sound numerals item ∧ SoundItems numerals rest
termination_by structural items => items
def SoundRows (numerals : Numerals) : List (Text × Value) → Prop
  | [] => True
  | (_,value) :: rest => Sound numerals value ∧ SoundRows numerals rest
termination_by structural rows => rows
end

-- What is left of a value once it is written: an infinity is written as null.
mutual
def settled : Value → Value
  | .null => .null
  | .bool value => .bool value
  | .num text => if infinite text then .null else .num text
  | .str text => .str text
  | .arr items => .arr (settledItems items)
  | .obj rows => .obj (settledRows rows)
termination_by structural value => value
def settledItems : List Value → List Value
  | [] => []
  | item :: rest => settled item :: settledItems rest
termination_by structural items => items
def settledRows : List (Text × Value) → List (Text × Value)
  | [] => []
  | (key,value) :: rest => (key,settled value) :: settledRows rest
termination_by structural rows => rows
end

theorem settledRows_keys : (settledRows rows).map (·.1) = rows.map (·.1) := by
  induction rows with
  | nil => rfl
  | cons row rest ih => simp [settledRows,ih]

theorem put_new {row : Text × Value} {rows : List (Text × Value)} (fresh : row.1 ∉ rows.map (·.1)) :
    put row rows = rows ++ [row] := by
  induction rows with
  | nil => rfl
  | cons other rest ih =>
    simp only [map_cons,mem_cons,not_or] at fresh
    rw [put,if_neg (fun same => fresh.1 same.symm),ih fresh.2]
    rfl

theorem put_fold {rows kept : List (Text × Value)} (distinct : ((kept ++ rows).map (·.1)).Nodup) :
    rows.foldl (fun kept row => put row kept) kept = kept ++ rows := by
  induction rows generalizing kept with
  | nil => simp
  | cons row rest ih =>
    have shape : kept ++ row :: rest = kept ++ [row] ++ rest := by simp
    rw [shape] at distinct
    have fresh : row.1 ∉ kept.map (·.1) := by
      simp only [map_append,map_cons,map_nil,nodup_append,append_assoc] at distinct
      intro member
      exact distinct.2.2 _ member _ mem_cons_self rfl
    rw [foldl_cons,put_new fresh,ih distinct,←shape]

theorem gathered_distinct {rows : List (Text × Value)} (distinct : (rows.map (·.1)).Nodup) : gathered rows = rows :=
  @put_fold rows [] distinct

theorem put_keys (row : Text × Value) (rows : List (Text × Value)) :
    (put row rows).map (·.1) = if row.1 ∈ rows.map (·.1) then rows.map (·.1) else rows.map (·.1) ++ [row.1] := by
  induction rows with
  | nil => rfl
  | cons other rest ih =>
    rw [put]
    by_cases same : other.1 = row.1
    · simp [same]
    · have differ : row.1 ≠ other.1 := fun equal => same equal.symm
      rw [if_neg same,map_cons,ih]
      by_cases later : row.1 ∈ rest.map (·.1)
      · have within : row.1 ∈ (other :: rest).map (·.1) := mem_cons_of_mem _ later
        rw [if_pos later,if_pos within]
        rfl
      · have out : row.1 ∉ (other :: rest).map (·.1) := by
          rw [map_cons,mem_cons,not_or]; exact ⟨differ,later⟩
        rw [if_neg later,if_neg out]; rfl

theorem gathered_keys : ((gathered rows).map (·.1)).Nodup := by
  have fold (rows : List (Text × Value)) : ∀ before : List (Text × Value),(before.map (·.1)).Nodup →
      ((rows.foldl (fun kept row => put row kept) before).map (·.1)).Nodup := by
    induction rows with
    | nil => exact fun before distinct => distinct
    | cons row rest ih =>
      intro before distinct
      refine ih _ ?_
      rw [put_keys]
      split
      · exact distinct
      · rename_i fresh
        exact nodup_append.mpr ⟨distinct,by simp,fun a member b last same =>
          fresh (by rw [←mem_singleton.mp last,←same]; exact member)⟩
  exact fold rows [] nodup_nil

section Reading
variable {numerals : Numerals}

theorem readDigits_digit {input : Text} {read : Text × Text} (taken : readDigits input = some read) :
    ∃ u rest,input = u :: rest ∧ isDigit u = true := by
  unfold readDigits at taken
  split at taken
  · cases taken
  · rename_i some_
    cases input with
    | nil => simp at some_
    | cons u rest =>
      refine ⟨u,rest,rfl,?_⟩
      by_contra other
      simp [other] at some_

theorem readNumber_head {input : Text} {read : Text × Text} (taken : readNumber input = some read) :
    ∃ u rest,input = u :: rest ∧ (u = 45 ∨ isDigit u = true) := by
  unfold readNumber at taken
  obtain ⟨whole,found,_⟩ := bind_eq_some_iff.mp taken
  cases input with
  | nil => cases found
  | cons u rest =>
    refine ⟨u,rest,rfl,?_⟩
    by_cases sign : u = 45
    · exact .inl sign
    · have unsigned : readSign [45] (u :: rest) = ([],u :: rest) := by
        rw [readSign,if_neg (by simpa using sign)]
      have first : readWhole (u :: rest) = some whole := by rwa [unsigned] at found
      rw [readWhole] at first
      split at first
      · rename_i zero; exact .inr (by rw [zero]; decide)
      · obtain ⟨v,later,shape,digit⟩ := readDigits_digit first
        cases shape; exact .inr digit

theorem numeral_other {u : Unit16} (starts : u = 45 ∨ isDigit u = true) :
    u ≠ unit 'n' ∧ u ≠ unit 't' ∧ u ≠ unit 'f' ∧ u ≠ 34 ∧ u ≠ 91 ∧ u ≠ 123 ∧ u ≠ 93 ∧ u ≠ 125 ∧ isSpace u = false := by
  have apart (v : Unit16) (sign : v ≠ 45) (plain : isDigit v = false) : u ≠ v := by
    rintro rfl
    rcases starts with same | digit
    · exact sign same
    · rw [plain] at digit; cases digit
  refine ⟨apart _ (by decide) (by decide),apart _ (by decide) (by decide),apart _ (by decide) (by decide),
    apart _ (by decide) (by decide),apart _ (by decide) (by decide),apart _ (by decide) (by decide),
    apart _ (by decide) (by decide),apart _ (by decide) (by decide),?_⟩
  have blank := apart 32 (by decide) (by decide)
  have tab := apart 9 (by decide) (by decide)
  have feed := apart 10 (by decide) (by decide)
  have back := apart 13 (by decide) (by decide)
  simp [isSpace,blank,tab,feed,back]

theorem readValue_number {u : Unit16} (starts : u = 45 ∨ isDigit u = true) (fuel : Nat) (rest : Text) :
    readValue numerals (fuel+1) (u :: rest) =
      (readNumber (u :: rest)).map fun read => (.num (numerals.shown read.1),read.2) := by
  obtain ⟨n,t,f,quote,bracket,brace,_⟩ := numeral_other starts
  rw [readValue,if_neg n,if_neg t,if_neg f,if_neg quote,if_neg bracket,if_neg brace]

theorem stringify_head {value : Value} (sound : Sound numerals value) :
    ∃ u rest,stringify value = u :: rest ∧ u ≠ 93 ∧ u ≠ 125 ∧ isSpace u = false := by
  cases value with
  | null => exact ⟨unit 'n',_,rfl,by decide,by decide,by decide⟩
  | bool b => cases b <;> exact ⟨_,_,rfl,by decide,by decide,by decide⟩
  | str text => exact ⟨34,_,rfl,by decide,by decide,by decide⟩
  | arr items => exact ⟨91,_,rfl,by decide,by decide,by decide⟩
  | obj rows => exact ⟨123,_,rfl,by decide,by decide,by decide⟩
  | num text =>
    rw [stringify]
    split
    · exact ⟨unit 'n',_,rfl,by decide,by decide,by decide⟩
    · rename_i finite
      rw [Sound] at sound
      obtain ⟨token,_⟩ := sound.resolve_left finite
      obtain ⟨u,rest,shape,starts⟩ := readNumber_head token
      obtain ⟨_,_,_,_,_,_,bracket,brace,plain⟩ := numeral_other starts
      exact ⟨u,rest,shape,bracket,brace,plain⟩

theorem skip_plain {u : Unit16} (plain : isSpace u = false) (rest : Text) : skip (u :: rest) = u :: rest :=
  dropWhile_cons_of_neg (by simp [plain])

theorem Ends.skip {rest : Text} (ends : Ends rest) : skip rest = rest := by
  cases rest with
  | nil => rfl
  | cons u later =>
    refine skip_plain ?_ later
    rcases ends u rfl with rfl | rfl | rfl <;> decide

theorem skip_stringify {value : Value} (sound : Sound numerals value) (rest : Text) :
    skip (stringify value ++ rest) = stringify value ++ rest := by
  obtain ⟨u,later,shape,_,_,plain⟩ := stringify_head sound
  rw [shape]
  exact skip_plain plain _

theorem listed_ends (texts : List Text) {close : Unit16} (closes : close = 93 ∨ close = 125) (rest : Text) :
    Ends (listed false texts ++ close :: rest) := by
  cases texts with
  | nil => exact ends_cons (.inr closes) rest
  | cons text later => exact ends_cons (.inl rfl) _

theorem skip_items (items : List Value) (rest : Text) (sound : SoundItems numerals items) :
    skip (listed true (itemTexts items) ++ 93 :: rest) = listed true (itemTexts items) ++ 93 :: rest := by
  cases items with
  | nil => exact skip_plain (by decide) rest
  | cons item later =>
    rw [SoundItems] at sound
    obtain ⟨u,tail,shape,_,_,plain⟩ := stringify_head sound.1
    rw [itemTexts,listed,shape]
    exact skip_plain plain _

theorem skip_rows (rest : Text) :
    skip (listed true (rowTexts rows) ++ 125 :: rest) = listed true (rowTexts rows) ++ 125 :: rest := by
  cases rows with
  | nil => exact skip_plain (by decide) rest
  | cons row later => exact skip_plain (by decide : isSpace 34 = false) _

theorem soundRows_put {row : Text × Value} {rows : List (Text × Value)} (one : Sound numerals row.2)
    (sound : SoundRows numerals rows) : SoundRows numerals (put row rows) := by
  induction rows with
  | nil => exact ⟨one,trivial⟩
  | cons other rest ih =>
    rw [put]
    split
    · exact ⟨one,sound.2⟩
    · exact ⟨sound.1,ih sound.2⟩

theorem soundRows_gathered {rows : List (Text × Value)} (sound : SoundRows numerals rows) :
    SoundRows numerals (gathered rows) := by
  have fold : ∀ kept : List (Text × Value),SoundRows numerals kept →
      SoundRows numerals (rows.foldl (fun kept row => put row kept) kept) := by
    induction rows with
    | nil => exact fun kept holds => holds
    | cons row rest ih => exact fun kept holds => ih sound.2 _ (soundRows_put sound.1 holds)
  exact fold [] trivial

theorem readKey_quoted (key : Text) {rest : Text} (starts : skip rest = rest) :
    readKey (quoted key ++ 58 :: rest) = some (key,rest) := by
  have spelled : quoted key ++ 58 :: rest = 34 :: (escapes key ++ [34] ++ 58 :: rest) := by simp [quoted]
  have head : (34 :: (escapes key ++ [34] ++ 58 :: rest)).head? = some (34 : Unit16) := rfl
  rw [spelled,readKey,if_pos head,tail_cons,readText_quoted,Option.bind_some,
    skip_plain (by decide : isSpace 58 = false) rest,List.head?_cons,if_pos rfl,tail_cons,starts]

mutual
theorem readValue_stringify (value : Value) (fuel : Nat) (rest : Text) (sound : Sound numerals value)
    (enough : 2*(stringify value).length ≤ fuel+1) (ends : Ends rest) :
    readValue numerals fuel (stringify value ++ rest) = some (settled value,rest) := by
  cases fuel with
  | zero =>
    obtain ⟨u,later,shape,_⟩ := stringify_head sound
    rw [shape,length_cons] at enough
    omega
  | succ fuel =>
    match value with
    | .null => rfl
    | .bool true => rfl
    | .bool false => rfl
    | .num text =>
      rw [stringify,settled]
      rw [Sound] at sound
      split
      · rfl
      · rename_i finite
        obtain ⟨token,steady⟩ := sound.resolve_left finite
        obtain ⟨u,later,shape,starts⟩ := readNumber_head token
        have read : readNumber (text ++ rest) = some (text,rest) := by rw [ends.number,token]; rfl
        rw [shape,cons_append] at read ⊢; rw [readValue_number starts,read,map_some,←shape,steady]
    | .str text =>
      show (readText (escapes text ++ [34] ++ rest)).map _ = _
      rw [readText_quoted]
      rfl
    | .arr items =>
      rw [Sound] at sound
      rw [stringify,length_cons,length_append] at enough
      have inner := readItems_listed items fuel true rest sound (by rw [join] at enough; simp at enough; omega)
      have spelled : stringify (.arr items) ++ rest = 91 :: (listed true (itemTexts items) ++ 93 :: rest) := by
        simp [stringify,join]
      have blank : skip (listed true (itemTexts items) ++ 93 :: rest) = listed true (itemTexts items) ++ 93 :: rest :=
        skip_items items rest sound
      rw [spelled]
      show (readItems numerals fuel true (skip (listed true (itemTexts items) ++ 93 :: rest))).map _ = _
      rw [blank,inner]
      rfl
    | .obj rows =>
      rw [Sound] at sound
      rw [stringify,length_cons,length_append] at enough
      have inner := readRows_listed rows fuel true rest sound.2 (by rw [join] at enough; simp at enough; omega)
      have spelled : stringify (.obj rows) ++ rest = 123 :: (listed true (rowTexts rows) ++ 125 :: rest) := by
        simp [stringify,join]
      have blank : skip (listed true (rowTexts rows) ++ 125 :: rest) = listed true (rowTexts rows) ++ 125 :: rest :=
        skip_rows rows rest
      have distinct : ((settledRows rows).map (·.1)).Nodup := by rw [settledRows_keys]; exact sound.1
      rw [spelled]
      show (readRows numerals fuel true (skip (listed true (rowTexts rows) ++ 125 :: rest))).map _ = _
      rw [blank,inner,map_some,gathered_distinct distinct]
      rfl
termination_by structural value
theorem readItems_listed (items : List Value) (fuel : Nat) (first : Bool) (rest : Text)
    (sound : SoundItems numerals items) (enough : 2*(listed first (itemTexts items)).length+1 ≤ fuel) :
    readItems numerals fuel first (listed first (itemTexts items) ++ 93 :: rest) = some (settledItems items,rest) := by
  match items with
  | [] =>
    cases fuel with
    | zero => omega
    | succ fuel => simp [itemTexts,listed,readItems,settledItems]
  | item :: later =>
    rw [SoundItems] at sound
    obtain ⟨u,tail,shape,open_,_⟩ := stringify_head sound.1
    cases fuel with
    | zero => omega
    | succ fuel =>
      rw [itemTexts,listed,length_append,length_append] at enough
      have long : 1 ≤ (stringify item).length := by rw [shape,length_cons]; omega
      have ends := listed_ends (itemTexts later) (.inl rfl : (93 : Unit16) = 93 ∨ (93 : Unit16) = 125) rest
      have one := readValue_stringify item fuel (listed false (itemTexts later) ++ 93 :: rest) sound.1 (by omega) ends
      have others := readItems_listed later fuel false rest sound.2 (by omega)
      have body : ((readValue numerals fuel (skip (stringify item ++ (listed false (itemTexts later) ++ 93 :: rest)))).bind
          fun item => (readItems numerals fuel false (skip item.2)).map fun items => (item.1 :: items.1,items.2)) =
            some (settledItems (item :: later),rest) := by
        rw [skip_stringify sound.1,one,Option.bind_some,ends.skip,others]; rfl
      rw [itemTexts,listed,append_assoc,append_assoc,readItems]
      cases first with
      | true =>
        have head : (stringify item ++ (listed false (itemTexts later) ++ 93 :: rest)).head? ≠ some 93 := by
          rw [shape]; simpa using open_
        refine (if_neg head).trans body
      | false =>
        refine (if_neg fun same => ?_).trans body
        exact absurd (Option.some.inj same) (by decide)
termination_by structural items
theorem readRows_listed (rows : List (Text × Value)) (fuel : Nat) (first : Bool) (rest : Text)
    (sound : SoundRows numerals rows) (enough : 2*(listed first (rowTexts rows)).length+1 ≤ fuel) :
    readRows numerals fuel first (listed first (rowTexts rows) ++ 125 :: rest) = some (settledRows rows,rest) := by
  match rows with
  | [] =>
    cases fuel with
    | zero => omega
    | succ fuel => simp [rowTexts,listed,readRows,settledRows]
  | (key,value) :: later =>
    rw [SoundRows] at sound
    cases fuel with
    | zero => omega
    | succ fuel =>
      rw [rowTexts,listed,length_append,length_append,length_append,length_cons] at enough
      have ends := listed_ends (rowTexts later) (.inr rfl : (125 : Unit16) = 93 ∨ (125 : Unit16) = 125) rest
      have one := readValue_stringify value fuel (listed false (rowTexts later) ++ 125 :: rest) sound.1 (by omega) ends
      have others := readRows_listed later fuel false rest sound.2 (by omega)
      have starts := skip_stringify sound.1 (listed false (rowTexts later) ++ 125 :: rest)
      have body : ((readKey (skip (quoted key ++ 58 :: (stringify value ++ (listed false (rowTexts later) ++ 125 :: rest))))).bind
          fun key => (readValue numerals fuel key.2).bind fun value =>
          (readRows numerals fuel false (skip value.2)).map fun rows => ((key.1,value.1) :: rows.1,rows.2)) =
            some (settledRows ((key,value) :: later),rest) := by
        have plain : skip (quoted key ++ 58 :: (stringify value ++ (listed false (rowTexts later) ++ 125 :: rest))) =
            quoted key ++ 58 :: (stringify value ++ (listed false (rowTexts later) ++ 125 :: rest)) :=
          skip_plain (by decide : isSpace 34 = false) _
        rw [plain,readKey_quoted key starts,Option.bind_some,one,Option.bind_some,ends.skip,others]
        rfl
      rw [rowTexts,listed,append_assoc,append_assoc,append_assoc,cons_append,readRows]
      cases first with
      | true =>
        refine (if_neg fun same => ?_).trans body
        exact absurd (Option.some.inj same) (by decide)
      | false =>
        refine (if_neg fun same => ?_).trans body
        exact absurd (Option.some.inj same) (by decide)
termination_by structural rows
end

theorem parse_stringify (sound : Sound numerals value) : parse numerals (stringify value) = some (settled value) := by
  have read := readValue_stringify value (2*(stringify value).length+2) [] sound (by omega) (fun u head => by cases head)
  have plain := skip_stringify sound []
  rw [append_nil] at read plain
  unfold parse
  rw [plain,read]
  rfl

mutual
theorem readValue_sound (fuel : Nat) {input : Text} {read : Value × Text} (taken : readValue numerals fuel input = some read) :
    Sound numerals read.1 := by
  match fuel,input with
  | 0,_ => cases taken
  | fuel+1,[] => cases taken
  | fuel+1,u :: rest =>
    rw [readValue] at taken
    split at taken
    · obtain ⟨_,_,rfl⟩ := map_eq_some_iff.mp taken
      exact trivial
    split at taken
    · obtain ⟨_,_,rfl⟩ := map_eq_some_iff.mp taken
      exact trivial
    split at taken
    · obtain ⟨_,_,rfl⟩ := map_eq_some_iff.mp taken
      exact trivial
    split at taken
    · obtain ⟨_,_,rfl⟩ := map_eq_some_iff.mp taken
      exact trivial
    split at taken
    · obtain ⟨items,inner,rfl⟩ := map_eq_some_iff.mp taken
      exact readItems_sound fuel true inner
    split at taken
    · obtain ⟨rows,inner,rfl⟩ := map_eq_some_iff.mp taken
      exact ⟨gathered_keys rows.1,soundRows_gathered (readRows_sound fuel true inner)⟩
    · obtain ⟨token,inner,rfl⟩ := map_eq_some_iff.mp taken
      exact numerals.steady _ _ _ inner
termination_by structural fuel
theorem readItems_sound (fuel : Nat) (first : Bool) {input : Text} {read : List Value × Text}
    (taken : readItems numerals fuel first input = some read) : SoundItems numerals read.1 := by
  match fuel with
  | 0 => cases taken
  | fuel+1 =>
    rw [readItems] at taken
    split at taken
    · cases taken
      exact trivial
    · obtain ⟨later,_,taken⟩ := bind_eq_some_iff.mp taken
      obtain ⟨item,one,taken⟩ := bind_eq_some_iff.mp taken
      obtain ⟨items,others,rfl⟩ := map_eq_some_iff.mp taken
      exact ⟨readValue_sound fuel one,readItems_sound fuel false others⟩
termination_by structural fuel
theorem readRows_sound (fuel : Nat) (first : Bool) {input : Text} {read : List (Text × Value) × Text}
    (taken : readRows numerals fuel first input = some read) : SoundRows numerals read.1 := by
  match fuel with
  | 0 => cases taken
  | fuel+1 =>
    rw [readRows] at taken
    split at taken
    · cases taken
      exact trivial
    · obtain ⟨later,_,taken⟩ := bind_eq_some_iff.mp taken
      obtain ⟨key,_,taken⟩ := bind_eq_some_iff.mp taken
      obtain ⟨value,one,taken⟩ := bind_eq_some_iff.mp taken
      obtain ⟨rows,others,rfl⟩ := map_eq_some_iff.mp taken
      exact ⟨readValue_sound fuel one,readRows_sound fuel false others⟩
termination_by structural fuel
end

theorem parse_sound {input : Text} {value : Value} (read : parse numerals input = some value) :
    Sound numerals value := by
  obtain ⟨taken,first,last⟩ := bind_eq_some_iff.mp read
  split at last
  · cases last
    exact readValue_sound _ first
  · cases last

end Reading

end Js
