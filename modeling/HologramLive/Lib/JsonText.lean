import HologramLive.Lib.Json

namespace Json

def openBrace : Char := '\x7b'
def closeBrace : Char := '\x7d'
def quoteMark : Char := Char.ofNat 34
def backslash : Char := Char.ofNat 92

def hexDigit (n : Nat) : Char := Nat.digitChar n

def escapeChar (c : Char) : List Char :=
  if c = quoteMark then [backslash,quoteMark]
  else if c = backslash then [backslash,backslash]
  else if c.toNat = 8 then [backslash,'b']
  else if c.toNat = 9 then [backslash,'t']
  else if c.toNat = 10 then [backslash,'n']
  else if c.toNat = 12 then [backslash,'f']
  else if c.toNat = 13 then [backslash,'r']
  else if c.toNat < 32 then [backslash,'u','0','0',hexDigit (c.toNat/16),hexDigit (c.toNat%16)]
  else [c]

def printText (text : List Char) : List Char := quoteMark :: (text.flatMap escapeChar ++ [quoteMark])

mutual
def print : Json → List Char
  | .null => "null".toList
  | .bool true => "true".toList
  | .bool false => "false".toList
  | .number n => Nat.toDigits 10 n
  | .string text => printText text
  | .array items => '[' :: printItems true items
  | .object rows => openBrace :: printRows true rows
termination_by structural document => document
def printItems : Bool → List Json → List Char
  | _,[] => [']']
  | first,item :: rest => (if first then [] else [',']) ++ (print item ++ printItems false rest)
termination_by structural _ items => items
def printRows : Bool → List (List Char × Json) → List Char
  | _,[] => [closeBrace]
  | first,(key,value) :: rest =>
    (if first then [] else [',']) ++ (printText key ++ ':' :: (print value ++ printRows false rest))
termination_by structural _ rows => rows
end

def hexValue (c : Char) : Nat :=
  if c.isDigit then c.toNat-48 else if 'a' ≤ c && c ≤ 'f' then c.toNat-87 else c.toNat-55

def unescape (mark : Char) : Option Char :=
  if mark = quoteMark || mark = backslash || mark = '/' then some mark
  else if mark = 'b' then some (Char.ofNat 8)
  else if mark = 't' then some (Char.ofNat 9)
  else if mark = 'n' then some (Char.ofNat 10)
  else if mark = 'f' then some (Char.ofNat 12)
  else if mark = 'r' then some (Char.ofNat 13)
  else none

def readText : List Char → Option (List Char × List Char)
  | [] => none
  | c :: rest =>
    if c = quoteMark then some ([],rest)
    else if c = backslash then match rest with
      | 'u' :: a :: b :: d :: e :: later => (readText later).map fun read =>
          (Char.ofNat (((hexValue a*16+hexValue b)*16+hexValue d)*16+hexValue e) :: read.1,read.2)
      | mark :: later => (unescape mark).bind fun c => (readText later).map fun read => (c :: read.1,read.2)
      | [] => none
    else (readText rest).map fun read => (c :: read.1,read.2)

def separated (first : Bool) (input : List Char) : Option (List Char) :=
  if first then some input else match input with
    | ',' :: rest => some rest
    | _ => none

mutual
def readValue : Nat → List Char → Option (Json × List Char)
  | 0,_ => none
  | _,[] => none
  | fuel+1,c :: rest =>
    if c = 'n' then ("ull".toList.isPrefixOf? rest).map fun rest => (.null,rest)
    else if c = 't' then ("rue".toList.isPrefixOf? rest).map fun rest => (.bool true,rest)
    else if c = 'f' then ("alse".toList.isPrefixOf? rest).map fun rest => (.bool false,rest)
    else if c = quoteMark then (readText rest).map fun read => (.string read.1,read.2)
    else if c = '[' then (readItems fuel true rest).map fun read => (.array read.1,read.2)
    else if c = openBrace then (readRows fuel true rest).map fun read => (.object read.1,read.2)
    else if c.isDigit then
      some (.number (Nat.ofDigitChars 10 ((c :: rest).takeWhile Char.isDigit) 0),(c :: rest).dropWhile Char.isDigit)
    else none
def readItems : Nat → Bool → List Char → Option (List Json × List Char)
  | 0,_,_ => none
  | fuel+1,first,input =>
    if input.head? = some ']' then some ([],input.tail)
    else (separated first input).bind fun input =>
      (readValue fuel input).bind fun item =>
      (readItems fuel false item.2).map fun items => (item.1 :: items.1,items.2)
def readRows : Nat → Bool → List Char → Option (List (List Char × Json) × List Char)
  | 0,_,_ => none
  | fuel+1,first,input =>
    if input.head? = some closeBrace then some ([],input.tail)
    else (separated first input).bind fun input =>
      (if input.head? = some quoteMark then readText input.tail else none).bind fun key =>
      (if key.2.head? = some ':' then some key.2.tail else none).bind fun input =>
      (readValue fuel input).bind fun value =>
      (readRows fuel false value.2).map fun rows => ((key.1,value.1) :: rows.1,rows.2)
end

def parse (input : List Char) : Option Json :=
  (readValue (2*input.length) input).bind fun read => if read.2.isEmpty then some read.1 else none

theorem readText_control (small : n < 32) (rest : List Char) :
    readText (escapeChar (Char.ofNat n) ++ rest) = (readText rest).map fun read => (Char.ofNat n :: read.1,read.2) := by
  interval_cases n <;> rfl

theorem escapeChar_plain (large : ¬c.toNat < 32) (quote : c ≠ quoteMark) (slash : c ≠ backslash) :
    escapeChar c = [c] := by
  unfold escapeChar
  rw [if_neg quote,if_neg slash,if_neg (by omega),if_neg (by omega),if_neg (by omega),if_neg (by omega),
    if_neg (by omega),if_neg large]

open List

theorem readText_escaped (c : Char) (rest : List Char) :
    readText (escapeChar c ++ rest) = (readText rest).map fun read => (c :: read.1,read.2) := by
  by_cases small : c.toNat < 32
  · have same : Char.ofNat c.toNat = c := Char.ofNat_toNat c
    rw [←same]
    exact readText_control small rest
  by_cases quote : c = quoteMark
  · rw [quote]; rfl
  by_cases slash : c = backslash
  · rw [slash]; rfl
  rw [escapeChar_plain small quote slash,singleton_append]
  conv_lhs => unfold readText
  rw [if_neg quote,if_neg slash]

theorem readText_printed (text rest : List Char) :
    readText (text.flatMap escapeChar ++ quoteMark :: rest) = some (text,rest) := by
  induction text with
  | nil =>
    show readText (quoteMark :: rest) = some ([],rest)
    unfold readText
    exact if_pos rfl
  | cons c later ih => rw [flatMap_cons,append_assoc,readText_escaped,ih]; rfl

def Ends (rest : List Char) : Prop := ∀ c,rest.head? = some c → c.isDigit = false

theorem digits_end (ends : Ends rest) (n : Nat) :
    (Nat.toDigits 10 n ++ rest).takeWhile Char.isDigit = Nat.toDigits 10 n ∧
      (Nat.toDigits 10 n ++ rest).dropWhile Char.isDigit = rest := by
  have digits : ∀ c ∈ Nat.toDigits 10 n,c.isDigit = true :=
    fun c member => Nat.isDigit_of_mem_toDigits (by decide) (by decide) member
  have stop : rest.takeWhile Char.isDigit = [] ∧ rest.dropWhile Char.isDigit = rest := by
    cases rest with
    | nil => exact ⟨rfl,rfl⟩
    | cons c later =>
      have other := ends c rfl
      exact ⟨takeWhile_cons_of_neg (by simp [other]),dropWhile_cons_of_neg (by simp [other])⟩
  rw [takeWhile_append_of_pos digits,dropWhile_append_of_pos digits,stop.1,stop.2]
  exact ⟨append_nil _,rfl⟩

theorem ends_cons (other : c.isDigit = false) (rest : List Char) : Ends (c :: rest) := by
  intro d head
  cases head
  exact other

theorem printItems_ends (items : List Json) (rest : List Char) : Ends (printItems false items ++ rest) := by
  cases items with
  | nil => exact ends_cons (by decide) _
  | cons item later => exact ends_cons (by decide) _

theorem printRows_ends (rows : List (List Char × Json)) (rest : List Char) : Ends (printRows false rows ++ rest) := by
  cases rows with
  | nil => exact ends_cons (by decide) _
  | cons row later => exact ends_cons (by decide) _

theorem print_head (document : Json) : ∃ c rest,print document = c :: rest ∧ c ≠ ']' ∧ c ≠ closeBrace := by
  cases document with
  | null => exact ⟨'n',_,rfl,by decide,by decide⟩
  | bool b => cases b <;> exact ⟨_,_,rfl,by decide,by decide⟩
  | string text => exact ⟨quoteMark,_,rfl,by decide,by decide⟩
  | array items => exact ⟨'[',_,rfl,by decide,by decide⟩
  | object rows => exact ⟨openBrace,_,rfl,by decide,by decide⟩
  | number n =>
    have digits : ∀ c ∈ Nat.toDigits 10 n,c.isDigit = true :=
      fun c member => Nat.isDigit_of_mem_toDigits (by decide) (by decide) member
    cases shape : Nat.toDigits 10 n with
    | nil => exact absurd shape Nat.toDigits_ne_nil
    | cons c rest =>
      have digit := digits c (by rw [shape]; exact mem_cons_self)
      refine ⟨c,rest,shape,?_,?_⟩
      · intro same; rw [same] at digit; exact absurd digit (by decide)
      · intro same; rw [same] at digit; exact absurd digit (by decide)

theorem readValue_number (ends : Ends rest) (n fuel : Nat) :
    readValue (fuel+1) (Nat.toDigits 10 n ++ rest) = some (.number n,rest) := by
  have digits : ∀ c ∈ Nat.toDigits 10 n,c.isDigit = true :=
    fun c member => Nat.isDigit_of_mem_toDigits (by decide) (by decide) member
  obtain ⟨taken,dropped⟩ := digits_end ends n
  cases shape : Nat.toDigits 10 n with
  | nil => exact absurd shape Nat.toDigits_ne_nil
  | cons c later =>
    have digit := digits c (by rw [shape]; exact mem_cons_self)
    have other (d : Char) (plain : d.isDigit = false) : c ≠ d := by
      intro same
      rw [same,plain] at digit
      cases digit
    rw [shape,cons_append] at taken dropped
    rw [cons_append,readValue,if_neg (other _ (by decide)),if_neg (other _ (by decide)),if_neg (other _ (by decide)),
      if_neg (other _ (by decide)),if_neg (other _ (by decide)),if_neg (other _ (by decide)),if_pos digit,taken,dropped,
      ←shape,Nat.ofDigitChars_ten_toDigits]

mutual
theorem readValue_print (document : Json) (fuel : Nat) (rest : List Char)
    (enough : 2*(print document).length ≤ fuel+1) (ends : Ends rest) :
    readValue fuel (print document ++ rest) = some (document,rest) := by
  cases fuel with
  | zero =>
    obtain ⟨c,later,shape,_⟩ := print_head document
    rw [shape,length_cons] at enough
    omega
  | succ fuel =>
    match document with
    | .null => rfl
    | .bool true => rfl
    | .bool false => rfl
    | .number n => exact readValue_number ends n fuel
    | .string text =>
      show (readText (text.flatMap escapeChar ++ [quoteMark] ++ rest)).map _ = _
      rw [append_assoc,singleton_append,readText_printed]
      rfl
    | .array items =>
      show (readItems fuel true (printItems true items ++ rest)).map _ = _
      rw [print,length_cons] at enough
      rw [readItems_print items fuel true rest (by omega)]
      rfl
    | .object rows =>
      show (readRows fuel true (printRows true rows ++ rest)).map _ = _
      rw [print,length_cons] at enough
      rw [readRows_print rows fuel true rest (by omega)]
      rfl
termination_by structural document
theorem readItems_print (items : List Json) (fuel : Nat) (first : Bool) (rest : List Char)
    (enough : 2*(printItems first items).length ≤ fuel) :
    readItems fuel first (printItems first items ++ rest) = some (items,rest) := by
  match items with
  | [] =>
    cases fuel with
    | zero => simp [printItems] at enough
    | succ fuel => simp [printItems,readItems]
  | item :: later =>
    obtain ⟨c,tail,shape,open_,_⟩ := print_head item
    cases fuel with
    | zero => simp [printItems,shape] at enough
    | succ fuel =>
      rw [printItems,length_append,length_append] at enough
      have long : 1 ≤ (print item).length := by rw [shape,length_cons]; omega
      have one := readValue_print item fuel (printItems false later ++ rest) (by omega) (printItems_ends later rest)
      have others := readItems_print later fuel false rest (by omega)
      rw [printItems,readItems]
      cases first with
      | true =>
        have head : (([] ++ (print item ++ printItems false later)) ++ rest).head? ≠ some ']' := by
          rw [shape]; simpa using open_
        rw [if_pos rfl,if_neg head]
        show (readValue fuel (print item ++ printItems false later ++ rest)).bind _ = _
        rw [append_assoc,one]
        show (readItems fuel false (printItems false later ++ rest)).map _ = _
        rw [others]; rfl
      | false =>
        rw [if_neg (by simp),if_neg (by simp)]
        show (readValue fuel (print item ++ printItems false later ++ rest)).bind _ = _
        rw [append_assoc,one]
        show (readItems fuel false (printItems false later ++ rest)).map _ = _
        rw [others]; rfl
termination_by structural items
theorem readRows_print (rows : List (List Char × Json)) (fuel : Nat) (first : Bool) (rest : List Char)
    (enough : 2*(printRows first rows).length ≤ fuel) :
    readRows fuel first (printRows first rows ++ rest) = some (rows,rest) := by
  match rows with
  | [] =>
    cases fuel with
    | zero => simp [printRows] at enough
    | succ fuel => simp [printRows,readRows]
  | (key,value) :: later =>
    cases fuel with
    | zero => simp [printRows] at enough
    | succ fuel =>
      rw [printRows,length_append,length_append,length_cons,length_append] at enough
      have one := readValue_print value fuel (printRows false later ++ rest) (by omega) (printRows_ends later rest)
      have others := readRows_print later fuel false rest (by omega)
      have keyed : readText (key.flatMap escapeChar ++ quoteMark :: (':' :: (print value ++ printRows false later) ++ rest)) =
          some (key,':' :: (print value ++ (printRows false later ++ rest))) := by
        rw [readText_printed,cons_append,append_assoc]
      have spelled : printText key ++ ':' :: (print value ++ printRows false later) ++ rest =
          quoteMark :: (key.flatMap escapeChar ++ quoteMark :: (':' :: (print value ++ printRows false later) ++ rest)) := by
        simp [printText]
      rw [printRows,readRows,append_assoc,spelled]
      have body : ((if (quoteMark :: (key.flatMap escapeChar ++
            quoteMark :: (':' :: (print value ++ printRows false later) ++ rest))).head? = some quoteMark then
          readText (key.flatMap escapeChar ++ quoteMark :: (':' :: (print value ++ printRows false later) ++ rest))
          else none).bind fun key =>
        (if key.2.head? = some ':' then some key.2.tail else none).bind fun input =>
        (readValue fuel input).bind fun value =>
        (readRows fuel false value.2).map fun rows => ((key.1,value.1) :: rows.1,rows.2)) =
          some ((key,value) :: later,rest) := by
        rw [if_pos (show (quoteMark :: (key.flatMap escapeChar ++ quoteMark ::
          (':' :: (print value ++ printRows false later) ++ rest))).head? = some quoteMark from rfl),keyed]
        show (readValue fuel (print value ++ (printRows false later ++ rest))).bind _ = _
        rw [one]
        show (readRows fuel false (printRows false later ++ rest)).map _ = _
        rw [others]; rfl
      cases first with
      | true =>
        rw [if_pos rfl]
        refine (if_neg fun same => ?_).trans body
        exact absurd (Option.some.inj same) (by decide)
      | false =>
        rw [if_neg Bool.false_ne_true]
        refine (if_neg fun same => ?_).trans body
        exact absurd (Option.some.inj same) (by decide)
termination_by structural rows
end

theorem parse_print (document : Json) : parse (print document) = some document := by
  obtain ⟨c,rest,shape,_⟩ := print_head document
  have read := readValue_print document (2*(print document).length) [] (by omega) (fun c head => by cases head)
  rw [append_nil] at read
  unfold parse
  rw [read]
  rfl

end Json
