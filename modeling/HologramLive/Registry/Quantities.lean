import HologramLive.Artifact.Reference
import HologramLive.Registry.Listing
namespace HologramLive.Quantities
open Listing (parseUnsigned)
open Rat
open Listing

def isNumeral (c : Char) : Bool := c.isDigit || c = '.'

def splitPoint (number : Str) : Str × Str := (number.takeWhile (· ≠ '.'),(number.dropWhile (· ≠ '.')).drop 1)

def sizeUnits : List (Str × Nat) :=
  [("".toList,1),("b".toList,1),("k".toList,1000),("kb".toList,1000),("m".toList,1000000),("mb".toList,1000000),
    ("g".toList,1000000000),("gb".toList,1000000000),("t".toList,1000000000000),("tb".toList,1000000000000),
    ("ki".toList,2^10),("kib".toList,2^10),("mi".toList,2^20),("mib".toList,2^20),
    ("gi".toList,2^30),("gib".toList,2^30),("ti".toList,2^40),("tib".toList,2^40)]
def scaleOf (unit : Str) : Option Nat := sizeUnits.lookup ((trimWhitespace unit).map Char.toLower)

def checked (n : Nat) : Option Nat := if n < 2^128 then some n else none

def wholeBytes (whole : Str) (scale : Nat) : Option Nat :=
  (if whole = [] then some 0 else parseUnsigned (2^128) whole).bind fun whole => checked (whole*scale)
def placesOf (fraction : Str) : Option Nat := if fraction.length < 2^32 then some fraction.length else none
def withFraction (fraction : Str) (scale bytes : Nat) : Option Nat :=
  if fraction = [] then some bytes else do
    let places ← placesOf fraction
    let value ← parseUnsigned (2^128) fraction
    let value ← checked (value*scale)
    let power ← checked (10^places)
    checked (bytes+value/power)

def byteSize (text : Str) : Option Nat := do
  let text := trimWhitespace text
  let scale ← scaleOf (text.dropWhile isNumeral)
  let (whole,fraction) := splitPoint (text.takeWhile isNumeral)
  if whole = [] ∧ fraction = [] then none
  else do
    let bytes ← wholeBytes whole scale
    let bytes ← withFraction fraction scale bytes
    return if bytes < 2^64 then bytes else 2^64-1

-- `Duration::from_secs_f64` of an exact number: whole nanoseconds, halves to
-- the even one.
def nanosOf (seconds : Rat) : Nat :=
  let nanos := seconds*1000000000
  let low := nanos.floor
  let rest := nanos-low
  (if rest < 1/2 ∨ (rest = 1/2 ∧ low%2 = 0) then low else low+1).toNat
def durationLimit : Nat := 2^64*1000000000

inductive Panic
  | durationOverflow
deriving DecidableEq, Repr

def decimalOf (whole fraction : Str) : Rat := (Nat.ofDigitChars 10 (whole ++ fraction) 0 : Rat)/(10 : Rat)^fraction.length

def parseNumber (number : Str) : Option Rat :=
  let (whole,fraction) := splitPoint number
  if (whole = [] ∧ fraction = []) ∨ ¬(whole ++ fraction).all Char.isDigit then none
  else some (decimalOf whole fraction)

def micro : Char := Char.ofNat 0xb5
def durationUnits : List (Str × Rat) :=
  [("ns".toList,1/1000000000),("us".toList,1/1000000),([micro,'s'],1/1000000),("ms".toList,1/1000),
    ("s".toList,1),("m".toList,60),("h".toList,3600)]

def segment (rest : Str) : Option (Rat × Str) :=
  let tail := rest.dropWhile isNumeral
  if tail = [] then none else do
    let value ← parseNumber (rest.takeWhile isNumeral)
    let (unit,scale) ← durationUnits.find? fun (unit,_) => unit.isPrefixOf tail
    return (value*scale,tail.drop unit.length)

theorem durationUnits_nonempty (known : (unit,scale) ∈ durationUnits) : unit ≠ [] := by
  have all : ∀ entry ∈ durationUnits,entry.1 ≠ [] := by decide
  exact all _ known

theorem segment_parts (read : segment rest = some (seconds,after)) :
    ∃ value unit scale,parseNumber (rest.takeWhile isNumeral) = some value ∧ (unit,scale) ∈ durationUnits ∧
      rest.dropWhile isNumeral = unit ++ after ∧ seconds = value*scale := by
  unfold segment at read
  dsimp only at read
  by_cases stop : rest.dropWhile isNumeral = []
  · rw [if_pos stop] at read
    cases read
  · rw [if_neg stop] at read
    cases number : parseNumber (rest.takeWhile isNumeral) with
    | none => simp [number] at read
    | some value =>
      cases found : durationUnits.find? (fun (unit,_) => unit.isPrefixOf (rest.dropWhile isNumeral)) with
      | none => simp [number,found] at read
      | some entry =>
        obtain ⟨unit,scale⟩ := entry
        have starts := List.find?_some found
        have starts : unit <+: rest.dropWhile isNumeral := List.isPrefixOf_iff_prefix.mp starts
        obtain ⟨left,whole⟩ := starts
        simp only [number,found,Option.bind_eq_bind,Option.bind_some,Option.pure_def,Option.some.injEq,
          Prod.mk.injEq] at read
        obtain ⟨rfl,rfl⟩ := read
        refine ⟨value,unit,scale,rfl,List.mem_of_find?_eq_some found,?_,rfl⟩
        rw [←whole,List.drop_left]

theorem segment_shorter (read : segment rest = some (seconds,after)) : after.length < rest.length := by
  obtain ⟨value,unit,scale,_,known,split,_⟩ := segment_parts read
  have nonempty := List.length_pos_iff.mpr (durationUnits_nonempty known)
  have sized := congrArg List.length split
  rw [List.length_append] at sized
  have shrinks := (List.dropWhile_suffix (l := rest) isNumeral).length_le
  omega

def sumDurations (rest : Str) (total : Rat) : Option Rat :=
  if rest = [] then some total else match read : segment rest with
    | none => none
    | some (seconds,after) =>
      have := segment_shorter read
      sumDurations after (total+seconds)
termination_by rest.length

def goDuration (text : Str) : Except Panic (Option Nat) :=
  let text := trimWhitespace text
  match parseUnsigned (2^64) text with
  | some nanos => .ok (some nanos)
  | none => match sumDurations text 0 with
    | none => .ok none
    | some total =>
      if 0 < total then
        if nanosOf total < durationLimit then .ok (some (nanosOf total)) else .error .durationOverflow
      else .ok none

def zeroText (text : Str) : Bool :=
  text.any Char.isDigit && text.all (fun c => c = '0' || c = '.' || c.isAlpha) && !text.any fun c => '1' ≤ c && c ≤ '9'

def drainTimeout (text : Str) : Except Panic (Option Nat) :=
  let text := trimWhitespace text
  if zeroText text then .ok (some 0) else goDuration text

-- A decimal number: digits, at most one point, at least one digit.
inductive Decimal : Str → Str → Str → Prop
  | whole : whole ≠ [] → (∀ c ∈ whole,c.isDigit) → Decimal whole whole []
  | point : (∀ c ∈ whole,c.isDigit) → (∀ c ∈ fraction,c.isDigit) → (whole ≠ [] ∨ fraction ≠ []) →
    Decimal (whole ++ '.' :: fraction) whole fraction

def digitsOf (whole fraction : Str) : Nat := Nat.ofDigitChars 10 (whole ++ fraction) 0

section Decimals
variable {number whole fraction : Str}

theorem digit_not_point (digit : c.isDigit) : c ≠ '.' := by
  rintro rfl
  exact absurd digit (by decide)

theorem Decimal.digits (decimal : Decimal number whole fraction) :
    (∀ c ∈ whole,c.isDigit) ∧ (∀ c ∈ fraction,c.isDigit) ∧ ¬(whole = [] ∧ fraction = []) := by
  cases decimal with
  | whole nonempty digits => exact ⟨digits,fun c member => (by cases member),fun both => nonempty both.1⟩
  | point digits fractional some_ => exact ⟨digits,fractional,fun both => some_.elim (· both.1) (· both.2)⟩

theorem Decimal.numeral (decimal : Decimal number whole fraction) : ∀ c ∈ number,isNumeral c := by
  intro c member
  cases decimal with
  | whole _ digits =>
    have digit : c.isDigit = true := digits c member
    simp [isNumeral,digit]
  | point digits fractional =>
    rw [List.mem_append,List.mem_cons] at member
    obtain first | rfl | second := member
    · simp [isNumeral,digits c first]
    · rfl
    · simp [isNumeral,fractional c second]

theorem takeWhile_digits (digits : ∀ c ∈ whole,c.isDigit) : whole.takeWhile (· ≠ '.') = whole := by
  apply List.takeWhile_eq_self_iff.mpr
  intro c member
  exact decide_eq_true (digit_not_point (digits c member))

theorem Decimal.split (decimal : Decimal number whole fraction) : splitPoint number = (whole,fraction) := by
  cases decimal with
  | whole _ digits =>
    have passed : ∀ c ∈ number,decide (c ≠ '.') = true := fun c member => decide_eq_true (digit_not_point (digits c member))
    rw [splitPoint,takeWhile_digits digits,List.dropWhile_eq_nil_iff.mpr passed,List.drop_nil]
  | point digits =>
    have passed : ∀ c ∈ whole,decide (c ≠ '.') = true := fun c member => decide_eq_true (digit_not_point (digits c member))
    rw [splitPoint,List.takeWhile_append_of_pos passed,List.dropWhile_append_of_pos passed]
    simp

theorem splitPoint_decimal (split : splitPoint number = (whole,fraction)) (some_ : ¬(whole = [] ∧ fraction = []))
    (digits : ∀ c ∈ whole,c.isDigit) (fractional : ∀ c ∈ fraction,c.isDigit) : Decimal number whole fraction := by
  obtain ⟨rfl,rfl⟩ := Prod.mk.inj split
  have joined := List.takeWhile_append_dropWhile (p := fun c : Char => decide (c ≠ '.')) (l := number)
  cases tail : number.dropWhile (fun c : Char => decide (c ≠ '.')) with
  | nil =>
    rw [tail,List.append_nil] at joined
    rw [tail] at some_
    simp only [joined,List.drop_nil,and_true] at some_ digits ⊢
    exact .whole some_ digits
  | cons c rest =>
    have point : decide (c ≠ '.') = false := by
      have nonempty : number.dropWhile (fun c : Char => decide (c ≠ '.')) ≠ [] := tail ▸ List.cons_ne_nil _ _
      have head := List.head_dropWhile_not (fun c : Char => decide (c ≠ '.')) nonempty
      simp only [tail,List.head_cons] at head
      exact head
    have same : c = '.' := by simpa using point
    rw [tail] at joined some_ fractional
    subst same
    conv => arg 1; rw [←joined]
    exact .point digits fractional (not_and_or.mp some_)

theorem parseNumber_decimal (decimal : Decimal number whole fraction) :
    parseNumber number = some (decimalOf whole fraction) := by
  obtain ⟨digits,fractional,some_⟩ := decimal.digits
  have all : (whole ++ fraction).all Char.isDigit = true := by
    rw [List.all_eq_true]
    intro c member
    exact (List.mem_append.mp member).elim (digits c) (fractional c)
  rw [parseNumber,decimal.split]
  simp only [some_,all,not_true,or_self,if_false]

theorem parseNumber_some (read : parseNumber number = some value) :
    ∃ whole fraction,Decimal number whole fraction ∧ value = decimalOf whole fraction := by
  obtain ⟨whole,fraction,split⟩ : ∃ whole fraction,splitPoint number = (whole,fraction) := ⟨_,_,rfl⟩
  rw [parseNumber,split] at read
  dsimp only at read
  split at read
  · cases read
  · rename_i fits
    obtain ⟨some_,all⟩ := not_or.mp fits
    rw [not_not,List.all_eq_true] at all
    refine ⟨whole,fraction,splitPoint_decimal split some_ (fun c member => all c (List.mem_append_left _ member))
      (fun c member => all c (List.mem_append_right _ member)),?_⟩
    cases read
    rfl

end Decimals

theorem scan_number {number tail : Str} (numeral : ∀ c ∈ number,isNumeral c) (stop : ∀ c ∈ tail.head?,isNumeral c = false) :
    (number ++ tail).takeWhile isNumeral = number ∧ (number ++ tail).dropWhile isNumeral = tail := by
  rw [List.takeWhile_append_of_pos numeral,List.dropWhile_append_of_pos numeral]
  cases tail with
  | nil => simp
  | cons c rest =>
    have no := stop c rfl
    simp [no]

-- The text, but for the white space around it and before the unit, is a number
-- and a unit.
inductive SizeText (text : Str) : Str → Str → Nat → Prop
  | intro {number whole fraction unit : Str} {scale : Nat} : Decimal number whole fraction →
    trimWhitespace text = number ++ unit → scaleOf unit = some scale → SizeText text whole fraction scale

theorem scaleOf_known (known : scaleOf unit = some scale) :
    ((trimWhitespace unit).map Char.toLower,scale) ∈ sizeUnits := by
  obtain ⟨left,right,shape,_⟩ := List.lookup_eq_some_iff.mp known
  rw [shape]
  exact List.mem_append_right _ List.mem_cons_self

section Sizes
variable {text whole fraction unit : Str} {scale bytes : Nat}

def sizeOf (whole fraction : Str) (scale : Nat) : Nat := min (digitsOf whole fraction*scale/10^fraction.length) (2^64-1)
def Size (text : Str) (bytes : Nat) : Prop :=
  ∃ whole fraction scale,SizeText text whole fraction scale ∧ bytes = sizeOf whole fraction scale

def Within (whole fraction : Str) (scale : Nat) : Prop :=
  digitsOf [] whole*scale < 2^128 ∧ (fraction ≠ [] → digitsOf [] fraction*scale < 2^128 ∧ 10^fraction.length < 2^128 ∧
    digitsOf [] whole*scale+digitsOf [] fraction*scale/10^fraction.length < 2^128)
instance : Decidable (Within whole fraction scale) := inferInstanceAs (Decidable (_ ∧ (_ → _)))

theorem digitsOf_split (whole fraction : Str) :
    digitsOf whole fraction = digitsOf [] whole*10^fraction.length+digitsOf [] fraction := by
  simp only [digitsOf,List.nil_append]
  rw [Nat.ofDigitChars_append,Nat.ofDigitChars_eq_ofDigitChars_zero]
  ring

theorem sizeOf_split (whole fraction : Str) (scale : Nat) : digitsOf whole fraction*scale/10^fraction.length =
    digitsOf [] whole*scale+digitsOf [] fraction*scale/10^fraction.length := by
  have positive : 0 < 10^fraction.length := Nat.pow_pos (by decide)
  have shape : digitsOf whole fraction*scale =
      digitsOf [] fraction*scale+10^fraction.length*(digitsOf [] whole*scale) := by
    rw [digitsOf_split]
    ring
  rw [shape,Nat.add_mul_div_left _ _ positive,Nat.add_comm]

theorem numeral_not_space (numeral : isNumeral c) : isWhitespace c = false := by
  have range : c.toNat = 46 ∨ 48 ≤ c.toNat ∧ c.toNat ≤ 57 := by
    rw [isNumeral,Bool.or_eq_true,decide_eq_true_eq] at numeral
    obtain digit | rfl := numeral
    · exact .inr (by simpa [Char.isDigit,UInt32.le_iff_toNat_le] using digit)
    · exact .inl rfl
  have apart : c.toNat ∉ [32,133,160,5760,8232,8233,8239,8287,12288] := by
    simp only [List.mem_cons,List.not_mem_nil,or_false,not_or]
    omega
  simp only [isWhitespace,Bool.or_eq_false_iff,Bool.and_eq_false_iff,decide_eq_false_iff_not]
  exact ⟨⟨by omega,by omega⟩,apart⟩

theorem numeral_lower (numeral : isNumeral c) : c.toLower = c := by
  have range : c.toNat ≤ 57 := by
    rw [isNumeral,Bool.or_eq_true,decide_eq_true_eq] at numeral
    obtain digit | rfl := numeral
    · exact (by simpa [Char.isDigit,UInt32.le_iff_toNat_le] using digit : 48 ≤ c.toNat ∧ c.toNat ≤ 57).2
    · decide
  have upper : ¬(65 ≤ c.toNat ∧ c.toNat ≤ 90) := by omega
  unfold Char.toLower
  rw [dif_neg]
  simpa [UInt32.le_iff_toNat_le] using upper

theorem mem_dropWhile (member : c ∈ text) (keeps : p c = false) : c ∈ text.dropWhile p := by
  rw [←List.takeWhile_append_dropWhile (p := p) (l := text),List.mem_append] at member
  refine member.resolve_left fun taken => ?_
  have := List.mem_takeWhile_imp taken
  rw [keeps] at this
  cases this

theorem mem_trim (member : c ∈ text) (keeps : isWhitespace c = false) : c ∈ trimWhitespace text := by
  unfold trimWhitespace trimMatches trimEndMatches
  exact List.mem_reverse.mpr (mem_dropWhile (List.mem_reverse.mpr (mem_dropWhile member keeps)) keeps)

theorem scaleOf_stop (known : scaleOf unit = some scale) : ∀ c ∈ unit.head?,isNumeral c = false := by
  intro c head
  by_contra numeral
  rw [Bool.not_eq_false] at numeral
  have member := mem_trim (List.mem_of_mem_head? head) (numeral_not_space numeral)
  have lowered : c ∈ (trimWhitespace unit).map Char.toLower :=
    List.mem_map.mpr ⟨c,member,numeral_lower numeral⟩
  have plain : ∀ entry ∈ sizeUnits,∀ c ∈ entry.1,isNumeral c = false := by decide
  rw [plain _ (scaleOf_known known) c lowered] at numeral
  cases numeral

theorem parse_digits (size : Nat) (nonempty : text ≠ []) (digits : ∀ c ∈ text,c.isDigit) :
    parseUnsigned size text = if digitsOf [] text < size then some (digitsOf [] text) else none := by
  have plain : dropPlus text = text := by
    cases text with
    | nil => rfl
    | cons c rest =>
      unfold dropPlus
      split
      · rename_i plus; cases plus
        exact absurd (digits '+' List.mem_cons_self) (by decide)
      · rfl
  have all : text.all Char.isDigit = true := List.all_eq_true.mpr digits
  rw [parseUnsigned,plain]
  simp only [nonempty,all,not_true,or_self,if_false]
  rfl

theorem checked_some : checked n = some m ↔ n < 2^128 ∧ m = n := by
  unfold checked
  split
  · rename_i small
    simp only [Option.some.injEq,small,true_and]
    exact eq_comm
  · rename_i large
    exact ⟨fun no => (by cases no),fun both => absurd both.1 large⟩

theorem power_places (small : 10^fraction.length < 2^128) : fraction.length < 2^32 := by
  by_contra long
  have far : 10^39 ≤ 10^fraction.length := Nat.pow_le_pow_right (by decide) (by omega)
  have past : 2^128 < 10^39 := by decide
  omega

theorem wholeBytes_digits (positive : 1 ≤ scale) (digits : ∀ c ∈ whole,c.isDigit) :
    wholeBytes whole scale = checked (digitsOf [] whole*scale) := by
  unfold wholeBytes
  by_cases empty : whole = []
  · subst empty
    rfl
  · rw [if_neg empty,parse_digits _ empty digits]
    have larger : digitsOf [] whole ≤ digitsOf [] whole*scale := Nat.le_mul_of_pos_right _ positive
    by_cases small : digitsOf [] whole < 2^128
    · rw [if_pos small]
      rfl
    · rw [if_neg small,checked,if_neg (by omega)]
      rfl

theorem withFraction_digits (positive : 1 ≤ scale) (fractional : ∀ c ∈ fraction,c.isDigit) (nonempty : fraction ≠ []) :
    withFraction fraction scale bytes = some n ↔ (digitsOf [] fraction*scale < 2^128 ∧ 10^fraction.length < 2^128 ∧
      bytes+digitsOf [] fraction*scale/10^fraction.length < 2^128) ∧
      n = bytes+digitsOf [] fraction*scale/10^fraction.length := by
  have larger : digitsOf [] fraction ≤ digitsOf [] fraction*scale := Nat.le_mul_of_pos_right _ positive
  unfold withFraction
  rw [if_neg nonempty,parse_digits _ nonempty fractional]
  constructor
  · intro read
    simp only [Option.bind_eq_bind,Option.bind_eq_some_iff,checked_some] at read
    obtain ⟨places,placed,value,parsed,scaled,⟨valued,rfl⟩,power,⟨powered,rfl⟩,summed,rfl⟩ := read
    unfold placesOf at placed
    split at placed
    · split at parsed
      · cases placed; cases parsed
        exact ⟨⟨valued,powered,summed⟩,rfl⟩
      · cases parsed
    · cases placed
  · rintro ⟨⟨valued,powered,summed⟩,rfl⟩
    have small : digitsOf [] fraction < 2^128 := by omega
    rw [placesOf,if_pos (power_places powered),if_pos small]
    simp only [Option.bind_eq_bind,Option.bind_some,checked_some.mpr ⟨valued,rfl⟩,checked_some.mpr ⟨powered,rfl⟩]
    exact checked_some.mpr ⟨summed,rfl⟩

theorem byteSize_size (sized : SizeText text whole fraction scale) :
    byteSize text = if Within whole fraction scale then some (sizeOf whole fraction scale) else none := by
  obtain ⟨decimal,same,known⟩ := sized
  obtain ⟨taken,dropped⟩ := scan_number decimal.numeral (scaleOf_stop known)
  obtain ⟨digits,fractional,some_⟩ := decimal.digits
  have positive : 1 ≤ scale := by
    have all : ∀ entry ∈ sizeUnits,1 ≤ entry.2 := by decide
    exact all _ (scaleOf_known known)
  have capped : ∀ n,(if n < 2^64 then n else 2^64-1) = min n (2^64-1) := by
    intro n
    split <;> omega
  unfold byteSize
  simp only [same,taken,dropped,known,decimal.split,if_neg some_,Option.bind_eq_bind,Option.bind_some,Option.pure_def]
  rw [wholeBytes_digits positive digits]
  by_cases held : digitsOf [] whole*scale < 2^128
  · rw [checked_some.mpr ⟨held,rfl⟩,Option.bind_some]
    by_cases empty : fraction = []
    · subst empty
      rw [if_pos ⟨held,fun other => absurd rfl other⟩,sizeOf,digitsOf_split]
      show some _ = _
      rw [capped]
      simp [digitsOf]
    · cases added : withFraction fraction scale (digitsOf [] whole*scale) with
      | none =>
        rw [if_neg]
        · rfl
        · intro within
          have all := (withFraction_digits positive fractional empty).mpr ⟨within.2 empty,rfl⟩
          rw [added] at all; cases all
      | some n =>
        obtain ⟨fits,rfl⟩ := (withFraction_digits positive fractional empty).mp added
        rw [if_pos ⟨held,fun _ => fits⟩,Option.bind_some,capped,sizeOf,sizeOf_split whole fraction scale]
  · rw [checked,if_neg held,if_neg fun within : Within whole fraction scale => held within.1]
    rfl

theorem splitPoint_numeral (numeral : ∀ c ∈ number,isNumeral c) (split : splitPoint number = (whole,fraction)) :
    (∀ c ∈ whole,c.isDigit) ∧ ∀ c ∈ fraction,isNumeral c := by
  obtain ⟨rfl,rfl⟩ := Prod.mk.inj split
  constructor
  · intro c member
    have inside := numeral c (( List.takeWhile_prefix _).subset member)
    have apart := List.mem_takeWhile_imp member
    rw [isNumeral,Bool.or_eq_true,decide_eq_true_eq] at inside
    exact inside.resolve_right (of_decide_eq_true apart)
  · intro c member
    exact numeral c ((List.dropWhile_suffix _).subset (List.mem_of_mem_drop member))

theorem parse_numeral (numeral : ∀ c ∈ text,isNumeral c) (read : parseUnsigned size text = some n) :
    ∀ c ∈ text,c.isDigit := by
  have plain : dropPlus text = text := by
    cases text with
    | nil => rfl
    | cons c rest =>
      unfold dropPlus
      split
      · rename_i plus; cases plus
        exact absurd (numeral '+' List.mem_cons_self) (by decide)
      · rfl
  rw [parseUnsigned,plain] at read
  dsimp only at read
  split at read
  · cases read
  · rename_i fits
    have all := not_not.mp (not_or.mp fits).2
    exact fun c member => List.all_eq_true.mp all c member

theorem byteSize_some (read : byteSize text = some bytes) : ∃ whole fraction scale,SizeText text whole fraction scale := by
  unfold byteSize at read
  simp only [Option.bind_eq_bind,Option.bind_eq_some_iff] at read
  obtain ⟨scale,known,rest⟩ := read
  obtain ⟨whole,fraction,split⟩ : ∃ whole fraction,
      splitPoint ((trimWhitespace text).takeWhile isNumeral) = (whole,fraction) := ⟨_,_,rfl⟩
  rw [split] at rest
  dsimp only at rest
  have numeral : ∀ c ∈ (trimWhitespace text).takeWhile isNumeral,isNumeral c := fun c member => List.mem_takeWhile_imp member
  obtain ⟨digits,loose⟩ := splitPoint_numeral numeral split
  by_cases none_ : whole = [] ∧ fraction = []
  · rw [if_pos none_] at rest
    cases rest
  · rw [if_neg none_] at rest
    obtain ⟨_,_,more⟩ := Option.bind_eq_some_iff.mp rest
    obtain ⟨_,added,_⟩ := Option.bind_eq_some_iff.mp more
    have fractional : ∀ c ∈ fraction,c.isDigit := by
      by_cases empty : fraction = []
      · subst empty; intro c member
        cases member
      · unfold withFraction at added
        rw [if_neg empty] at added; simp only [Option.bind_eq_bind,Option.bind_eq_some_iff] at added
        obtain ⟨_,_,value,parsed,_⟩ := added
        exact parse_numeral loose parsed
    exact ⟨whole,fraction,scale,.intro (splitPoint_decimal split none_ digits fractional)
      (List.takeWhile_append_dropWhile (p := isNumeral)).symm known⟩

-- A text is read as a size exactly where it is one, and as its bytes.
def SizeRead (text : Str) : Prop := ∀ bytes,byteSize text = some bytes ↔ Size text bytes
def SizeFits (text : Str) : Prop := ∀ whole fraction scale,SizeText text whole fraction scale → Within whole fraction scale

theorem sizes_read (text : Str) : SizeRead text ↔ SizeFits text := by
  constructor
  · intro reads whole fraction scale sized
    have shown := byteSize_size sized
    by_contra beyond
    rw [if_neg beyond,(reads _).mpr ⟨whole,fraction,scale,sized,rfl⟩] at shown
    cases shown
  · intro fits bytes
    constructor
    · intro read
      obtain ⟨whole,fraction,scale,sized⟩ := byteSize_some read
      rw [byteSize_size sized,if_pos (fits _ _ _ sized)] at read
      exact ⟨whole,fraction,scale,sized,(Option.some.inj read).symm⟩
    · rintro ⟨whole,fraction,scale,sized,rfl⟩
      rw [byteSize_size sized,if_pos (fits _ _ _ sized)]

end Sizes
section Durations
variable {text rest : Str} {total sum : Rat} {nanos : Nat}

def mu : Char := Char.ofNat 0x3bc
def goUnits : List (Str × Rat) := ([mu,'s'],1/1000000) :: durationUnits

inductive Durations : Str → Rat → Prop
  | nil : Durations [] 0
  | cons {number whole fraction unit rest : Str} {scale total : Rat} : Decimal number whole fraction → (unit,scale) ∈ goUnits → Durations rest total →
    Durations (number ++ (unit ++ rest)) (decimalOf whole fraction*scale+total)

def BareCount (text : Str) (nanos : Nat) : Prop :=
  dropPlus text ≠ [] ∧ (∀ c ∈ dropPlus text,c.isDigit) ∧ nanos = digitsOf [] (dropPlus text)

def GoDuration (zero : Bool) (text : Str) (nanos : Nat) : Prop :=
  BareCount (trimWhitespace text) nanos ∨ trimWhitespace text ≠ [] ∧ ∃ total,Durations (trimWhitespace text) total ∧
    (zero = true ∨ 0 < total) ∧ nanos = nanosOf total

theorem decimal_nonempty (decimal : Decimal number whole fraction) : number ≠ [] := by
  cases decimal with
  | whole nonempty => exact nonempty
  | point => exact List.append_ne_nil_of_right_ne_nil _ (List.cons_ne_nil _ _)

theorem durations_head (durations : Durations text total) : ∀ c ∈ text.head?,isNumeral c := by
  intro c head
  cases durations with
  | nil => cases head
  | cons decimal =>
    rw [List.head?_append_of_ne_nil _ (decimal_nonempty decimal)] at head
    exact decimal.numeral c (List.mem_of_mem_head? head)

theorem goUnits_stop (known : (unit,scale) ∈ goUnits) : unit ≠ [] ∧ ∀ c ∈ unit,c.isDigit = false ∧ isNumeral c = false ∧ c ≠ '+' := by
  have all : ∀ entry ∈ goUnits,entry.1 ≠ [] ∧ ∀ c ∈ entry.1,c.isDigit = false ∧ isNumeral c = false ∧ c ≠ '+' := by decide
  exact all _ known

theorem find_unit (known : (unit,scale) ∈ durationUnits) (stop : ∀ c ∈ rest.head?,isNumeral c) :
    durationUnits.find? (fun (other,_) => other.isPrefixOf (unit ++ rest)) = some (unit,scale) := by
  have seconds : ['s'].isPrefixOf rest = false := by
    cases rest with
    | nil => rfl
    | cons c more =>
      have apart : ('s' == c) = false := by
        refine beq_false_of_ne fun same => ?_
        have digit := stop c rfl
        rw [←same] at digit; exact absurd digit (by decide)
      rw [List.isPrefixOf_cons_cons,apart,Bool.false_and]
  simp only [durationUnits,List.mem_cons,List.not_mem_nil,or_false,Prod.mk.injEq] at known
  obtain ⟨rfl,rfl⟩ | ⟨rfl,rfl⟩ | ⟨rfl,rfl⟩ | ⟨rfl,rfl⟩ | ⟨rfl,rfl⟩ | ⟨rfl,rfl⟩ | ⟨rfl,rfl⟩ := known
  all_goals simp [durationUnits,List.find?,List.isPrefixOf,micro,seconds]

theorem segment_cons {number whole fraction unit : Str} (decimal : Decimal number whole fraction)
    (known : (unit,scale) ∈ durationUnits) (stop : ∀ c ∈ rest.head?,isNumeral c) :
    segment (number ++ (unit ++ rest)) = some (decimalOf whole fraction*scale,rest) := by
  obtain ⟨nonempty,letters⟩ := goUnits_stop (List.mem_cons_of_mem _ known)
  have ends : ∀ c ∈ (unit ++ rest).head?,isNumeral c = false := by
    intro c head
    rw [List.head?_append_of_ne_nil _ nonempty] at head
    exact (letters c (List.mem_of_mem_head? head)).2.1
  obtain ⟨taken,dropped⟩ := scan_number decimal.numeral ends
  unfold segment
  simp only [taken,dropped,parseNumber_decimal decimal,find_unit known stop,Option.bind_eq_bind,Option.bind_some,
    Option.pure_def,List.drop_left]
  rw [if_neg (List.append_ne_nil_of_left_ne_nil nonempty _)]

theorem sumDurations_durations (durations : Durations text total) (plain : mu ∉ text) (start : Rat) :
    sumDurations text start = some (start+total) := by
  induction durations generalizing start with
  | nil =>
    rw [sumDurations,if_pos rfl,add_zero]
  | @cons number whole fraction unit rest scale total decimal known later ih =>
    have listed : (unit,scale) ∈ durationUnits := by
      refine (List.mem_cons.mp known).resolve_left fun greek => plain ?_
      rw [(Prod.mk.inj greek).1]
      exact List.mem_append_right _ (List.mem_append_left _ List.mem_cons_self)
    have nonempty : number ++ (unit ++ rest) ≠ [] := List.append_ne_nil_of_left_ne_nil (decimal_nonempty decimal) _
    rw [sumDurations,if_neg nonempty]
    split
    · rename_i read
      rw [segment_cons decimal listed (durations_head later)] at read
      cases read
    · rename_i seconds after read
      rw [segment_cons decimal listed (durations_head later)] at read
      cases read
      rw [ih fun inside => plain (List.mem_append_right _ (List.mem_append_right _ inside)),add_assoc]

theorem sumDurations_some (start : Rat) (read : sumDurations text start = some sum) :
    ∃ total,Durations text total ∧ mu ∉ text ∧ sum = start+total := by
  induction text,start using sumDurations.induct with
  | case1 start =>
    rw [sumDurations,if_pos rfl] at read
    cases read
    exact ⟨0,.nil,fun inside => (by cases inside),(add_zero _).symm⟩
  | case2 text start nonempty failed =>
    rw [sumDurations,if_neg nonempty] at read
    split at read
    · cases read
    · rename_i other
      rw [failed] at other
      cases other
  | case3 text start nonempty seconds after found shorter ih =>
    rw [sumDurations,if_neg nonempty] at read
    split at read
    · cases read
    · rename_i seconds' after' other
      rw [found] at other
      cases other
      obtain ⟨total,later,plain,rfl⟩ := ih read
      obtain ⟨value,unit,scale,parsed,known,split,rfl⟩ := segment_parts found
      obtain ⟨whole,fraction,decimal,rfl⟩ := parseNumber_some parsed
      have joined := List.takeWhile_append_dropWhile (p := isNumeral) (l := text)
      rw [split] at joined
      have all := Durations.cons decimal (List.mem_cons_of_mem _ known) later
      rw [joined] at all
      refine ⟨_,all,?_,add_assoc _ _ _⟩
      rw [←joined,List.mem_append,List.mem_append,not_or,not_or]
      refine ⟨fun inside => absurd (decimal.numeral _ inside) (by decide),fun inside => ?_,plain⟩
      have latin : ∀ entry ∈ durationUnits,mu ∉ entry.1 := by decide
      exact latin _ known inside

theorem bareCount_parsed : parseUnsigned (2^64) text = some nanos ↔ BareCount text nanos ∧ nanos < 2^64 := by
  unfold parseUnsigned BareCount
  dsimp only
  split
  · rename_i bad
    refine ⟨fun no => (by cases no),fun both => ?_⟩
    obtain ⟨⟨nonempty,digits,_⟩,_⟩ := both
    exact absurd bad (not_or.mpr ⟨nonempty,not_not.mpr (List.all_eq_true.mpr digits)⟩)
  · rename_i good
    obtain ⟨nonempty,digits⟩ := not_or.mp good
    rw [not_not,List.all_eq_true] at digits
    have same : digitsOf [] (dropPlus text) = Nat.ofDigitChars 10 (dropPlus text) 0 := rfl
    rw [same]
    split
    · rename_i small
      constructor
      · intro read; cases read
        exact ⟨⟨nonempty,digits,rfl⟩,small⟩
      · rintro ⟨⟨_,_,rfl⟩,_⟩
        rfl
    · rename_i large
      refine ⟨fun no => (by cases no),?_⟩
      rintro ⟨⟨_,_,rfl⟩,small⟩
      exact absurd small large

theorem bareCount_apart (count : BareCount text nanos) (durations : Durations text total) : False := by
  obtain ⟨nonempty,digits,_⟩ := count
  cases durations with
  | nil => exact nonempty rfl
  | @cons number whole fraction unit rest scale total decimal known later =>
    obtain ⟨some_,letters⟩ := goUnits_stop known
    obtain ⟨c,member⟩ := List.exists_mem_of_ne_nil _ some_
    obtain ⟨letter,_,unsigned⟩ := letters c member
    have inside : c ∈ number ++ (unit ++ rest) := List.mem_append_right _ (List.mem_append_left _ member)
    have kept : c ∈ dropPlus (number ++ (unit ++ rest)) := by
      generalize number ++ (unit ++ rest) = whole at inside
      unfold dropPlus
      split
      · exact (List.mem_cons.mp inside).resolve_left unsigned
      · exact inside
    have digit := digits c kept
    rw [letter] at digit
    cases digit

theorem goDuration_some : goDuration text = .ok (some nanos) ↔ (BareCount (trimWhitespace text) nanos ∧ nanos < 2^64) ∨
    ∃ total,Durations (trimWhitespace text) total ∧ mu ∉ trimWhitespace text ∧ 0 < total ∧ nanosOf total < durationLimit ∧
      nanos = nanosOf total := by
  unfold goDuration
  dsimp only
  cases counted : parseUnsigned (2^64) (trimWhitespace text) with
  | some n =>
    have count := bareCount_parsed.mp counted
    constructor
    · intro read
      cases read
      exact .inl count
    · rintro (other | ⟨total,durations,_⟩)
      · have again := bareCount_parsed.mpr other
        rw [counted] at again; cases again
        rfl
      · exact (bareCount_apart count.1 durations).elim
  | none =>
    constructor
    · intro read
      cases summed : sumDurations (trimWhitespace text) 0 with
      | none => rw [summed] at read; cases read
      | some total =>
        rw [summed] at read
        dsimp only at read
        obtain ⟨found,durations,plain,same⟩ := sumDurations_some 0 summed
        rw [zero_add] at same; subst same
        split at read
        · rename_i positive; split at read
          · rename_i fits; cases read
            exact .inr ⟨total,durations,plain,positive,fits,rfl⟩
          · cases read
        · cases read
    · rintro (count | ⟨total,durations,plain,positive,fits,rfl⟩)
      · rw [bareCount_parsed.mpr count] at counted; cases counted
      · rw [sumDurations_durations durations plain 0,zero_add]
        dsimp only; rw [if_pos positive,if_pos fits]

theorem goDuration_panic (panicked : goDuration text = .error e) :
    ∃ total,Durations (trimWhitespace text) total ∧ 0 < total ∧ ¬nanosOf total < durationLimit := by
  unfold goDuration at panicked
  dsimp only at panicked
  split at panicked
  · cases panicked
  · split at panicked
    · cases panicked
    · rename_i total summed
      obtain ⟨found,durations,_,same⟩ := sumDurations_some 0 summed
      rw [zero_add] at same
      subst same
      split at panicked
      · rename_i positive; split at panicked
        · cases panicked
        · rename_i beyond; exact ⟨total,durations,positive,beyond⟩
      · cases panicked

theorem accepted_total (durations : Durations (trimWhitespace text) total) (read : goDuration text = .ok (some nanos)) :
    mu ∉ trimWhitespace text ∧ 0 < total ∧ nanosOf total < durationLimit := by
  obtain ⟨count,_⟩ | ⟨found,others,plain,positive,fits,_⟩ := goDuration_some.mp read
  · exact (bareCount_apart count durations).elim
  · have first := sumDurations_durations durations plain 0
    have second := sumDurations_durations others plain 0
    rw [zero_add] at first second
    rw [first] at second
    cases second
    exact ⟨plain,positive,fits⟩

theorem accepted_count (count : BareCount (trimWhitespace text) n) (read : goDuration text = .ok (some n)) : n < 2^64 := by
  obtain ⟨_,small⟩ | ⟨found,others,_⟩ := goDuration_some.mp read
  · exact small
  · exact (bareCount_apart count others).elim

def DurationRead (zero : Bool) (answer : Except Panic (Option Nat)) (text : Str) : Prop :=
  (∀ e,answer ≠ .error e) ∧ ∀ nanos,answer = .ok (some nanos) ↔ GoDuration zero text nanos

-- A count fits a u64, and a sum of more than nothing fits a duration and names no
-- microsecond by the Greek letter.
def GoFits (text : Str) : Prop :=
  (∀ nanos,BareCount (trimWhitespace text) nanos → nanos < 2^64) ∧
    ∀ total,Durations (trimWhitespace text) total → 0 < total → mu ∉ trimWhitespace text ∧ nanosOf total < durationLimit

theorem nonempty_of_positive (durations : Durations text total) (positive : 0 < total) : text ≠ [] := by
  rintro rfl
  generalize same : ([] : Str) = text at durations
  cases durations with
  | nil => exact absurd positive (by decide)
  | cons decimal => exact decimal_nonempty decimal (List.append_eq_nil_iff.mp same.symm).1

theorem durations_read (text : Str) : DurationRead false (goDuration text) text ↔ GoFits text := by
  constructor
  · rintro ⟨_,reads⟩
    refine ⟨fun n count => accepted_count count ((reads n).mpr (.inl count)),fun total durations positive => ?_⟩
    have spec : GoDuration false text (nanosOf total) :=
      .inr ⟨nonempty_of_positive durations positive,total,durations,.inr positive,rfl⟩
    obtain ⟨plain,_,fits⟩ := accepted_total durations ((reads _).mpr spec)
    exact ⟨plain,fits⟩
  · rintro ⟨counts,sums⟩
    refine ⟨fun e panicked => ?_,fun n => ⟨fun read => ?_,?_⟩⟩
    · obtain ⟨total,durations,positive,beyond⟩ := goDuration_panic panicked
      exact beyond (sums total durations positive).2
    · obtain ⟨count,_⟩ | ⟨total,durations,_,positive,_,rfl⟩ := goDuration_some.mp read
      · exact .inl count
      · exact .inr ⟨nonempty_of_positive durations positive,total,durations,.inr positive,rfl⟩
    · rintro (count | ⟨_,total,durations,zero | positive,rfl⟩)
      · exact goDuration_some.mpr (.inl ⟨count,counts n count⟩)
      · cases zero
      · obtain ⟨plain,fits⟩ := sums total durations positive
        exact goDuration_some.mpr (.inr ⟨total,durations,plain,positive,fits,rfl⟩)

theorem dropWhile_stop (stop : ∀ c ∈ text.head?,p c = false) : text.dropWhile p = text := by
  cases text with
  | nil => rfl
  | cons c rest => rw [List.dropWhile_cons,stop c rfl,if_neg (by decide)]

theorem dropWhile_head : ∀ c ∈ (text.dropWhile p).head?,p c = false := by
  intro c head
  have nonempty : text.dropWhile p ≠ [] := by
    intro empty
    rw [empty] at head
    cases head
  have first := List.head_dropWhile_not p nonempty
  rw [List.head?_eq_some_head nonempty] at head
  cases head
  simpa using first

theorem trim_trim (text : Str) : trimWhitespace (trimWhitespace text) = trimWhitespace text := by
  have first : (trimWhitespace text).dropWhile isWhitespace = trimWhitespace text := by
    apply dropWhile_stop
    intro c head
    apply dropWhile_head c
    have starts : trimWhitespace text <+: text.dropWhile isWhitespace := by
      unfold trimWhitespace trimMatches trimEndMatches
      rw [←List.reverse_suffix,List.reverse_reverse]
      exact List.dropWhile_suffix _
    obtain ⟨rest,shape⟩ := starts
    rw [←shape,List.head?_append]
    rw [Option.mem_def.mp head]
    rfl
  have last : trimEndMatches isWhitespace (trimWhitespace text) = trimWhitespace text := by
    unfold trimWhitespace trimMatches trimEndMatches
    rw [List.reverse_reverse,dropWhile_stop dropWhile_head]
  show trimEndMatches isWhitespace ((trimWhitespace text).dropWhile isWhitespace) = _
  rw [first,last]

theorem goDuration_trim (text : Str) : goDuration (trimWhitespace text) = goDuration text := by
  unfold goDuration
  rw [trim_trim]

theorem zero_digits {digits : Str} (zeros : ∀ c ∈ digits,c = '0') (start : Nat) (none_ : start = 0) :
    Nat.ofDigitChars 10 digits start = 0 := by
  induction digits generalizing start with
  | nil => exact none_
  | cons c rest ih =>
    rw [Nat.ofDigitChars_cons]
    apply ih fun c member => zeros c (List.mem_cons_of_mem _ member)
    rw [none_,zeros c List.mem_cons_self]
    rfl

theorem zero_digit (zero : zeroText text = true) (member : c ∈ text) (digit : c.isDigit) : c = '0' := by
  unfold zeroText at zero
  rw [Bool.and_eq_true,Bool.not_eq_true',List.any_eq_false] at zero
  have low := zero.2 c member
  have range : 48 ≤ c.toNat ∧ c.toNat ≤ 57 := by simpa [Char.isDigit,UInt32.le_iff_toNat_le] using digit
  have apart : ¬(49 ≤ c.toNat ∧ c.toNat ≤ 57) := by simpa [Char.le_def,UInt32.le_iff_toNat_le] using low
  exact Char.toNat_inj.mp (by show c.toNat = 48; omega)

theorem zero_durations (zero : ∀ c ∈ text,c.isDigit → c = '0') (durations : Durations text total) : total = 0 := by
  induction durations with
  | nil => rfl
  | @cons number whole fraction unit rest scale total decimal known later ih =>
    have zeros : ∀ c ∈ whole ++ fraction,c = '0' := by
      obtain ⟨digits,fractional,_⟩ := decimal.digits
      intro c member
      have inside : c ∈ number := by
        cases decimal with
        | whole => simpa using member
        | point => rw [List.mem_append,List.mem_cons]; exact (List.mem_append.mp member).imp id .inr
      exact zero c (List.mem_append_left _ inside) ((List.mem_append.mp member).elim (digits c) (fractional c))
    have nothing : decimalOf whole fraction = 0 := by
      rw [decimalOf,zero_digits zeros 0 rfl,div_def]
      exact zero_mul _
    rw [nothing,zero_mul,zero_add]
    exact ih fun c member => zero c (List.mem_append_right _ (List.mem_append_right _ member))

theorem zero_only (zero : zeroText (trimWhitespace text) = true) (meant : GoDuration true text nanos) : nanos = 0 := by
  obtain ⟨_,digits,rfl⟩ | ⟨_,total,durations,_,rfl⟩ := meant
  · refine zero_digits (fun c member => ?_) 0 rfl
    rw [List.nil_append] at member
    have inside : c ∈ trimWhitespace text := by
      generalize trimWhitespace text = whole at member
      unfold dropPlus at member
      split at member
      · exact List.mem_cons_of_mem _ member
      · exact member
    exact zero_digit zero inside (digits c member)
  · rw [zero_durations (fun c member digit => zero_digit zero member digit) durations]
    have low : Rat.floor 0 = 0 := rfl
    have half : (0 : Rat) < 2⁻¹ := Rat.inv_pos.mpr (by decide)
    simp [nanosOf,low,half]

-- A text taken for zero is a duration; of the others no sum is nothing.
def DrainFits (text : Str) : Prop :=
  (zeroText (trimWhitespace text) = true → ∃ nanos,GoDuration true text nanos) ∧
    (zeroText (trimWhitespace text) = false → GoFits text ∧
      ∀ total,trimWhitespace text ≠ [] → Durations (trimWhitespace text) total → 0 < total)

theorem drains_read (text : Str) : DurationRead true (drainTimeout text) text ↔ DrainFits text := by
  unfold drainTimeout
  dsimp only
  rw [goDuration_trim]
  cases zero : zeroText (trimWhitespace text) with
  | true =>
    rw [if_pos rfl]
    constructor
    · rintro ⟨_,reads⟩
      exact ⟨fun _ => ⟨0,(reads 0).mp rfl⟩,fun other => absurd (zero.symm.trans other) (by decide)⟩
    · rintro ⟨meant,_⟩
      refine ⟨fun e no => (by cases no),fun n => ⟨fun read => ?_,fun spec => ?_⟩⟩
      · cases read
        obtain ⟨n,spec⟩ := meant zero
        rwa [zero_only zero spec] at spec
      · rw [zero_only zero spec]
  | false =>
    rw [if_neg (by decide)]
    constructor
    · rintro ⟨_,reads⟩
      have sums : ∀ total,trimWhitespace text ≠ [] → Durations (trimWhitespace text) total →
          mu ∉ trimWhitespace text ∧ 0 < total ∧ nanosOf total < durationLimit := fun total nonempty durations =>
        accepted_total durations ((reads (nanosOf total)).mpr (.inr ⟨nonempty,total,durations,.inl rfl,rfl⟩))
      refine ⟨fun other => absurd (zero.symm.trans other) (by decide),fun _ => ⟨⟨fun n count => ?_,?_⟩,?_⟩⟩
      · exact accepted_count count ((reads n).mpr (.inl count))
      · intro total durations positive
        obtain ⟨plain,_,fits⟩ := sums total (nonempty_of_positive durations positive) durations
        exact ⟨plain,fits⟩
      · exact fun total nonempty durations => (sums total nonempty durations).2.1
    · rintro ⟨_,fits⟩
      obtain ⟨fits,positives⟩ := fits zero
      obtain ⟨calm,reads⟩ := (durations_read text).mpr fits
      refine ⟨calm,fun n => (reads n).trans ⟨?_,?_⟩⟩
      · rintro (count | ⟨nonempty,total,durations,_,rfl⟩)
        · exact .inl count
        · exact .inr ⟨nonempty,total,durations,.inl rfl,rfl⟩
      · rintro (count | ⟨nonempty,total,durations,_,rfl⟩)
        · exact .inl count
        · exact .inr ⟨nonempty,total,durations,.inr (positives total nonempty durations),rfl⟩

theorem quantities_read (text : Str) : (SizeRead text ↔ SizeFits text) ∧
    (DurationRead false (goDuration text) text ↔ GoFits text) ∧ (DurationRead true (drainTimeout text) text ↔ DrainFits text) :=
  ⟨sizes_read text,durations_read text,drains_read text⟩

def longFraction : Str := "1.0000000000000000000000000000000000000000".toList
def nines : Str := "99999999999999999999".toList
def longDuration : Str := nines ++ "h".toList
def strayLetters : Str := "0abc".toList

theorem quantities_misread : ¬SizeRead longFraction ∧ ¬DurationRead false (goDuration longDuration) longDuration ∧
    ¬DurationRead true (drainTimeout strayLetters) strayLetters := by
  refine ⟨fun reads => ?_,fun reads => ?_,fun reads => ?_⟩
  · have decimal : Decimal ("1".toList ++ '.' :: longFraction.drop 2) "1".toList (longFraction.drop 2) :=
      .point (by decide) (by decide) (.inl (by decide))
    have same : trimWhitespace longFraction = ("1".toList ++ '.' :: longFraction.drop 2) ++ [] := by decide
    have fits := (sizes_read _).mp reads _ _ 1 (.intro decimal same (by decide))
    exact absurd fits (by decide)
  · have decimal : Decimal nines nines [] := .whole (by decide) (by decide)
    have known : ("h".toList,(3600 : Rat)) ∈ goUnits := by simp [goUnits,durationUnits]
    have same : trimWhitespace longDuration = nines ++ ("h".toList ++ []) := by decide
    have durations := Durations.cons decimal known .nil
    rw [←same] at durations
    have beyond : 0 < decimalOf nines []*3600+0 ∧ ¬nanosOf (decimalOf nines []*3600+0) < durationLimit := by decide +kernel
    exact beyond.2 (((durations_read _).mp reads).2 _ durations beyond.1).2
  · obtain ⟨n,count | ⟨_,total,durations,_⟩⟩ := ((drains_read _).mp reads).1 (by decide)
    · exact absurd (count.2.1 'a' (by decide)) (by decide)
    · have summed := sumDurations_durations durations (by decide) 0
      have stuck : segment (trimWhitespace strayLetters) = none := by decide
      rw [sumDurations,if_neg (by decide)] at summed
      split at summed
      · cases summed
      · rename_i read; rw [stuck] at read
        cases read

end Durations
end HologramLive.Quantities
