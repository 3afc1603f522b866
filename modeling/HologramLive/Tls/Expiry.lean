import HologramLive.Oci.Types
namespace HologramLive.Expiry

-- The bits of a usize.
inductive Width where
  | w32
  | w64
deriving DecidableEq, Repr

def Width.bits : Width → Nat
  | .w32 => 32
  | .w64 => 64

def lengthOf (width : Width) (size : Bytes) : Nat := size.foldl (fun length byte => length*256%2^width.bits+byte.toNat) 0

def cut (tag : UInt8) (length : Nat) (rest : Bytes) : Option (UInt8 × Bytes × Bytes) :=
  if length ≤ rest.length then some (tag,rest.take length,rest.drop length) else none

def element (width : Width) : Bytes → Option (UInt8 × Bytes × Bytes)
  | tag :: first :: rest =>
    if first.toNat < 0x80 then cut tag first.toNat rest
    else
      let count := first.toNat%0x80
      if count = 0 ∨ 4 < count ∨ rest.length < count then none
      else cut tag (lengthOf width (rest.take count)) (rest.drop count)
  | _ => none

def tagged (width : Width) (tag : UInt8) (input : Bytes) : Option Bytes :=
  (element width input).bind fun read => if read.1 = tag then some read.2.1 else none
def skip (width : Width) (input : Bytes) : Option Bytes := (element width input).map (·.2.2)

def afterVersion (width : Width) (tbs : Bytes) : Option Bytes := if tbs.head? = some 0xa0 then skip width tbs else some tbs

def timeField (width : Width) (cert : Bytes) : Option (UInt8 × Bytes) := do
  let certificate ← tagged width 0x30 cert
  let tbs ← tagged width 0x30 certificate
  let rest ← afterVersion width tbs
  let rest ← skip width rest
  let rest ← skip width rest
  let rest ← skip width rest
  let validity ← tagged width 0x30 rest
  let after ← skip width validity
  let (tag,time,_) ← element width after
  return (tag,time)

def splitBytes : Str → Nat → Option (Str × Str)
  | text,0 => some ([],text)
  | [],_+1 => none
  | c :: rest,count+1 => if c.utf8Size ≤ count+1 then (splitBytes rest (count+1-c.utf8Size)).map fun parts => (c :: parts.1,parts.2)
    else none

def unsigned : Str → Bool × Str
  | '-' :: digits => (true,digits)
  | '+' :: digits => (false,digits)
  | digits => (false,digits)
def parseInt (text : Str) : Option Int :=
  let (negative,digits) := unsigned text
  if digits = [] ∨ ¬digits.all Char.isDigit then none
  else
    let n : Nat := Nat.ofDigitChars 10 digits 0
    if negative then if n ≤ 2^63 then some (-(n : Int)) else none
    else if n < 2^63 then some (n : Int) else none

def stripZ (text : Str) : Option Str := if text.getLast? = some 'Z' then some text.dropLast else none

def yearOf (tag : UInt8) (text : Str) : Option (Int × Str) :=
  if tag = 0x17 then do
    let (year,rest) ← splitBytes text 2
    let two ← parseInt year
    return (if two < 50 then 2000+two else 1900+two,rest)
  else if tag = 0x18 then do
    let (year,rest) ← splitBytes text 4
    return (← parseInt year,rest)
  else none

structure Fields where
  year : Int
  month : Int
  day : Int
  hour : Int
  minute : Int
  second : Int
deriving DecidableEq, Repr

def field (rest : Str) (at_ : Nat) : Option Int := parseInt ((rest.drop at_).take 2)

def readTime (tag : UInt8) (time : Bytes) : Option Fields := do
  let text ← fromUtf8 time
  let text ← stripZ text
  let (year,rest) ← yearOf tag text
  if utf8Len rest ≠ 10 ∨ ¬rest.all Char.isDigit then none
  else return ⟨year,← field rest 0,← field rest 2,← field rest 4,← field rest 6,← field rest 8⟩

-- No dividend is negative but that of the era, which is divided downwards.
def daysFromCivil (year month day : Int) : Int :=
  let year := if month ≤ 2 then year-1 else year
  let era := year/400
  let yearOfEra := year-era*400
  let shifted := if month > 2 then month-3 else month+9
  let dayOfYear := (153*shifted+2)/5+day-1
  let dayOfEra := yearOfEra*365+yearOfEra/4-yearOfEra/100+dayOfYear
  era*146097+dayOfEra-719468

def Fields.seconds (f : Fields) : Int := daysFromCivil f.year f.month f.day*86400+f.hour*3600+f.minute*60+f.second

def notAfter (width : Width) (cert : Bytes) : Option Int := do
  let (tag,time) ← timeField width cert
  let fields ← readTime tag time
  return fields.seconds

-- An element: a tag, a length in one byte or in up to four after a count, and as
-- many bytes.
inductive Tlv : UInt8 → Bytes → Bytes → Bytes → Prop
  | short {tag first content rest} : first.toNat < 0x80 → content.length = first.toNat →
    Tlv tag content rest (tag :: first :: (content ++ rest))
  | long {tag first size content rest} : first.toNat = 0x80+size.length → 1 ≤ size.length → size.length ≤ 4 →
    content.length = size.foldl (fun length byte => length*256+byte.toNat) 0 →
    Tlv tag content rest (tag :: first :: (size ++ (content ++ rest)))

section Elements
variable {width : Width} {tag : UInt8} {content rest input : Bytes}

open List

theorem lengthOf_exact (size : Bytes) (start k : Nat) (small : start < 256^k) (few : k+size.length ≤ 4) :
    size.foldl (fun length byte => length*256%2^width.bits+byte.toNat) start =
      size.foldl (fun length byte => length*256+byte.toNat) start := by
  induction size generalizing start k with
  | nil => rfl
  | cons byte size ih =>
    rw [length_cons] at few
    have low : start*256+byte.toNat < 256^(k+1) := by
      have := byte.toNat_lt
      rw [Nat.pow_succ]
      omega
    have room : 256^(k+1) ≤ 2^width.bits := by
      have first : 256^(k+1) ≤ 256^4 := Nat.pow_le_pow_right (by decide) (by omega)
      have second : 256^4 ≤ 2^width.bits := by
        cases width
        · exact Nat.le_of_eq rfl
        · show 2^32 ≤ 2^64
          exact Nat.pow_le_pow_right (by decide) (by decide)
      exact first.trans second
    have fits : start*256 < 2^width.bits := (Nat.le_add_right _ byte.toNat).trans_lt (low.trans_le room)
    rw [foldl_cons,foldl_cons,Nat.mod_eq_of_lt fits]
    exact ih _ (k+1) low (by omega)

theorem cut_some {length : Nat} {tail : Bytes} {read : UInt8 × Bytes × Bytes} :
    cut tag length tail = some read ↔ ∃ content rest,read = (tag,content,rest) ∧ tail = content ++ rest ∧ content.length = length := by
  unfold cut
  constructor
  · intro found
    split at found
    · rename_i within
      cases found
      exact ⟨_,_,rfl,(take_append_drop length tail).symm,length_take_of_le within⟩
    · cases found
  · rintro ⟨content,rest,rfl,rfl,rfl⟩
    rw [if_pos (by simp),take_left,drop_left]

theorem element_iff : element width input = some (tag,content,rest) ↔ Tlv tag content rest input := by
  constructor
  · intro read
    unfold element at read
    split at read
    · rename_i first tail
      split at read
      · rename_i short
        obtain ⟨_,_,same,rfl,sized⟩ := cut_some.mp read
        cases same
        exact .short short sized
      · rename_i long
        dsimp only at read
        split at read
        · cases read
        · rename_i fits
          obtain ⟨some_,few,held⟩ : ¬first.toNat%0x80 = 0 ∧ ¬4 < first.toNat%0x80 ∧ ¬tail.length < first.toNat%0x80 := by
            simpa only [not_or] using fits
          obtain ⟨_,_,same,split,sized⟩ := cut_some.mp read
          cases same
          have counted : (tail.take (first.toNat%0x80)).length = first.toNat%0x80 := length_take_of_le (by omega)
          rw [lengthOf,lengthOf_exact _ 0 0 (by decide) (by omega)] at sized
          have joined : tail = tail.take (first.toNat%0x80) ++ (content ++ rest) := by
            rw [←split,take_append_drop]
          rw [joined]
          have := first.toNat_lt
          exact .long (by omega) (by omega) (by omega) sized
    · cases read
  · intro shape
    cases shape with
    | @short first content rest short sized =>
      rw [element,if_pos short]
      exact cut_some.mpr ⟨content,rest,rfl,rfl,sized⟩
    | @long first size content rest counted some_ few sized =>
      have count : first.toNat%0x80 = size.length := by omega
      rw [element,if_neg (by omega)]
      dsimp only
      rw [count,if_neg (by rw [length_append]; omega),take_left,drop_left]
      refine cut_some.mpr ⟨content,rest,rfl,rfl,?_⟩
      rw [lengthOf,lengthOf_exact _ 0 0 (by decide) (by omega)]
      exact sized

theorem tagged_iff : tagged width tag input = some content ↔ ∃ rest,Tlv tag content rest input := by
  unfold tagged
  rw [Option.bind_eq_some_iff]
  constructor
  · rintro ⟨⟨found,inner,after⟩,read,kept⟩
    split at kept
    · rename_i same
      cases kept
      cases same
      exact ⟨after,element_iff.mp read⟩
    · cases kept
  · rintro ⟨after,shape⟩
    exact ⟨_,element_iff.mpr shape,if_pos rfl⟩

theorem skip_iff : skip width input = some rest ↔ ∃ tag content,Tlv tag content rest input := by
  unfold skip
  rw [Option.map_eq_some_iff]
  constructor
  · rintro ⟨⟨tag,content,_⟩,read,rfl⟩
    exact ⟨tag,content,element_iff.mp read⟩
  · rintro ⟨tag,content,shape⟩
    exact ⟨_,element_iff.mpr shape,rfl⟩

end Elements

def Skipped (input rest : Bytes) : Prop := ∃ tag content,Tlv tag content rest input

-- Certificate, to-be-signed part, version if there is one, serial, signature and
-- issuer, validity, its first and its second time.
structure Path (cert : Bytes) (tag : UInt8) (time : Bytes) : Prop where
  walk : ∃ certificate tbs validity after body serial signature issuer,
    (∃ rest,Tlv 0x30 certificate rest cert) ∧ (∃ rest,Tlv 0x30 tbs rest certificate) ∧
    (if tbs.head? = some 0xa0 then Skipped tbs body else body = tbs) ∧
    Skipped body serial ∧ Skipped serial signature ∧ Skipped signature issuer ∧
    (∃ rest,Tlv 0x30 validity rest issuer) ∧ Skipped validity after ∧ ∃ rest,Tlv tag time rest after

theorem timeField_iff : timeField width cert = some (tag,time) ↔ Path cert tag time := by
  unfold timeField
  simp only [Option.bind_eq_bind,Option.bind_eq_some_iff,Option.pure_def]
  constructor
  · rintro ⟨certificate,one,tbs,two,body,version,serial,three,signature,four,issuer,five,validity,six,after,seven,
      ⟨found,content,rest⟩,eight,same⟩
    cases same
    refine ⟨certificate,tbs,validity,after,body,serial,signature,issuer,tagged_iff.mp one,tagged_iff.mp two,?_,
      skip_iff.mp three,skip_iff.mp four,skip_iff.mp five,tagged_iff.mp six,skip_iff.mp seven,rest,element_iff.mp eight⟩
    unfold afterVersion at version
    split at version
    · rename_i present
      rw [if_pos present]
      exact skip_iff.mp version
    · rename_i absent
      rw [if_neg absent]
      exact (Option.some.inj version).symm
  · rintro ⟨certificate,tbs,validity,after,body,serial,signature,issuer,one,two,version,three,four,five,six,seven,rest,eight⟩
    refine ⟨certificate,tagged_iff.mpr one,tbs,tagged_iff.mpr two,body,?_,serial,skip_iff.mpr three,signature,skip_iff.mpr four,
      issuer,skip_iff.mpr five,validity,tagged_iff.mpr six,after,skip_iff.mpr seven,_,element_iff.mpr eight,rfl⟩
    unfold afterVersion
    split at version
    · rename_i present
      rw [if_pos present]
      exact skip_iff.mpr version
    · rename_i absent
      rw [if_neg absent]
      exact congrArg some version.symm

def leap (year : Nat) : Bool := year%4 = 0 && (year%100 ≠ 0 || year%400 = 0)
def monthLength (year month : Nat) : Nat :=
  if month = 2 then if leap year then 29 else 28 else if month = 4 ∨ month = 6 ∨ month = 9 ∨ month = 11 then 30 else 31
def daysBeforeYear : Nat → Nat
  | 0 => 0
  | year+1 => daysBeforeYear year+if leap year then 366 else 365
def daysBeforeMonth (year month : Nat) : Nat := ((List.range' 1 (month-1)).map (monthLength year)).sum

structure Instant where
  year : Nat
  month : Nat
  day : Nat
  hour : Nat
  minute : Nat
  second : Nat
deriving DecidableEq, Repr

structure Instant.Real (i : Instant) : Prop where
  month : 1 ≤ i.month ∧ i.month ≤ 12
  day : 1 ≤ i.day ∧ i.day ≤ monthLength i.year i.month
  clock : i.hour < 24 ∧ i.minute < 60 ∧ i.second < 60

-- Days since the first of January of the year nought, less those before 1970.
def Instant.unix (i : Instant) : Int :=
  ((daysBeforeYear i.year+daysBeforeMonth i.year i.month+(i.day-1) : Nat)-(daysBeforeYear 1970 : Nat) : Int)*86400+
    i.hour*3600+i.minute*60+i.second

def Instant.fields (i : Instant) : Fields := ⟨i.year,i.month,i.day,i.hour,i.minute,i.second⟩

theorem daysBeforeYear_closed (year : Nat) :
    daysBeforeYear year+(year+99)/100 = 365*year+(year+3)/4+(year+399)/400 := by
  induction year with
  | zero => rfl
  | succ year ih =>
    rw [daysBeforeYear]
    by_cases long : leap year = true
    · rw [if_pos long]
      simp only [leap,Bool.and_eq_true,Bool.or_eq_true,decide_eq_true_eq] at long
      omega
    · rw [if_neg long]
      simp only [leap,Bool.and_eq_true,Bool.or_eq_true,decide_eq_true_eq,not_and_or,not_or] at long
      omega

theorem daysBeforeMonth_closed (some_ : 1 ≤ month) (last : month ≤ 12) :
    daysBeforeMonth year month = if month ≤ 2 then 31*(month-1) else (153*(month-3)+2)/5+59+if leap year then 1 else 0 := by
  interval_cases month <;> cases long : leap year <;> simp [daysBeforeMonth,monthLength,List.range',long]

def marchDays (year : Int) : Int := 365*year+year/4-year/100+year/400

theorem era_days (year : Int) :
    year/400*146097+((year-year/400*400)*365+(year-year/400*400)/4-(year-year/400*400)/100) = marchDays year := by
  have quarters : (year-year/400*400)/4 = year/4-year/400*100 := by omega
  have centuries : (year-year/400*400)/100 = year/100-year/400*4 := by omega
  unfold marchDays
  omega

theorem marchDays_year (year : Nat) : marchDays ((year : Int)-1)+366 = (daysBeforeYear year : Nat) := by
  have closed := daysBeforeYear_closed year
  have quarters : ((year : Int)-1)/4+1 = ((year+3)/4 : Nat) := by omega
  have centuries : ((year : Int)-1)/100+1 = ((year+99)/100 : Nat) := by omega
  have eras : ((year : Int)-1)/400+1 = ((year+399)/400 : Nat) := by omega
  unfold marchDays
  omega

theorem daysFromCivil_march (year month day : Int) : daysFromCivil year month day =
    marchDays (if month ≤ 2 then year-1 else year)+((153*(if month > 2 then month-3 else month+9)+2)/5+day-1)-719468 := by
  have era := era_days (if month ≤ 2 then year-1 else year)
  unfold daysFromCivil
  dsimp only
  rw [←era]
  omega

theorem daysFromCivil_exact (i : Instant) (month : 1 ≤ i.month ∧ i.month ≤ 12) (day : 1 ≤ i.day) :
    daysFromCivil i.year i.month i.day =
      ((daysBeforeYear i.year+daysBeforeMonth i.year i.month+(i.day-1) : Nat)-(daysBeforeYear 1970 : Nat) : Int) := by
  have epoch : daysBeforeYear 1970 = 719528 := by
    have closed := daysBeforeYear_closed 1970
    omega
  rw [daysBeforeMonth_closed month.1 month.2,daysFromCivil_march,epoch]
  by_cases early : i.month ≤ 2
  · have start := marchDays_year i.year
    rw [if_pos early,if_pos (by omega),if_neg (by omega)]
    generalize marchDays ((i.year : Int)-1) = march at start ⊢
    omega
  · have start := marchDays_year (i.year+1)
    have same : ((i.year+1 : Nat) : Int)-1 = i.year := by omega
    rw [same,daysBeforeYear] at start
    rw [if_neg early,if_neg (by omega),if_pos (by omega)]
    generalize marchDays (i.year : Int) = march at start ⊢
    cases long : leap i.year with
    | true =>
      rw [long,if_pos rfl] at start
      rw [if_pos rfl]
      omega
    | false =>
      rw [long,if_neg (by decide)] at start
      rw [if_neg (by decide)]
      omega

theorem seconds_exact {i : Instant} (real : i.Real) : i.fields.seconds = i.unix := by
  unfold Fields.seconds Instant.unix
  rw [←daysFromCivil_exact i real.month real.day.1]
  rfl

def padded : Nat → Nat → Str
  | 0,_ => []
  | places+1,n => padded places (n/10) ++ [Nat.digitChar (n%10)]

def Instant.clockText (i : Instant) : Str :=
  padded 2 i.month ++ (padded 2 i.day ++ (padded 2 i.hour ++ (padded 2 i.minute ++ padded 2 i.second)))

inductive Written : UInt8 → Instant → Str → Prop
  | utc {i : Instant} : 1950 ≤ i.year → i.year < 2050 → Written 0x17 i (padded 2 (i.year%100) ++ i.clockText)
  | generalized {i : Instant} : i.year < 10000 → Written 0x18 i (padded 4 i.year ++ i.clockText)

section Texts
variable {text year rest : Str} {n places : Nat}

theorem digitChar_digit (small : d < 10) : (Nat.digitChar d).isDigit = true ∧ (Nat.digitChar d).toNat = 48+d := by
  interval_cases d <;> exact ⟨rfl,rfl⟩

theorem digit_char (digit : c.isDigit) : ∃ d < 10,c = Nat.digitChar d := by
  have range : 48 ≤ c.toNat ∧ c.toNat ≤ 57 := by simpa [Char.isDigit,UInt32.le_iff_toNat_le] using digit
  refine ⟨c.toNat-48,by omega,?_⟩
  apply Char.toNat_inj.mp
  rw [(digitChar_digit (by omega)).2]
  omega

theorem padded_digits (places n : Nat) : (padded places n).length = places ∧ ∀ c ∈ padded places n,c.isDigit := by
  induction places generalizing n with
  | zero => exact ⟨rfl,fun c no => (by cases no)⟩
  | succ places ih =>
    obtain ⟨length,digits⟩ := ih (n/10)
    refine ⟨by rw [padded,List.length_append,length]; rfl,fun c member => ?_⟩
    rcases List.mem_append.mp member with early | last
    · exact digits c early
    · rw [List.mem_singleton.mp last]
      exact (digitChar_digit (Nat.mod_lt n (by decide))).1

theorem padded_value (small : n < 10^places) : Nat.ofDigitChars 10 (padded places n) 0 = n := by
  induction places generalizing n with
  | zero =>
    rw [Nat.pow_zero] at small
    exact (Nat.lt_one_iff.mp small).symm
  | succ places ih =>
    rw [Nat.pow_succ] at small
    rw [padded,Nat.ofDigitChars_append,ih (by omega),Nat.ofDigitChars_cons,Nat.ofDigitChars_nil,
      (digitChar_digit (Nat.mod_lt n (by decide))).2]
    have zero : '0'.toNat = 48 := rfl
    omega

theorem digits_padded (digits : ∀ c ∈ text,c.isDigit) : ∃ n < 10^text.length,text = padded text.length n := by
  induction text using List.reverseRecOn with
  | nil => exact ⟨0,by decide,rfl⟩
  | append_singleton before c ih =>
    obtain ⟨n,small,same⟩ := ih fun c member => digits c (List.mem_append_left _ member)
    obtain ⟨d,low,rfl⟩ := digit_char (digits c (List.mem_append_right _ List.mem_cons_self))
    refine ⟨n*10+d,?_,?_⟩
    · rw [List.length_append,List.length_singleton,Nat.pow_succ]
      omega
    · have quotient : (n*10+d)/10 = n := by omega
      have remainder : (n*10+d)%10 = d := by omega
      rw [List.length_append,List.length_singleton,padded,quotient,remainder,←same]

theorem utf8Len_digits (digits : ∀ c ∈ text,c.isDigit) : utf8Len text = text.length := by
  induction text with
  | nil => rfl
  | cons c rest ih =>
    obtain ⟨digit,later⟩ := List.forall_mem_cons.mp digits
    obtain ⟨d,low,rfl⟩ := digit_char digit
    have one : (Nat.digitChar d).utf8Size = 1 := by
      interval_cases d <;> rfl
    have sized := ih later
    simp only [utf8Len,List.map_cons,List.sum_cons,one,List.length_cons] at sized ⊢
    omega

theorem splitBytes_digits (digits : ∀ c ∈ year,c.isDigit) : splitBytes (year ++ rest) year.length = some (year,rest) := by
  induction year with
  | nil =>
    unfold splitBytes
    cases rest <;> rfl
  | cons c year ih =>
    obtain ⟨digit,later⟩ := List.forall_mem_cons.mp digits
    obtain ⟨d,low,rfl⟩ := digit_char digit
    have one : (Nat.digitChar d).utf8Size = 1 := by
      interval_cases d <;> rfl
    rw [List.cons_append,List.length_cons,splitBytes,one,if_pos (by omega),Nat.add_sub_cancel,ih later]
    rfl

theorem splitBytes_some (split : splitBytes text count = some (year,rest)) :
    text = year ++ rest ∧ utf8Len year = count := by
  induction text generalizing count year with
  | nil =>
    cases count with
    | zero => cases split; exact ⟨rfl,rfl⟩
    | succ => cases split
  | cons c text ih =>
    cases count with
    | zero => cases split; exact ⟨rfl,rfl⟩
    | succ count =>
      rw [splitBytes] at split
      split at split
      · obtain ⟨⟨before,after⟩,found,same⟩ := Option.map_eq_some_iff.mp split
        cases same
        obtain ⟨rfl,length⟩ := ih found
        refine ⟨rfl,?_⟩
        simp only [utf8Len,List.map_cons,List.sum_cons] at length ⊢
        omega
      · cases split

def Signed (text : Str) : Prop := text.head? = some '+' ∨ text.head? = some '-'

theorem unsigned_plain (plain : ¬Signed text) : unsigned text = (false,text) := by
  unfold unsigned
  split
  · exact absurd (.inr rfl) plain
  · exact absurd (.inl rfl) plain
  · rfl

theorem digits_plain (digits : ∀ c ∈ text,c.isDigit) : ¬Signed text := by
  rintro (plus | minus)
  · exact absurd (digits _ (List.mem_of_mem_head? plus)) (by decide)
  · exact absurd (digits _ (List.mem_of_mem_head? minus)) (by decide)

theorem parseInt_digits (plain : ¬Signed text) (parsed : parseInt text = some v) :
    (∀ c ∈ text,c.isDigit) ∧ text ≠ [] ∧ v = (Nat.ofDigitChars 10 text 0 : Nat) := by
  rw [parseInt,unsigned_plain plain] at parsed
  dsimp only at parsed
  split at parsed
  · cases parsed
  · rename_i good
    obtain ⟨nonempty,all⟩ := not_or.mp good
    rw [not_not,List.all_eq_true] at all
    rw [if_neg (by decide)] at parsed
    split at parsed
    · cases parsed
      exact ⟨all,nonempty,rfl⟩
    · cases parsed

theorem parseInt_padded (some_ : 0 < places) (few : places ≤ 4) (small : n < 10^places) :
    parseInt (padded places n) = some (n : Int) := by
  obtain ⟨length,digits⟩ := padded_digits places n
  have nonempty : padded places n ≠ [] := by
    intro empty
    rw [empty] at length
    exact absurd length (by show ¬0 = places; omega)
  have bound : n < 2^63 := by
    have most : 10^places ≤ 10^4 := Nat.pow_le_pow_right (by decide) few
    omega
  rw [parseInt,unsigned_plain (digits_plain digits)]
  dsimp only
  rw [if_neg (by simp only [nonempty,List.all_eq_true.mpr digits,not_true,or_self,not_false_eq_true]),if_neg (by decide),
    padded_value small,if_pos bound]

end Texts
-- What `not_after` checks no field for.
structure Fields.InRange (f : Fields) : Prop where
  month : 1 ≤ f.month ∧ f.month ≤ 12
  day : 1 ≤ f.day ∧ f.day ≤ monthLength f.year.toNat f.month.toNat
  clock : f.hour < 24 ∧ f.minute < 60 ∧ f.second < 60

theorem inRange_real (i : Instant) : i.fields.InRange ↔ i.Real := by
  have years : i.fields.year.toNat = i.year := rfl
  have months : i.fields.month.toNat = i.month := rfl
  have month : i.fields.month = i.month := rfl
  have day : i.fields.day = i.day := rfl
  have hour : i.fields.hour = i.hour := rfl
  have minute : i.fields.minute = i.minute := rfl
  have second : i.fields.second = i.second := rfl
  constructor
  · rintro ⟨one,two,three⟩
    rw [month] at one
    rw [day,years,months] at two
    rw [hour,minute,second] at three
    exact ⟨by omega,by omega,by omega⟩
  · rintro ⟨one,two,three⟩
    refine ⟨?_,?_,?_⟩
    · rw [month]
      omega
    · rw [day,years,months]
      omega
    · rw [hour,minute,second]
      omega

section Times
variable {tag : UInt8} {time : Bytes} {text rest : Str} {fields : Fields} {i : Instant}

structure Instant.Small (i : Instant) : Prop where
  month : i.month < 10^2
  day : i.day < 10^2
  hour : i.hour < 10^2
  minute : i.minute < 10^2
  second : i.second < 10^2

theorem field_padded {before after : Str} {n : Nat} (small : n < 10^2) :
    field (before ++ (padded 2 n ++ after)) before.length = some (n : Int) := by
  have two : (padded 2 n).length = 2 := (padded_digits 2 n).1
  have taken : (padded 2 n ++ after).take 2 = padded 2 n := by
    rw [List.take_append_of_le_length (by omega),List.take_of_length_le (by omega)]
  rw [field,List.drop_left,taken]
  exact parseInt_padded (by decide) (by decide) small

theorem clockText_digits (i : Instant) : i.clockText.length = 10 ∧ ∀ c ∈ i.clockText,c.isDigit := by
  have each (n : Nat) := padded_digits 2 n
  unfold Instant.clockText
  constructor
  · simp only [List.length_append,(each _).1]
  · intro c member
    simp only [List.mem_append] at member
    rcases member with m | m | m | m | m <;> exact (each _).2 c m

theorem clockText_fields (small : i.Small) : field i.clockText 0 = some (i.month : Int) ∧
    field i.clockText 2 = some (i.day : Int) ∧ field i.clockText 4 = some (i.hour : Int) ∧
    field i.clockText 6 = some (i.minute : Int) ∧ field i.clockText 8 = some (i.second : Int) := by
  have each (n : Nat) : (padded 2 n).length = 2 := (padded_digits 2 n).1
  have first := @field_padded [] (padded 2 i.day ++ (padded 2 i.hour ++ (padded 2 i.minute ++ padded 2 i.second))) _ small.month
  have second := @field_padded (padded 2 i.month) (padded 2 i.hour ++ (padded 2 i.minute ++ padded 2 i.second)) _ small.day
  have third := @field_padded (padded 2 i.month ++ padded 2 i.day) (padded 2 i.minute ++ padded 2 i.second) _ small.hour
  have fourth := @field_padded (padded 2 i.month ++ (padded 2 i.day ++ padded 2 i.hour)) (padded 2 i.second) _ small.minute
  have fifth := @field_padded (padded 2 i.month ++ (padded 2 i.day ++ (padded 2 i.hour ++ padded 2 i.minute))) [] _ small.second
  simp only [List.append_assoc,List.append_nil,List.length_append,each] at second third fourth fifth
  exact ⟨first,second,third,fourth,fifth⟩

theorem digits_clockText (length : rest.length = 10) (digits : ∀ c ∈ rest,c.isDigit) (year : Nat) :
    ∃ i : Instant,i.year = year ∧ i.Small ∧ rest = i.clockText := by
  have pair (text : Str) (two : text.length = 2) (inside : ∀ c ∈ text,c ∈ rest) : ∃ n < 10^2,text = padded 2 n := by
    obtain ⟨n,small,same⟩ := digits_padded fun c member => digits c (inside c member)
    rw [two] at small same
    exact ⟨n,small,same⟩
  obtain ⟨month,one,first⟩ := pair (rest.take 2) (by rw [List.length_take]; omega) fun c m => List.mem_of_mem_take m
  obtain ⟨day,two,second⟩ := pair ((rest.drop 2).take 2) (by rw [List.length_take,List.length_drop]; omega)
    fun c m => List.mem_of_mem_drop (List.mem_of_mem_take m)
  obtain ⟨hour,three,third⟩ := pair ((rest.drop 4).take 2) (by rw [List.length_take,List.length_drop]; omega)
    fun c m => List.mem_of_mem_drop (List.mem_of_mem_take m)
  obtain ⟨minute,four,fourth⟩ := pair ((rest.drop 6).take 2) (by rw [List.length_take,List.length_drop]; omega)
    fun c m => List.mem_of_mem_drop (List.mem_of_mem_take m)
  obtain ⟨seconds,five,fifth⟩ := pair (rest.drop 8) (by rw [List.length_drop]; omega) fun c m => List.mem_of_mem_drop m
  refine ⟨⟨year,month,day,hour,minute,seconds⟩,rfl,⟨one,two,three,four,five⟩,?_⟩
  have step (k : Nat) : rest.drop k = (rest.drop k).take 2 ++ rest.drop (k+2) := by
    rw [←List.drop_drop,List.take_append_drop]
  show rest = padded 2 month ++ (padded 2 day ++ (padded 2 hour ++ (padded 2 minute ++ padded 2 seconds)))
  rw [←first,←second,←third,←fourth,←fifth,←step 6,←step 4,←step 2,List.take_append_drop]

theorem stripZ_some : stripZ text = some rest ↔ text = rest ++ ['Z'] := by
  unfold stripZ
  constructor
  · intro stripped
    split at stripped
    · rename_i last
      cases stripped
      obtain ⟨before,rfl⟩ := List.getLast?_eq_some_iff.mp last
      rw [List.dropLast_concat]
    · cases stripped
  · rintro rfl
    rw [if_pos (by simp),List.dropLast_concat]

theorem signed_append (nonempty : text ≠ []) : Signed (text ++ more) ↔ Signed text := by
  cases text with
  | nil => exact absurd rfl nonempty
  | cons c rest => rfl

theorem written_read (written : Written tag i text) (small : i.Small) :
    readTime tag (toUtf8 (text ++ ['Z'])) = some i.fields ∧ ¬Signed (text ++ ['Z']) := by
  obtain ⟨length,digits⟩ := clockText_digits i
  obtain ⟨month,day,hour,minute,second⟩ := clockText_fields small
  have sized : utf8Len i.clockText = 10 := by rw [utf8Len_digits digits,length]
  have all : i.clockText.all Char.isDigit = true := List.all_eq_true.mpr digits
  have plain (places n : Nat) : ¬Signed (padded places n ++ i.clockText ++ ['Z']) := by
    have nonempty : padded places n ++ i.clockText ≠ [] := by
      intro empty
      have none_ := (List.append_eq_nil_iff.mp empty).2
      rw [none_] at length
      cases length
    rw [signed_append nonempty]
    refine digits_plain fun c member => ?_
    exact (List.mem_append.mp member).elim ((padded_digits places n).2 c) (digits c)
  have decoded : fromUtf8 (toUtf8 (text ++ ['Z'])) = some (text ++ ['Z']) := fromUtf8_iff.mpr rfl
  have stripped : stripZ (text ++ ['Z']) = some text := stripZ_some.mpr rfl
  have rest (year : Int) (found : yearOf tag text = some (year,i.clockText)) (same : year = i.year) :
      readTime tag (toUtf8 (text ++ ['Z'])) = some i.fields := by
    subst same
    unfold readTime
    rw [decoded]
    simp only [Option.bind_eq_bind,Option.bind_some,stripped,found,sized,all,not_true,ne_eq,or_self,if_false,
      month,day,hour,minute,second,Option.pure_def]
    rfl
  cases written with
  | utc after before =>
    refine ⟨rest i.year ?_ rfl,plain 2 _⟩
    have split := @splitBytes_digits (padded 2 (i.year%100)) i.clockText (padded_digits 2 _).2
    rw [(padded_digits 2 _).1] at split
    have low : i.year%100 < 10^2 := Nat.mod_lt _ (by decide)
    have parsed := parseInt_padded (by decide) (by decide) low
    have century : (if ((i.year%100 : Nat) : Int) < 50 then 2000+((i.year%100 : Nat) : Int)
        else 1900+((i.year%100 : Nat) : Int)) = i.year := by
      split <;> omega
    rw [yearOf,if_pos rfl,split]
    simp only [Option.bind_eq_bind,Option.bind_some,parsed,Option.pure_def]
    rw [century]
  | generalized before =>
    refine ⟨rest i.year ?_ rfl,plain 4 _⟩
    have split := @splitBytes_digits (padded 4 i.year) i.clockText (padded_digits 4 _).2
    rw [(padded_digits 4 _).1] at split
    have low : i.year < 10^4 := before
    have parsed := parseInt_padded (by decide) (by decide) low
    rw [yearOf,if_neg (by decide),if_pos rfl,split]
    simp only [Option.bind_eq_bind,Option.bind_some,parsed,Option.pure_def]

theorem length_of_digits (sized : utf8Len rest = n) (digits : ∀ c ∈ rest,c.isDigit) : rest.length = n := by
  rw [←utf8Len_digits digits]
  exact sized

theorem read_written (read : readTime tag time = some fields) : ∃ text,time = toUtf8 (text ++ ['Z']) ∧
    (¬Signed (text ++ ['Z']) → ∃ i,Written tag i text ∧ i.Small ∧ fields = i.fields) := by
  unfold readTime at read
  simp only [Option.bind_eq_bind,Option.bind_eq_some_iff] at read
  obtain ⟨whole,decoded,text,stripped,⟨year,rest⟩,found,read⟩ := read
  obtain rfl := stripZ_some.mp stripped
  refine ⟨text,fromUtf8_iff.mp decoded,fun plain => ?_⟩
  split at read
  · cases read
  · rename_i fits
    obtain ⟨ten,all⟩ := not_or.mp fits
    rw [ne_eq,not_not] at ten
    rw [not_not,List.all_eq_true] at all
    simp only [Option.bind_eq_some_iff,Option.pure_def,Option.some.injEq] at read
    obtain ⟨month,one,day,two,hour,three,minute,four,second,five,rfl⟩ := read
    have length := length_of_digits ten all
    -- The year is that of the text before the ten digits.
    have finish (places n : Nat) (before : Str) (y : Nat) (named : year = y) :
        ∃ i : Instant,i.year = y ∧ i.Small ∧ rest = i.clockText ∧ (⟨year,month,day,hour,minute,second⟩ : Fields) = i.fields := by
      obtain ⟨i,rfl,small,rfl⟩ := digits_clockText length all y
      obtain ⟨one',two',three',four',five'⟩ := clockText_fields small
      rw [one'] at one
      rw [two'] at two
      rw [three'] at three
      rw [four'] at four
      rw [five'] at five
      cases one; cases two; cases three; cases four; cases five
      exact ⟨i,rfl,small,rfl,by rw [named]; rfl⟩
    unfold yearOf at found
    split at found
    · rename_i utc
      subst utc
      simp only [Option.bind_eq_bind,Option.bind_eq_some_iff,Option.pure_def,Option.some.injEq,Prod.mk.injEq] at found
      obtain ⟨⟨before,after⟩,split,v,parsed,rfl,rfl⟩ := found
      obtain ⟨rfl,sized⟩ := splitBytes_some split
      have nonempty : before ≠ [] := by
        rintro rfl
        cases sized
      rw [List.append_assoc,signed_append nonempty] at plain
      obtain ⟨digits,_,rfl⟩ := parseInt_digits plain parsed
      obtain ⟨n,small,same⟩ := digits_padded digits
      rw [length_of_digits sized digits] at small same
      have value : Nat.ofDigitChars 10 before 0 = n := by rw [same,padded_value small]
      obtain ⟨i,named,fine,clock,equal⟩ := finish 2 n before (if n < 50 then 2000+n else 1900+n) (by
        rw [value]
        split <;> split <;> omega)
      refine ⟨i,?_,fine,equal⟩
      have two : i.year%100 = n := by
        rw [named]
        split <;> omega
      have range : 1950 ≤ i.year ∧ i.year < 2050 := by
        rw [named]
        split <;> omega
      have written := Written.utc range.1 range.2
      rw [two,←same,←clock] at written
      exact written
    · split at found
      · rename_i generalized
        subst generalized
        simp only [Option.bind_eq_bind,Option.bind_eq_some_iff,Option.pure_def,Option.some.injEq,Prod.mk.injEq] at found
        obtain ⟨⟨before,after⟩,split,v,parsed,rfl,rfl⟩ := found
        obtain ⟨rfl,sized⟩ := splitBytes_some split
        have nonempty : before ≠ [] := by
          rintro rfl
          cases sized
        rw [List.append_assoc,signed_append nonempty] at plain
        obtain ⟨digits,_,rfl⟩ := parseInt_digits plain parsed
        obtain ⟨n,small,same⟩ := digits_padded digits
        rw [length_of_digits sized digits] at small same
        have value : Nat.ofDigitChars 10 before 0 = n := by rw [same,padded_value small]
        obtain ⟨i,named,fine,clock,equal⟩ := finish 4 n before n (by rw [value])
        refine ⟨i,?_,fine,equal⟩
        have bounded : i.year < 10000 := by
          rw [named]; exact small
        have written := Written.generalized bounded
        rw [named,←same,←clock] at written
        exact written
      · cases found

theorem monthLength_le (year month : Nat) : monthLength year month ≤ 31 := by
  unfold monthLength
  split
  · split <;> decide
  · split <;> decide

theorem Instant.Real.small (real : i.Real) : i.Small := by
  obtain ⟨month,day,hour,minute,second⟩ := real
  have := monthLength_le i.year i.month
  exact ⟨by omega,by omega,by omega,by omega,by omega⟩

end Times

-- The certificate's path leads to a real instant, written out, with its seconds.
def Expires (cert : Bytes) (t : Int) : Prop :=
  ∃ tag i text,Path cert tag (toUtf8 (text ++ ['Z'])) ∧ Written tag i text ∧ i.Real ∧ t = i.unix

-- What the code reads as a time has no sign and its fields are in the ranges of
-- the calendar.
def Fits (cert : Bytes) : Prop := ∀ tag time fields,Path cert tag time → readTime tag time = some fields →
  (∀ text,fromUtf8 time = some text → ¬Signed text) ∧ fields.InRange

structure Exact (width : Width) (cert : Bytes) : Prop where
  reads : ∀ t,notAfter width cert = some t ↔ Expires cert t

theorem notAfter_some : notAfter width cert = some t ↔
    ∃ tag time fields,Path cert tag time ∧ readTime tag time = some fields ∧ fields.seconds = t := by
  unfold notAfter
  simp only [Option.bind_eq_bind,Option.bind_eq_some_iff,Option.pure_def,Option.some.injEq]
  constructor
  · rintro ⟨⟨tag,time⟩,found,fields,read,same⟩
    exact ⟨tag,time,fields,timeField_iff.mp found,read,same⟩
  · rintro ⟨tag,time,fields,path,read,same⟩
    exact ⟨(tag,time),timeField_iff.mpr path,fields,read,same⟩

theorem path_unique (one : Path cert tag time) (other : Path cert tag' time') : tag = tag' ∧ time = time' := by
  have first : timeField .w64 cert = some (tag,time) := timeField_iff.mpr one
  have second : timeField .w64 cert = some (tag',time') := timeField_iff.mpr other
  rw [first] at second
  exact Prod.mk.inj (Option.some.inj second)

theorem expiry_exact (width : Width) (cert : Bytes) : Exact width cert ↔ Fits cert := by
  constructor
  · intro exact_ tag time fields path read
    obtain ⟨tag',i,text,path',written,real,_⟩ := (exact_.reads _).mp (notAfter_some.mpr ⟨tag,time,fields,path,read,rfl⟩)
    obtain ⟨rfl,rfl⟩ := path_unique path path'
    obtain ⟨again,plain⟩ := written_read written real.small
    rw [read] at again
    cases again
    refine ⟨fun whole decoded => ?_,(inRange_real i).mpr real⟩
    rw [fromUtf8_iff.mpr rfl] at decoded
    cases decoded
    exact plain
  · intro fits
    refine ⟨fun t => ⟨fun got => ?_,?_⟩⟩
    · obtain ⟨tag,time,fields,path,read,rfl⟩ := notAfter_some.mp got
      obtain ⟨text,rfl,written⟩ := read_written read
      obtain ⟨plain,range⟩ := fits tag _ fields path read
      obtain ⟨i,form,_,rfl⟩ := written (plain _ (fromUtf8_iff.mpr rfl))
      have real := (inRange_real i).mp range
      exact ⟨tag,i,text,path,form,real,seconds_exact real⟩
    · rintro ⟨tag,i,text,path,written,real,same⟩
      rw [same,←seconds_exact real]
      exact notAfter_some.mpr ⟨tag,_,i.fields,path,(written_read written real.small).1,rfl⟩

structure Fields.Bounded (f : Fields) : Prop where
  year : -20000 < f.year ∧ f.year < 20000
  month : 0 ≤ f.month ∧ f.month < 100
  day : 0 ≤ f.day ∧ f.day < 100
  clock : 0 ≤ f.hour ∧ f.hour < 100 ∧ 0 ≤ f.minute ∧ f.minute < 100 ∧ 0 ≤ f.second ∧ f.second < 100

theorem seconds_bounded {f : Fields} (bounded : f.Bounded) : -10^13 < f.seconds ∧ f.seconds < 10^13 := by
  obtain ⟨year,month,day,clock⟩ := bounded
  have start : -30000 < (if f.month ≤ 2 then f.year-1 else f.year) ∧ (if f.month ≤ 2 then f.year-1 else f.year) < 30000 := by
    split <;> omega
  have shifted : 0 ≤ (if f.month > 2 then f.month-3 else f.month+9) ∧ (if f.month > 2 then f.month-3 else f.month+9) < 200 := by
    split <;> omega
  unfold Fields.seconds
  rw [daysFromCivil_march,marchDays]
  generalize (if f.month ≤ 2 then f.year-1 else f.year) = y at start ⊢
  generalize (if f.month > 2 then f.month-3 else f.month+9) = m at shifted ⊢
  omega

theorem utf8Len_length (text : Str) : text.length ≤ utf8Len text := by
  induction text with
  | nil => exact Nat.le_refl _
  | cons c rest ih =>
    have := c.utf8Size_pos
    simp only [utf8Len,List.map_cons,List.sum_cons,List.length_cons] at ih ⊢
    omega

theorem parseInt_bounded (parsed : parseInt text = some v) (short : text.length ≤ 4) : -10000 < v ∧ v < 10000 := by
  unfold parseInt at parsed
  dsimp only at parsed
  split at parsed
  · cases parsed
  · rename_i good
    obtain ⟨_,all⟩ := not_or.mp good
    rw [not_not,List.all_eq_true] at all
    obtain ⟨n,small,same⟩ := digits_padded all
    have value : Nat.ofDigitChars 10 (unsigned text).2 0 = n := by rw [same,padded_value small]
    have shorter : (unsigned text).2.length ≤ 4 := by
      have within : (unsigned text).2.length ≤ text.length := by
        unfold unsigned
        split <;> simp
      omega
    have most : 10^(unsigned text).2.length ≤ 10^4 := Nat.pow_le_pow_right (by decide) shorter
    rw [value] at parsed
    split at parsed
    · split at parsed
      · cases parsed
        omega
      · cases parsed
    · split at parsed
      · cases parsed
        omega
      · cases parsed

theorem readTime_bounded (read : readTime tag time = some fields) : fields.Bounded := by
  unfold readTime at read
  simp only [Option.bind_eq_bind,Option.bind_eq_some_iff] at read
  obtain ⟨whole,_,text,_,⟨year,rest⟩,found,read⟩ := read
  split at read
  · cases read
  · rename_i fits
    obtain ⟨ten,all⟩ := not_or.mp fits
    rw [ne_eq,not_not] at ten
    rw [not_not,List.all_eq_true] at all
    obtain ⟨i,_,small,rfl⟩ := digits_clockText (length_of_digits ten all) all 0
    obtain ⟨one,two,three,four,five⟩ := clockText_fields small
    simp only [one,two,three,four,five,Option.bind_some,Option.pure_def,Option.some.injEq] at read
    subst read
    have span : -20000 < year ∧ year < 20000 := by
      unfold yearOf at found
      split at found
      · simp only [Option.bind_eq_bind,Option.bind_eq_some_iff,Option.pure_def,Option.some.injEq,Prod.mk.injEq] at found
        obtain ⟨⟨before,after⟩,split,v,parsed,rfl,_⟩ := found
        obtain ⟨_,sized⟩ := splitBytes_some split
        have short := (utf8Len_length before).trans_eq sized
        have bounds := parseInt_bounded parsed (short.trans (by decide))
        split <;> omega
      · split at found
        · simp only [Option.bind_eq_bind,Option.bind_eq_some_iff,Option.pure_def,Option.some.injEq,Prod.mk.injEq] at found
          obtain ⟨⟨before,after⟩,split,v,parsed,rfl,_⟩ := found
          obtain ⟨_,sized⟩ := splitBytes_some split
          have bounds := parseInt_bounded parsed ((utf8Len_length before).trans_eq sized)
          omega
        · cases found
    obtain ⟨month,day,hour,minute,second⟩ := small
    exact ⟨span,by dsimp only; omega,by dsimp only; omega,by dsimp only; omega⟩

-- Nothing overflows, whatever a usize is, and the answer is right exactly where
-- the fields are.
theorem expiry_read (width : Width) (cert : Bytes) :
    (∀ t,notAfter width cert = some t → -10^13 < t ∧ t < 10^13) ∧ notAfter .w32 cert = notAfter .w64 cert ∧
      (Exact width cert ↔ Fits cert) := by
  refine ⟨fun t got => ?_,Option.ext fun t => notAfter_some.trans notAfter_some.symm,expiry_exact width cert⟩
  obtain ⟨tag,time,fields,_,read,rfl⟩ := notAfter_some.mp got
  exact seconds_bounded (readTime_bounded read)

def thirteenth : Bytes :=
  [0x30,0x1b,0x30,0x19,0x02,0,0x30,0,0x30,0,0x30,0x11,0x17,0,0x17,0x0d] ++ toUtf8 "991301000000Z".toList

theorem thirteenth_read : ¬Exact .w64 thirteenth := by
  intro exact_
  have path := timeField_iff.mp (by decide : timeField .w64 thirteenth = some (0x17,toUtf8 "991301000000Z".toList))
  have read : readTime 0x17 (toUtf8 "991301000000Z".toList) = some ⟨1999,13,1,0,0,0⟩ := by decide
  exact absurd ((expiry_exact .w64 thirteenth).mp exact_ _ _ _ path read).2.month.2 (by decide)

end HologramLive.Expiry
