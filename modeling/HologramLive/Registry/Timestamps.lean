import HologramLive.Tls.Expiry
namespace HologramLive.Timestamps
open Expiry

-- The checked arithmetic of an i64. Its division goes towards zero.
def i64 (value : Int) : Option Int := if -2^63 ≤ value ∧ value < 2^63 then some value else none
def quotient (a b : Int) : Option Int := if b = 0 then none else i64 (a.tdiv b)
def divEuclid (a b : Int) : Option Int := if b = 0 then none else i64 (a/b)

structure Civil where
  year : Int
  month : Int
  day : Int

def civilFromDays (days : Int) : Option Civil := do
  let z ← i64 (days+719468)
  let era ← divEuclid z 146097
  let eraStart ← i64 (era*146097)
  let dayOfEra ← i64 (z-eraStart)
  let fours ← quotient dayOfEra 1460
  let centuries ← quotient dayOfEra 36524
  let eras ← quotient dayOfEra 146096
  let shorter ← i64 (dayOfEra-fours)
  let longer ← i64 (shorter+centuries)
  let even ← i64 (longer-eras)
  let yearOfEra ← quotient even 365
  let eraYears ← i64 (era*400)
  let year ← i64 (yearOfEra+eraYears)
  let plain ← i64 (365*yearOfEra)
  let leaps ← quotient yearOfEra 4
  let skipped ← quotient yearOfEra 100
  let withLeaps ← i64 (plain+leaps)
  let yearStart ← i64 (withLeaps-skipped)
  let dayOfYear ← i64 (dayOfEra-yearStart)
  let fives ← i64 (5*dayOfYear)
  let fives ← i64 (fives+2)
  let shifted ← quotient fives 153
  let months ← i64 (153*shifted)
  let months ← i64 (months+2)
  let monthStart ← quotient months 5
  let sinceMonth ← i64 (dayOfYear-monthStart)
  let day ← i64 (sinceMonth+1)
  let month ← if shifted < 10 then i64 (shifted+3) else i64 (shifted-9)
  let year ← if month ≤ 2 then i64 (year+1) else some year
  return ⟨year,month,day⟩

-- `{value:0width}`. A sign counts.
def zeroPadded (width : Nat) (value : Int) : Str :=
  let digits := decimal value.natAbs
  if value < 0 then '-' :: (List.replicate (width-1-digits.length) '0' ++ digits)
  else List.replicate (width-digits.length) '0' ++ digits

def written (year month day hour minute second : Int) : Str :=
  zeroPadded 4 year ++ '-' :: (zeroPadded 2 month ++ '-' :: (zeroPadded 2 day ++ 'T' :: (zeroPadded 2 hour ++
    ':' :: (zeroPadded 2 minute ++ ':' :: (zeroPadded 2 second ++ ['Z'])))))

def rfc3339 (seconds : UInt64) : Option Str := do
  let days := (i64 (seconds.toNat/86400 : Nat)).getD 0
  let time := seconds.toNat%86400
  let civil ← civilFromDays days
  return written civil.year civil.month civil.day (time/3600 : Nat) (time%3600/60 : Nat) (time%60 : Nat)

def stamp (i : Instant) : Str := written i.year i.month i.day i.hour i.minute i.second

section Arithmetic
variable {β : Type} {v k : Int} {f : Int → Option β} {out : Option β}

theorem i64_some (low : -2^63 ≤ v) (high : v < 2^63) : i64 v = some v := if_pos ⟨low,high⟩

theorem i64_then (low : -2^63 ≤ v) (high : v < 2^63) (next : f v = out) : (i64 v >>= f) = out := by
  rw [i64_some low high]
  exact next

theorem quotient_then (positive : 0 < k) (natural : 0 ≤ v) (high : v < 2^63) (next : f (v/k) = out) : (quotient v k >>= f) = out := by
  have below : v/k ≤ v := Int.ediv_le_self k natural
  have above : 0 ≤ v/k := Int.ediv_nonneg natural positive.le
  unfold quotient
  rw [if_neg positive.ne',Int.tdiv_eq_ediv_of_nonneg natural]
  exact i64_then (by omega) (by omega) next

theorem divEuclid_then (positive : 0 < k) (natural : 0 ≤ v) (high : v < 2^63) (next : f (v/k) = out) : (divEuclid v k >>= f) = out := by
  have below : v/k ≤ v := Int.ediv_le_self k natural
  have above : 0 ≤ v/k := Int.ediv_nonneg natural positive.le
  unfold divEuclid
  rw [if_neg positive.ne']
  exact i64_then (by omega) (by omega) next

end Arithmetic

-- A day of an era: so many whole centuries, four-year spans, years and days behind
-- them. Only the last of each may be a day longer.
structure Splits (d b q s r : Int) : Prop where
  whole : d = 36524*b+1461*q+365*s+r
  centuries : 0 ≤ b ∧ b ≤ 3
  spans : 0 ≤ q ∧ q ≤ 24
  years : 0 ≤ s ∧ s ≤ 3
  days : 0 ≤ r ∧ r ≤ 365
  long : r = 365 → s = 3 ∧ (q < 24 ∨ b = 3)

theorem splits {d : Int} (natural : 0 ≤ d) (within : d < 146097) : ∃ b q s r,Splits d b q s r := by
  have century : ∃ b e,d = 36524*b+e ∧ 0 ≤ b ∧ b ≤ 3 ∧ 0 ≤ e ∧ e ≤ 36524 ∧ (e = 36524 → b = 3) := by
    by_cases last : d = 146096
    · exact ⟨3,36524,by omega,by omega,by omega,by omega,by omega,by omega⟩
    · exact ⟨d/36524,d%36524,by omega,by omega,by omega,by omega,by omega,by omega⟩
  obtain ⟨b,e,whole,b0,b3,e0,e1,long⟩ := century
  have year : ∃ s r,e%1461 = 365*s+r ∧ 0 ≤ s ∧ s ≤ 3 ∧ 0 ≤ r ∧ r ≤ 365 ∧ (r = 365 → s = 3) := by
    by_cases last : e%1461 = 1460
    · exact ⟨3,365,by omega,by omega,by omega,by omega,by omega,by omega⟩
    · exact ⟨e%1461/365,e%1461%365,by omega,by omega,by omega,by omega,by omega,by omega⟩
  obtain ⟨s,r,rest,s0,s3,r0,r1,last⟩ := year
  exact ⟨b,e/1461,s,r,by omega,⟨b0,b3⟩,⟨by omega,by omega⟩,⟨s0,s3⟩,⟨r0,r1⟩,by omega⟩

section Split
variable {d b q s r : Int}

theorem Splits.counts (split : Splits d b q s r) : d/36524-d/146096 = b ∧
    d/1460 = 25*b+q+if 1460 ≤ 24*b+q+365*s+r then 1 else 0 := by
  obtain ⟨rfl,⟨b0,b3⟩,⟨q0,q1⟩,⟨s0,s3⟩,⟨r0,r1⟩,long⟩ := split
  constructor
  · interval_cases b <;> omega
  · split <;> omega

theorem Splits.year (split : Splits d b q s r) : (d-d/1460+d/36524-d/146096)/365 = 100*b+4*q+s := by
  obtain ⟨centuries,fours⟩ := split.counts
  obtain ⟨whole,⟨b0,b3⟩,⟨q0,q1⟩,⟨s0,s3⟩,⟨r0,r1⟩,long⟩ := split
  have even : d-d/1460+d/36524-d/146096 = d-d/1460+b := by omega
  rw [even,fours]
  split <;> omega

theorem Splits.dayOfYear (split : Splits d b q s r) : d-(365*(100*b+4*q+s)+(100*b+4*q+s)/4-(100*b+4*q+s)/100) = r := by
  obtain ⟨whole,⟨b0,b3⟩,⟨q0,q1⟩,⟨s0,s3⟩,⟨r0,r1⟩,long⟩ := split
  omega

end Split

def dated (era year dayOfYear : Int) : Civil :=
  let shifted := (5*dayOfYear+2)/153
  let month := if shifted < 10 then shifted+3 else shifted-9
  ⟨if month ≤ 2 then year+era*400+1 else year+era*400,month,dayOfYear-(153*shifted+2)/5+1⟩

theorem civilFromDays_dated (natural : 0 ≤ days) (bounded : days < 2^48)
    (day : d = days+719468-(days+719468)/146097*146097) (split : Splits d b q s r) :
    civilFromDays days = some (dated ((days+719468)/146097) (100*b+4*q+s) r) := by
  have year := split.year
  have rest := split.dayOfYear
  have within : 0 ≤ d ∧ d < 146097 := by omega
  obtain ⟨-,⟨b0,b3⟩,⟨q0,q1⟩,⟨s0,s3⟩,⟨r0,r1⟩,-⟩ := split
  unfold civilFromDays
  refine i64_then (by omega) (by omega) ?_
  refine divEuclid_then (by omega) (by omega) (by omega) ?_
  have era : 4 ≤ (days+719468)/146097 ∧ (days+719468)/146097 < 2^40 := by omega
  generalize (days+719468)/146097 = count at era day ⊢
  refine i64_then (by omega) (by omega) ?_
  refine i64_then (by omega) (by omega) ?_
  rw [←day]
  iterate 3 refine quotient_then (by omega) (by omega) (by omega) ?_
  iterate 3 refine i64_then (by omega) (by omega) ?_
  refine quotient_then (by omega) (by omega) (by omega) ?_
  rw [year]
  have short : 0 ≤ 100*b+4*q+s ∧ 100*b+4*q+s < 400 := by omega
  generalize 100*b+4*q+s = y at short rest ⊢
  iterate 3 refine i64_then (by omega) (by omega) ?_
  refine quotient_then (by omega) (by omega) (by omega) ?_
  refine quotient_then (by omega) (by omega) (by omega) ?_
  iterate 3 refine i64_then (by omega) (by omega) ?_
  rw [rest]
  refine i64_then (by omega) (by omega) ?_
  refine i64_then (by omega) (by omega) ?_
  refine quotient_then (by omega) (by omega) (by omega) ?_
  refine i64_then (by omega) (by omega) ?_
  refine i64_then (by omega) (by omega) ?_
  refine quotient_then (by omega) (by omega) (by omega) ?_
  refine i64_then (by omega) (by omega) ?_
  refine i64_then (by omega) (by omega) ?_
  unfold dated
  dsimp only
  split
  · refine i64_then (by omega) (by omega) ?_
    rw [if_neg (by omega),if_neg (by omega)]
    rfl
  · refine i64_then (by omega) (by omega) ?_
    rw [if_pos (by omega),if_pos (by omega)]
    exact i64_then (by omega) (by omega) rfl

section Calendar
variable {days d b q s r : Int}

theorem march_exact (era : Int) (short : 0 ≤ year ∧ year < 400) :
    marchDays (year+era*400) = era*146097+(365*year+year/4-year/100) := by
  have days := era_days (year+era*400)
  have whole : (year+era*400)/400 = era := by omega
  rw [whole] at days
  rw [←days]
  omega

theorem monthLength_shifted (year month : Nat) (here : shifted = (5*dayOfYear+2)/153)
    (early : 0 ≤ dayOfYear) (before : shifted < 10) (same : (month : Int) = shifted+3) :
    dayOfYear-(153*shifted+2)/5+1 ≤ monthLength year month := by
  have fewer : 3 ≤ month ∧ month ≤ 12 := by omega
  have later : month ≠ 2 := by omega
  unfold monthLength
  rw [if_neg later]
  split <;> omega

theorem monthLength_late (month : Nat) (here : shifted = (5*dayOfYear+2)/153)
    (late : dayOfYear ≤ 365) (same : (month : Int) = shifted-9) (last : dayOfYear = 365 → leap year = true) :
    dayOfYear-(153*shifted+2)/5+1 ≤ monthLength year month := by
  unfold monthLength
  by_cases february : month = 2
  · rw [if_pos february]
    by_cases whole : dayOfYear = 365
    · rw [if_pos (last whole)]
      omega
    · split <;> omega
  · rw [if_neg february,if_neg (by omega)]
    omega

theorem dated_real (natural : 0 ≤ days) (day : d = days+719468-(days+719468)/146097*146097) (split : Splits d b q s r) :
    ∃ year month day : Nat,dated ((days+719468)/146097) (100*b+4*q+s) r = ⟨year,month,day⟩ ∧ (1 ≤ month ∧ month ≤ 12) ∧
      (1 ≤ day ∧ day ≤ monthLength year month) ∧ daysFromCivil year month day = days := by
  have rest := split.dayOfYear
  obtain ⟨whole,⟨b0,b3⟩,⟨q0,q1⟩,⟨s0,s3⟩,⟨r0,r1⟩,long⟩ := split
  have short : 0 ≤ 100*b+4*q+s ∧ 100*b+4*q+s < 400 := by omega
  have march := march_exact ((days+719468)/146097) short
  have positive : 0 ≤ (days+719468)/146097 := by omega
  have leaps : ∀ year : Nat,(year : Int) = 100*b+4*q+s+(days+719468)/146097*400+1 → r = 365 → leap year = true := by
    intro year same full
    have spans := long full
    simp only [leap,Bool.and_eq_true,Bool.or_eq_true,decide_eq_true_eq]
    omega
  generalize (days+719468)/146097 = era at *
  generalize 100*b+4*q+s = y at *
  obtain ⟨shifted,here⟩ : ∃ shifted,shifted = (5*r+2)/153 := ⟨_,rfl⟩
  unfold dated
  rw [←here]
  dsimp only
  by_cases before : shifted < 10
  · rw [if_pos before,if_neg (by omega)]
    refine ⟨(y+era*400).toNat,(shifted+3).toNat,(r-(153*shifted+2)/5+1).toNat,?_,by omega,⟨by omega,?_⟩,?_⟩
    · rw [Int.toNat_of_nonneg (by omega),Int.toNat_of_nonneg (by omega),Int.toNat_of_nonneg (by omega)]
    · have fits := monthLength_shifted (y+era*400).toNat (shifted+3).toNat here r0 before (by omega)
      omega
    · rw [Int.toNat_of_nonneg (by omega),Int.toNat_of_nonneg (by omega),Int.toNat_of_nonneg (by omega),daysFromCivil_march,
        if_neg (by omega),if_pos (by omega),march]
      omega
  · rw [if_neg before,if_pos (by omega)]
    refine ⟨(y+era*400+1).toNat,(shifted-9).toNat,(r-(153*shifted+2)/5+1).toNat,?_,by omega,⟨by omega,?_⟩,?_⟩
    · rw [Int.toNat_of_nonneg (by omega),Int.toNat_of_nonneg (by omega),Int.toNat_of_nonneg (by omega)]
    · have fits := monthLength_late (shifted-9).toNat here r1 (by omega)
        (leaps (y+era*400+1).toNat (by omega))
      omega
    · rw [Int.toNat_of_nonneg (by omega),Int.toNat_of_nonneg (by omega),Int.toNat_of_nonneg (by omega),daysFromCivil_march,
        if_pos (by omega),if_neg (by omega),Int.add_sub_cancel,march]
      omega

end Calendar

section Unique

theorem located {start length : Nat → Nat} (next : ∀ n,start (n+1) = start n+length n) {a b i j : Nat} (first : i < length a)
    (second : j < length b) (same : start a+i = start b+j) : a = b := by
  have grows : Monotone start := monotone_nat_of_le_succ fun n => by rw [next n]; exact Nat.le_add_right _ _
  rcases Nat.lt_trichotomy a b with before | equal | behind
  · have reached : start (a+1) ≤ start b := grows before
    have ended := next a
    omega
  · exact equal
  · have reached : start (b+1) ≤ start a := grows behind
    have ended := next b
    omega

theorem daysBeforeMonth_next (year month : Nat) :
    daysBeforeMonth year (month+1+1) = daysBeforeMonth year (month+1)+monthLength year (month+1) := by
  unfold daysBeforeMonth
  rw [Nat.add_sub_cancel,Nat.add_sub_cancel,List.range'_concat,List.map_append,List.sum_append]
  simp [Nat.add_comm]

theorem daysBeforeMonth_year (some_ : 1 ≤ month) (last : month ≤ 12) (within : day < monthLength year month) :
    daysBeforeMonth year month+day < if leap year then 366 else 365 := by
  have grows : Monotone fun n => daysBeforeMonth year (n+1) := monotone_nat_of_le_succ fun n => by
    rw [daysBeforeMonth_next]
    exact Nat.le_add_right _ _
  obtain ⟨n,rfl⟩ : ∃ n,month = n+1 := ⟨month-1,by omega⟩
  have reached : daysBeforeMonth year (n+1+1) ≤ daysBeforeMonth year 13 := grows (by omega : n+1 ≤ 12)
  have whole : daysBeforeMonth year 13 = if leap year then 366 else 365 := by
    cases long : leap year <;> simp [daysBeforeMonth,monthLength,List.range',long]
  rw [daysBeforeMonth_next] at reached
  omega

theorem unix_injective {i j : Instant} (real : i.Real) (real' : j.Real) (same : i.unix = j.unix) : i = j := by
  obtain ⟨month,day,clock⟩ := real
  obtain ⟨month',day',clock'⟩ := real'
  unfold Instant.unix at same
  have days : daysBeforeYear i.year+(daysBeforeMonth i.year i.month+(i.day-1)) =
      daysBeforeYear j.year+(daysBeforeMonth j.year j.month+(j.day-1)) := by omega
  have year : i.year = j.year := located (fun n => rfl) (daysBeforeMonth_year month.1 month.2 (by omega))
    (daysBeforeMonth_year month'.1 month'.2 (by omega)) days
  obtain ⟨n,early⟩ : ∃ n,i.month = n+1 := ⟨i.month-1,by omega⟩
  obtain ⟨m,early'⟩ : ∃ m,j.month = m+1 := ⟨j.month-1,by omega⟩
  rw [year,early,early'] at days
  rw [year,early] at day
  rw [early'] at day'
  have months : n = m := @located (fun n => daysBeforeMonth j.year (n+1)) (fun n => monthLength j.year (n+1))
    (daysBeforeMonth_next j.year) n m (i.day-1) (j.day-1) (by omega) (by omega) (by omega)
  subst months
  obtain ⟨_,_,_,_,_,_⟩ := i
  obtain ⟨_,_,_,_,_,_⟩ := j
  simp only [Instant.mk.injEq] at *
  omega

end Unique

-- Every count of seconds is printed as the one date and time of the calendar that it
-- is the count of, and no step of the computation overflows or divides by zero.
theorem rfc3339_exact (seconds : UInt64) : ∃ i : Instant,i.Real ∧ i.unix = (seconds.toNat : Int) ∧
    rfc3339 seconds = some (stamp i) ∧ ∀ j : Instant,j.Real → j.unix = (seconds.toNat : Int) → j = i := by
  have bounded := seconds.toNat_lt
  obtain ⟨days,counted⟩ : ∃ days : Int,days = (seconds.toNat/86400 : Nat) := ⟨_,rfl⟩
  obtain ⟨d,day⟩ : ∃ d,d = days+719468-(days+719468)/146097*146097 := ⟨_,rfl⟩
  obtain ⟨b,q,s,r,split⟩ := @splits d (by omega) (by omega)
  have computed := civilFromDays_dated (by omega) (by omega) day split
  obtain ⟨year,month,date,shape,some_,within,exact_⟩ := dated_real (by omega) day split
  have real : (⟨year,month,date,seconds.toNat%86400/3600,seconds.toNat%86400%3600/60,seconds.toNat%86400%60⟩ : Instant).Real :=
    ⟨some_,within,by dsimp only; omega,by dsimp only; omega,by dsimp only; omega⟩
  have unix := seconds_exact real
  refine ⟨_,real,?_,?_,fun j real' same => unix_injective real' real ?_⟩
  · rw [←unix]
    simp only [Fields.seconds,Instant.fields,exact_]
    omega
  · unfold rfc3339
    dsimp only
    rw [i64_some (by omega) (by omega),Option.getD_some,←counted,computed,shape]
    rfl
  · rw [same,←unix]
    simp only [Fields.seconds,Instant.fields,exact_]
    omega

end HologramLive.Timestamps
