import HologramLive.Registry.Paths
import HologramLive.Lib.Ascii
namespace HologramLive.Escapes

def Hex (high low : Char) : Prop := (hexValue high).isSome ∧ (hexValue low).isSome
def Signed (high low : Char) : Prop := (high = '+' ∨ (hexValue high).isSome) ∧ (hexValue low).isSome

def EachEscape (fine : Char → Char → Prop) (raw : Str) : Prop :=
  ∀ before after,raw = before ++ '%' :: after → ∃ high low rest,after = high :: low :: rest ∧ fine high low

def escaped (high low : Char) : UInt8 := UInt8.ofNat (16*(hexValue high).getD 0+(hexValue low).getD 0)

def unescape : Str → Bytes
  | [] => []
  | '%' :: high :: low :: rest => escaped high low :: unescape rest
  | c :: rest => String.utf8EncodeChar c ++ unescape rest

def slashByte : UInt8 := UInt8.ofNat '/'.toNat
def HidesSlash (raw : Str) : Prop :=
  ∃ before high low rest,raw = before ++ '%' :: high :: low :: rest ∧ escaped high low = slashByte

-- A text is decoded exactly where it is well escaped, hides no slash where that is
-- refused and is UTF-8, to its bytes; and the router sees the slashes that were sent.
structure Exact (raw : Str) (slashAllowed : Bool) : Prop where
  decodes : ∀ out,percentDecode raw slashAllowed = some out ↔
    EachEscape Hex raw ∧ (slashAllowed = false → ¬HidesSlash raw) ∧ unescape raw = toUtf8 out
  slashes : ∀ out,decode raw = some out → ¬HidesSlash raw ∧ out.count '/' = raw.count '/'

def SignedEscapes (raw : Str) (slashAllowed : Bool) : Prop :=
  EachEscape Signed raw ∧ ¬EachEscape Hex raw ∧ (slashAllowed = false → ¬HidesSlash raw) ∧ ∃ out,unescape raw = toUtf8 out

section Proofs
variable {fine : Char → Char → Prop} {high low c : Char} {raw rest : Str} {slashAllowed : Bool}

def Apart (fine : Char → Char → Prop) : Prop := ∀ high low,fine high low → high ≠ '%' ∧ low ≠ '%'

theorem signed_apart : Apart Signed := by
  rintro high low ⟨first,second⟩
  constructor
  · rintro rfl
    rcases first with plus | digit
    · exact absurd plus (by decide)
    · exact absurd digit (by decide)
  · rintro rfl
    exact absurd second (by decide)

theorem hex_signed (hex : Hex high low) : Signed high low := ⟨.inr hex.1,hex.2⟩
theorem EachEscape.mono (each : EachEscape Hex raw) : EachEscape Signed raw := by
  intro before after same
  obtain ⟨high,low,rest,shape,hex⟩ := each before after same
  exact ⟨high,low,rest,shape,hex_signed hex⟩

theorem eachEscape_nil : EachEscape fine [] := by
  intro before after same
  have length := congrArg List.length same
  simp at length

theorem eachEscape_plain (plain : c ≠ '%') : EachEscape fine (c :: rest) ↔ EachEscape fine rest := by
  constructor
  · intro each before after same
    exact each (c :: before) after (by rw [same]; rfl)
  · intro each before after same
    cases before with
    | nil => exact absurd (List.cons.inj same).1 plain
    | cons first others => exact each others after (List.cons.inj same).2

theorem eachEscape_escape (apart : Apart fine) : EachEscape fine ('%' :: rest) ↔
    ∃ high low later,rest = high :: low :: later ∧ fine high low ∧ EachEscape fine later := by
  constructor
  · intro each
    obtain ⟨high,low,later,rfl,good⟩ := each [] rest rfl
    refine ⟨high,low,later,rfl,good,fun before after same => ?_⟩
    exact each ('%' :: high :: low :: before) after (by rw [same]; rfl)
  · rintro ⟨high,low,later,rfl,good,each⟩
    have plain := apart high low good
    intro before after same
    cases before with
    | nil => cases (List.cons.inj same).2; exact ⟨high,low,later,rfl,good⟩
    | cons first others =>
      exact ((eachEscape_plain plain.1).mpr ((eachEscape_plain plain.2).mpr each)) others after (List.cons.inj same).2

theorem hidesSlash_plain (plain : c ≠ '%') : HidesSlash (c :: rest) ↔ HidesSlash rest := by
  constructor
  · rintro ⟨before,high,low,later,same,byte⟩
    cases before with
    | nil => exact absurd (List.cons.inj same).1 plain
    | cons first others => exact ⟨others,high,low,later,(List.cons.inj same).2,byte⟩
  · rintro ⟨before,high,low,later,same,byte⟩
    exact ⟨c :: before,high,low,later,by rw [same]; rfl,byte⟩

theorem hidesSlash_escape (plain : high ≠ '%' ∧ low ≠ '%') :
    HidesSlash ('%' :: high :: low :: rest) ↔ escaped high low = slashByte ∨ HidesSlash rest := by
  constructor
  · rintro ⟨before,one,two,later,same,byte⟩
    cases before with
    | nil => cases (List.cons.inj same).2; exact .inl byte
    | cons first others =>
      refine .inr ((hidesSlash_plain plain.2).mp ((hidesSlash_plain plain.1).mp ?_))
      exact ⟨others,one,two,later,(List.cons.inj same).2,byte⟩
  · rintro (byte | ⟨before,one,two,later,same,byte⟩)
    · exact ⟨[],high,low,rest,rfl,byte⟩
    · exact ⟨'%' :: high :: low :: before,one,two,later,by rw [same]; rfl,byte⟩

theorem hidesSlash_nil : ¬HidesSlash [] := by
  rintro ⟨before,high,low,rest,same,_⟩
  have length := congrArg List.length same
  simp at length

theorem fromStrRadix_iff : fromStrRadix high low = some byte ↔ Signed high low ∧ byte = escaped high low := by
  unfold fromStrRadix Signed escaped
  cases hexValue low with
  | none => simp
  | some units =>
    by_cases plus : high = '+'
    · subst plus
      have none : hexValue '+' = none := by decide
      simp [none,eq_comm]
    · cases hexValue high with
      | none => simp [plus]
      | some sixteens => simp [plus,eq_comm]

theorem unescape_plain (plain : c ≠ '%') : unescape (c :: rest) = String.utf8EncodeChar c ++ unescape rest := by
  conv => lhs; unfold unescape
  split
  · rename_i none
    cases none
  · rename_i same
    exact absurd (List.cons.inj same).1 plain
  · rename_i same
    cases same
    rfl

theorem percentBytes_iff : percentBytes slashAllowed raw = some bytes ↔
    EachEscape Signed raw ∧ (slashAllowed = false → ¬HidesSlash raw) ∧ bytes = unescape raw := by
  fun_induction percentBytes slashAllowed raw generalizing bytes with
  | case1 => simp [eachEscape_nil,hidesSlash_nil,unescape,eq_comm]
  | case2 high low rest failed =>
    refine ⟨fun none => (by cases none),fun ⟨each,_,_⟩ => ?_⟩
    obtain ⟨_,_,_,same,good,_⟩ := (eachEscape_escape signed_apart).mp each
    cases same
    have read := fromStrRadix_iff.mpr ⟨good,rfl⟩
    rw [failed] at read
    cases read
  | case3 high low rest byte read hidden =>
    refine ⟨fun none => (by cases none),fun ⟨_,clear,_⟩ => ?_⟩
    obtain ⟨_,value⟩ := fromStrRadix_iff.mp read
    exact absurd ⟨[],high,low,rest,rfl,value.symm.trans hidden.1⟩ (clear hidden.2)
  | case4 high low rest byte read open_ ih =>
    obtain ⟨good,rfl⟩ := fromStrRadix_iff.mp read
    rw [Option.map_eq_some_iff]
    have plain := signed_apart high low good
    rw [eachEscape_escape signed_apart,hidesSlash_escape plain]
    constructor
    · rintro ⟨later,ran,rfl⟩
      obtain ⟨each,clear,rfl⟩ := ih.mp ran
      refine ⟨⟨high,low,rest,rfl,good,each⟩,fun refused => ?_,rfl⟩
      rintro (slash | deeper)
      · exact open_ ⟨slash,refused⟩
      · exact clear refused deeper
    · rintro ⟨⟨_,_,_,same,_,each⟩,clear,rfl⟩
      cases same
      exact ⟨unescape rest,ih.mpr ⟨each,fun refused deeper => clear refused (.inr deeper),rfl⟩,rfl⟩
  | case5 rest short =>
    refine ⟨fun none => (by cases none),fun ⟨each,_,_⟩ => ?_⟩
    obtain ⟨high,low,later,same,_,_⟩ := (eachEscape_escape signed_apart).mp each
    exact (short high low later rfl same).elim
  | case6 c rest short plain ih =>
    rw [eachEscape_plain plain,hidesSlash_plain plain,unescape_plain plain,Option.map_eq_some_iff]
    constructor
    · rintro ⟨later,ran,rfl⟩
      obtain ⟨each,clear,rfl⟩ := ih.mp ran
      exact ⟨each,clear,rfl⟩
    · rintro ⟨each,clear,rfl⟩
      exact ⟨_,ih.mpr ⟨each,clear,rfl⟩,rfl⟩

open List

theorem unescape_absent (absent : '%' ∉ raw) : unescape raw = toUtf8 raw := by
  induction raw with
  | nil => rfl
  | cons c rest ih =>
    simp only [mem_cons,not_or] at absent
    obtain ⟨plain,others⟩ := absent
    rw [unescape_plain (Ne.symm plain),ih others]
    exact flatMap_cons.symm

theorem eachEscape_absent (absent : '%' ∉ raw) : EachEscape fine raw := by
  rintro before after rfl
  exact absurd (mem_append_right _ mem_cons_self) absent

theorem hidesSlash_absent (absent : '%' ∉ raw) : ¬HidesSlash raw := by
  rintro ⟨before,high,low,rest,rfl,_⟩
  exact absent (mem_append_right _ mem_cons_self)

theorem percentDecode_iff : percentDecode raw slashAllowed = some out ↔
    EachEscape Signed raw ∧ (slashAllowed = false → ¬HidesSlash raw) ∧ unescape raw = toUtf8 out := by
  unfold percentDecode
  split
  · rw [Option.bind_eq_some_iff]
    constructor
    · rintro ⟨bytes,ran,read⟩
      obtain ⟨each,clear,rfl⟩ := percentBytes_iff.mp ran
      exact ⟨each,clear,fromUtf8_iff.mp read⟩
    · rintro ⟨each,clear,same⟩
      exact ⟨unescape raw,percentBytes_iff.mpr ⟨each,clear,rfl⟩,fromUtf8_iff.mpr same⟩
  · rename_i absent
    rw [unescape_absent absent,Option.some_inj]
    constructor
    · rintro rfl
      exact ⟨eachEscape_absent absent,fun _ => hidesSlash_absent absent,rfl⟩
    · rintro ⟨_,_,same⟩
      exact Option.some.inj ((fromUtf8_iff.mpr rfl).symm.trans (fromUtf8_iff.mpr same))

theorem count_unescape (each : EachEscape Signed raw) (clear : ¬HidesSlash raw) :
    (unescape raw).count slashByte = raw.count '/' := by
  fun_induction unescape raw with
  | case1 => rfl
  | case2 high low rest ih =>
    obtain ⟨_,_,_,same,good,later⟩ := (eachEscape_escape signed_apart).mp each
    cases same
    rw [hidesSlash_escape (signed_apart high low good),not_or] at clear
    have first : high ≠ '/' := by
      rintro rfl
      exact absurd good.1 (by decide)
    have second : low ≠ '/' := by
      rintro rfl
      exact absurd good.2 (by decide)
    rw [count_cons_of_ne clear.1,ih later clear.2,count_cons_of_ne (by decide),count_cons_of_ne first,
      count_cons_of_ne second]
  | case3 c rest short ih =>
    have plain : c ≠ '%' := by
      rintro rfl
      obtain ⟨high,low,later,same,_,_⟩ := (eachEscape_escape signed_apart).mp each
      exact short high low later rfl same
    rw [eachEscape_plain plain] at each
    rw [hidesSlash_plain plain] at clear
    have spelled := Ascii.count_byte (show '/'.toNat < 128 by decide) [c]
    rw [flatMap_singleton] at spelled
    rw [count_append,ih each clear]
    show (String.utf8EncodeChar c).count (UInt8.ofNat '/'.toNat)+_ = _
    rw [spelled,←count_append]
    rfl

theorem decode_slashes (decoded : decode raw = some out) : ¬HidesSlash raw ∧ out.count '/' = raw.count '/' := by
  obtain ⟨each,clear,same⟩ := percentDecode_iff.mp decoded
  refine ⟨clear rfl,?_⟩
  rw [←count_unescape each (clear rfl),same]
  exact (Ascii.count_byte (by decide) out).symm

-- The decoder is exact on every text but those.
theorem exact_unless_signed (raw : Str) (slashAllowed : Bool) : Exact raw slashAllowed ↔ ¬SignedEscapes raw slashAllowed := by
  constructor
  · rintro exact_ ⟨signed,ill,clear,out,same⟩
    exact ill ((exact_.decodes out).mp (percentDecode_iff.mpr ⟨signed,clear,same⟩)).1
  · intro fine
    refine ⟨fun out => percentDecode_iff.trans ⟨fun ⟨signed,clear,same⟩ => ?_,fun ⟨hex,clear,same⟩ => ⟨hex.mono,clear,same⟩⟩,
      fun out decoded => decode_slashes decoded⟩
    refine ⟨?_,clear,same⟩
    by_contra ill
    exact fine ⟨signed,ill,clear,out,same⟩

-- A sign before one digit is read as a byte.
theorem sign_decoded : ¬Exact "%+f".toList false := by
  intro exact_
  obtain ⟨hex,_⟩ := (exact_.decodes [Char.ofNat 15]).mp (by decide)
  obtain ⟨high,low,rest,same,digits⟩ := hex [] "+f".toList rfl
  cases same
  exact absurd digits.1 (by decide)

end Proofs
end HologramLive.Escapes
