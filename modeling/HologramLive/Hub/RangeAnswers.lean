import HologramLive.Oci.Types
import HologramLive.Lib.Doubles
namespace HologramLive.RangeAnswers
open Doubles List

-- The whole numbers of a double, with its infinities.
inductive Number where
  | negativeInfinity
  | int (value : Int)
  | infinity
deriving DecidableEq, Repr

def Number.less : Number → Number → Bool
  | .int a,.int b => a < b
  | .negativeInfinity,.negativeInfinity | _,.negativeInfinity | .infinity,_ => false
  | .negativeInfinity,_ | _,.infinity => true

def Number.ofWhole : Whole → Number
  | .fin n => .int n
  | .infinity | .nan => .infinity

def roundedInt (value : Int) : Int :=
  if 0 ≤ value then nearest value.toNat else -(nearest (-value).toNat : Nat)

def Number.minus (a : Int) : Number → Number
  | .int b => .int (roundedInt (a-b))
  | .infinity => .negativeInfinity
  | .negativeInfinity => .infinity

def Number.plus (a : Number) (b : Int) : Number :=
  match a with
  | .int a => .int (roundedInt (a+b))
  | other => other

def digitsValue (digits : Str) : Nat := digits.foldl (fun value c => 10*value+(c.toNat-48)) 0
def number (digits : Str) : Number := .ofWhole (.ofNat (digitsValue digits))

def rangeHeader (range : Str) : Option (Str × Str) := do
  let rest ← "bytes=".toList.isPrefixOf? range
  match rest.dropWhile Char.isDigit with
  | '-' :: second => if second.all Char.isDigit then some (rest.takeWhile Char.isDigit,second) else none
  | _ => none

inductive ContentRange where
  | unsatisfied (size : Nat)
  | span (first : Number) (last : Int) (size : Nat)
deriving DecidableEq, Repr

structure Answer where
  status : Nat
  contentRange : Option ContentRange
  contentLength : Option Number
  body : Bytes
deriving DecidableEq, Repr

inductive Method where
  | get
  | head
deriving DecidableEq, Repr

-- A file whose size is a safe integer.
structure File where
  bytes : Bytes
  safe : bytes.length < 2^53

def File.size (file : File) : Nat := file.bytes.length

def File.slice (file : File) (first last : Nat) : Bytes := (file.bytes.drop first).take (last+1-first)

variable (size : Nat)

def refused : Answer := ⟨416,some (.unsatisfied size),none,[]⟩

open Number

def lengthOf (start : Number) (last : Int) : Number := (minus last start).plus 1

def lastOf (second : Str) (size : Nat) : Int :=
  match number second with
  | .int n => min n (size-1)
  | _ => size-1

section Services
variable (file : File)

def createReadStream (start : Number) (last : Int) : Bytes :=
  match start with
  | .int first => file.slice first.toNat last.toNat
  | _ => []

def sendFile (method : Method) (range : Str) : Answer :=
  let send (start : Number) (last : Int) (status : Nat) : Answer := {
    status := status
    contentRange := if status = 206 then some (.span start last file.size) else none
    contentLength := some (lengthOf start last)
    body := if method = .head ∨ file.size = 0 then [] else createReadStream file start last}
  match rangeHeader range with
  | some (first,second) =>
    if first ≠ [] ∨ second ≠ [] then
      let start := if first ≠ [] then number first else
        let start := minus file.size (number second)
        if (Number.int 0).less start then start else .int 0
      let last := if first ≠ [] ∧ second ≠ [] then lastOf second file.size else (file.size : Int)-1
      if start.less (.int file.size) ∧ ¬(Number.int last).less start then send start last 206
      else refused file.size
    else send (.int 0) (file.size-1) 200
  | none => send (.int 0) (file.size-1) 200

def positions (range : Str) : Number × Int :=
  match rangeHeader range with
  | some (first,second) =>
    (if first ≠ [] then number first else minus size (number second),
      if first ≠ [] ∧ second ≠ [] then lastOf second size else (size : Int)-1)
  | none => (.int 0,size-1)

-- The bytes that the verified pieces give for a range of positions.
variable (assemble : Number → Int → Bytes)

def tensorMirror (method : Method) (range : Str) : Answer :=
  match method with
  | .head => ⟨200,none,some (.int file.size),[]⟩
  | .get =>
    let (start,last) := positions file.size range
    if (Number.int last).less start ∨ ¬start.less (.int file.size) then refused file.size
    else ⟨if (rangeHeader range).isSome then 206 else 200,
      if (rangeHeader range).isSome then some (.span start last file.size) else none,
      some (lengthOf start last),assemble start last⟩

-- The head goes out with the first chunk, or by itself when none comes.
def edgeSend (method : Method) (range : Str) : Answer :=
  match method with
  | .head => ⟨200,none,some (.int file.size),[]⟩
  | .get =>
    let (start,last) := positions file.size range
    let status := if (rangeHeader range).isSome then 206 else 200
    if (Number.int last).less start ∨ ¬start.less (.int file.size) then refused file.size
    else if assemble start last = [] then ⟨status,none,some (.int 0),[]⟩
    else ⟨status,if (rangeHeader range).isSome then some (.span start last file.size) else none,
      some (lengthOf start last),assemble start last⟩

def Assembles : Prop := ∀ first last : Nat,first ≤ last → last < file.size →
  assemble (.int first) last = file.slice first last

end Services

inductive RangeSpec where
  | int (first : Nat) (last : Option Nat)
  | suffix (length : Nat)
deriving DecidableEq, Repr

def rangeSpec : Str × Str → Option RangeSpec
  | ([],[]) => none
  | ([],second) => some (.suffix (digitsValue second))
  | (first,[]) => some (.int (digitsValue first) none)
  | (first,second) => some (.int (digitsValue first) (some (digitsValue second)))

-- A range whose last position is before its first one is not valid.
def Satisfiable : RangeSpec → Prop
  | .int first last => first < size ∧ ∀ position,last = some position → first ≤ position
  | .suffix length => length ≠ 0

theorem satisfiable_int {size first : Nat} :
    Satisfiable size (.int first last) ↔ first < size ∧ ∀ position,last = some position → first ≤ position := Iff.rfl
theorem satisfiable_suffix {size length : Nat} : Satisfiable size (.suffix length) ↔ length ≠ 0 := Iff.rfl

def selected : RangeSpec → Nat × Nat
  | .int first none => (first,size-1)
  | .int first (some last) => (first,min last (size-1))
  | .suffix length => (size-length,size-1)

def ignored (file : File) (method : Method) : Answer :=
  ⟨200,none,some (.int file.size),if method = .head then [] else file.bytes⟩

def partialContent (file : File) (first last : Nat) : Answer :=
  ⟨206,some (.span (.int first) last file.size),some (.int ((last : Int)-first+1)),file.slice first last⟩

-- The answers that agree with RFC 9110. The field means nothing on a HEAD.
def Agrees (file : File) (method : Method) (range : Str) (answer : Answer) : Prop :=
  answer = ignored file method ∨
  method = .get ∧ ∃ spec,(rangeHeader range).bind rangeSpec = some spec ∧
    (¬Satisfiable file.size spec ∧ answer = refused file.size ∨
      Satisfiable file.size spec ∧ ∃ first last,selected file.size spec = (first,last) ∧ first ≤ last ∧ last < file.size ∧
        answer = partialContent file first last)

-- The three agree, with RFC 9110 and with each other, where a file without a
-- range has bytes, a range has a position, and a suffix is no longer than the file.
def Meets (file : File) (method : Method) (range : Str) : Prop :=
  match method,rangeHeader range with
  | .get,none => 0 < file.size
  | .get,some (first,second) => first ≠ [] ∨ second ≠ [] ∧ digitsValue second ≤ file.size
  | .head,none => True
  | .head,some (first,second) => first = [] ∧ second = []

section Numbers
variable {file : File} {digits : Str} {value : Int}

theorem roundedInt_small (low : -2^53 < value) (high : value < 2^53) : roundedInt value = value := by
  unfold roundedInt
  split
  · rw [nearest_small (by omega)]
    omega
  · rw [nearest_small (by omega)]
    omega

theorem roundedInt_negative (negative : value < 0) : roundedInt value < 0 := by
  rw [roundedInt,if_neg (by omega)]
  by_cases small : (-value).toNat < 2^53
  · rw [nearest_small small]
    omega
  · have large := nearest_large (Nat.le_of_not_lt small)
    omega

theorem number_small (small : digitsValue digits < 2^53) : number digits = .int (digitsValue digits) := by
  rw [number,Whole.ofNat_small small]
  rfl

theorem number_large (large : 2^53 ≤ digitsValue digits) :
    (∃ n : Nat,2^53 ≤ n ∧ number digits = .int n) ∨ number digits = .infinity := by
  unfold number Whole.ofNat
  split
  · exact .inl ⟨_,nearest_large large,rfl⟩
  · exact .inr rfl

theorem number_less : (number digits).less (.int file.size) = true ↔ digitsValue digits < file.size := by
  have safe : file.size < 2^53 := file.safe
  by_cases small : digitsValue digits < 2^53
  · rw [number_small small]
    simp only [Number.less,decide_eq_true_eq]
    omega
  · obtain ⟨n,large,read⟩ | read := number_large (Nat.le_of_not_lt small)
    · rw [read]
      simp only [Number.less,decide_eq_true_eq]
      omega
    · rw [read]
      refine ⟨fun less => ?_,fun less => ?_⟩
      · cases less
      · omega

theorem lastOf_eq : lastOf digits file.size = min (digitsValue digits : Int) (file.size-1) := by
  have safe : file.size < 2^53 := file.safe
  unfold lastOf
  by_cases small : digitsValue digits < 2^53
  · rw [number_small small]
  · obtain ⟨n,large,read⟩ | read := number_large (Nat.le_of_not_lt small)
    · rw [read]
      dsimp only
      omega
    · rw [read]
      dsimp only
      omega

theorem minus_fits (fits : digitsValue digits ≤ file.size) :
    minus file.size (number digits) = .int ((file.size-digitsValue digits : Nat) : Int) := by
  have safe : file.size < 2^53 := file.safe
  rw [number_small (by omega)]
  unfold minus
  dsimp only
  rw [roundedInt_small (by omega) (by omega)]
  congr 1
  omega

theorem minus_beyond (beyond : file.size < digitsValue digits) : minus file.size (number digits) = .negativeInfinity ∨
      ∃ value < 0,minus file.size (number digits) = .int value := by
  have safe : file.size < 2^53 := file.safe
  by_cases small : digitsValue digits < 2^53
  · rw [number_small small]
    exact .inr ⟨_,roundedInt_negative (by omega),rfl⟩
  · obtain ⟨n,large,read⟩ | read := number_large (Nat.le_of_not_lt small)
    · rw [read]
      exact .inr ⟨_,roundedInt_negative (by omega),rfl⟩
    · rw [read]
      exact .inl rfl

theorem lengthOf_eq {first last : Nat} (ordered : first ≤ last+1) (small : last+1 < 2^53) :
    lengthOf (.int first) last = .int ((last : Int)-first+1) := by
  have span : roundedInt ((last : Int)-first) = (last : Int)-first := roundedInt_small (by omega) (by omega)
  unfold lengthOf minus plus
  dsimp only
  rw [span,roundedInt_small (by omega) (by omega)]

end Numbers

def answered (file : File) (assemble : Number → Int → Bytes) (place : Number × Int) : Answer :=
  if (Number.int place.2).less place.1 ∨ ¬place.1.less (.int file.size) then refused file.size
  else ⟨206,some (.span place.1 place.2 file.size),some (lengthOf place.1 place.2),assemble place.1 place.2⟩

-- Positions are outside of the file where the range is unsatisfiable, and what
-- it selects where not.
inductive Placed (file : File) (spec : RangeSpec) : Number × Int → Prop
  | outside (unsatisfiable : ¬Satisfiable file.size spec) {start : Number} {last : Int}
      (out : (Number.int last).less start = true ∨ ¬start.less (.int file.size) = true) : Placed file spec (start,last)
  | inside (satisfiable : Satisfiable file.size spec) {first last : Nat} (selects : selected file.size spec = (first,last))
      (ordered : first ≤ last) (within : last < file.size) : Placed file spec (.int first,(last : Int))

section Ranges
variable {file : File} {assemble : Number → Int → Bytes} {range first second : Str} {spec : RangeSpec}

theorem createReadStream_assembles (file : File) : Assembles file (createReadStream file) := fun _ _ _ _ => rfl

theorem slice_nonempty {first last : Nat} (ordered : first ≤ last) (within : last < file.size) : file.slice first last ≠ [] := by
  have size : file.size = file.bytes.length := rfl
  intro empty
  have none := congrArg List.length empty
  rw [File.slice,length_take,length_drop,length_nil] at none
  omega

theorem answered_outside (out : (Number.int place.2).less place.1 = true ∨ ¬place.1.less (.int file.size) = true) :
    answered file assemble place = refused file.size := if_pos out

theorem answered_inside (sound : Assembles file assemble) {first last : Nat} (ordered : first ≤ last) (within : last < file.size) :
    answered file assemble (.int first,(last : Int)) = partialContent file first last := by
  have safe : file.size < 2^53 := file.safe
  have inside : ¬((Number.int last).less (.int first) = true ∨ ¬(Number.int first).less (.int file.size) = true) := by
    simp only [Number.less,decide_eq_true_eq]
    omega
  rw [answered,if_neg inside,lengthOf_eq (by omega) (by omega),sound first last ordered within]
  rfl

theorem positions_placed (read : rangeHeader range = some (first,second))
    (meets : first ≠ [] ∨ second ≠ [] ∧ digitsValue second ≤ file.size) :
    ∃ spec,rangeSpec (first,second) = some spec ∧ Placed file spec (positions file.size range) := by
  unfold positions
  rw [read]
  dsimp only
  by_cases given : first ≠ []
  · rw [if_pos given]
    by_cases ended : second ≠ []
    · refine ⟨.int (digitsValue first) (some (digitsValue second)),?_,?_⟩
      · obtain ⟨_,_,rfl⟩ := exists_cons_of_ne_nil given
        obtain ⟨_,_,rfl⟩ := exists_cons_of_ne_nil ended
        rfl
      rw [if_pos ⟨given,ended⟩,lastOf_eq]
      by_cases satisfiable : digitsValue first < file.size ∧ digitsValue first ≤ digitsValue second
      · rw [number_small (Nat.lt_trans satisfiable.1 file.safe)]
        have last : min (digitsValue second : Int) (file.size-1) = (min (digitsValue second) (file.size-1) : Nat) := by omega
        rw [last]
        have selects := satisfiable_int.mpr ⟨satisfiable.1,fun _ same => Option.some.inj same ▸ satisfiable.2⟩
        exact .inside selects rfl (by omega) (by omega)
      · refine .outside (fun valid => ?_) ?_
        · have parts := satisfiable_int.mp valid
          exact satisfiable ⟨parts.1,parts.2 _ rfl⟩
        rw [number_less]
        by_cases before : digitsValue first < file.size
        · rw [number_small (Nat.lt_trans before file.safe)]
          simp only [Number.less,decide_eq_true_eq]; omega
        · exact .inr before
    · refine ⟨.int (digitsValue first) none,?_,?_⟩
      · obtain ⟨_,_,rfl⟩ := exists_cons_of_ne_nil given
        rw [not_not.mp ended]; rfl
      rw [if_neg fun both => ended both.2]
      by_cases satisfiable : digitsValue first < file.size
      · rw [number_small (Nat.lt_trans satisfiable file.safe)]
        have last : (file.size : Int)-1 = (file.size-1 : Nat) := by omega
        rw [last]
        exact .inside (satisfiable_int.mpr ⟨satisfiable,fun _ same => (by cases same)⟩) rfl (by omega) (by omega)
      · refine .outside (fun valid => satisfiable (satisfiable_int.mp valid).1) (.inr fun less => ?_)
        exact satisfiable (number_less.mp less)
  · obtain ⟨ended,fits⟩ := meets.resolve_left given
    rw [if_neg given,if_neg fun both => given both.1,minus_fits fits]
    refine ⟨.suffix (digitsValue second),?_,?_⟩
    · obtain ⟨_,_,rfl⟩ := exists_cons_of_ne_nil ended
      rw [not_not.mp given]
      rfl
    by_cases empty : digitsValue second = 0
    · refine .outside (fun nonzero => satisfiable_suffix.mp nonzero empty) (.inr ?_)
      simp only [Number.less,decide_eq_true_eq]
      omega
    · have last : (file.size : Int)-1 = (file.size-1 : Nat) := by omega
      rw [last]
      exact .inside (satisfiable_suffix.mpr empty) rfl (by omega) (by omega)

theorem tensorMirror_ranged (read : rangeHeader range = some (first,second)) :
    tensorMirror file assemble .get range = answered file assemble (positions file.size range) := by
  simp only [tensorMirror,read,answered,Option.isSome_some,if_true]

theorem edgeSend_ranged (sound : Assembles file assemble) (read : rangeHeader range = some (first,second))
    (placed : Placed file spec (positions file.size range)) :
    edgeSend file assemble .get range = answered file assemble (positions file.size range) := by
  unfold edgeSend answered
  dsimp only
  rw [read]
  simp only [Option.isSome_some,if_true]
  generalize positions file.size range = place at placed
  cases placed with
  | outside _ out => rw [if_pos out,if_pos out]
  | inside _ _ ordered within =>
    rw [sound _ _ ordered within,if_neg (slice_nonempty ordered within)]

theorem sendFile_ranged (read : rangeHeader range = some (first,second))
    (meets : first ≠ [] ∨ second ≠ [] ∧ digitsValue second ≤ file.size)
    (placed : Placed file spec (positions file.size range)) :
    sendFile file .get range = answered file (createReadStream file) (positions file.size range) := by
  have start : (if first ≠ [] then number first else
      if (Number.int 0).less (minus file.size (number second)) then minus file.size (number second) else .int 0) =
      if first ≠ [] then number first else minus file.size (number second) := by
    by_cases given : first ≠ []
    · rw [if_pos given,if_pos given]
    · rw [if_neg given,if_neg given,minus_fits (meets.resolve_left given).2]
      split
      · rfl
      · rename_i low; simp only [Number.less,decide_eq_true_eq] at low
        congr 1
        omega
  have asked : first ≠ [] ∨ second ≠ [] := meets.imp_right And.left
  have same : positions file.size range = (if first ≠ [] then number first else minus file.size (number second),
      if first ≠ [] ∧ second ≠ [] then lastOf second file.size else (file.size : Int)-1) := by
    rw [positions,read]
  unfold sendFile
  rw [read]
  dsimp only
  rw [if_pos asked,start]
  rw [same] at placed ⊢
  generalize (if first ≠ [] then number first else minus file.size (number second)) = start at placed
  generalize (if first ≠ [] ∧ second ≠ [] then lastOf second file.size else (file.size : Int)-1) = last at placed
  unfold answered
  dsimp only
  by_cases out : (Number.int last).less start = true ∨ ¬start.less (.int file.size) = true
  · rw [if_neg (by tauto),if_pos out]
  · have held : file.size ≠ 0 := by
      cases placed with
      | outside _ beyond => exact absurd beyond out
      | inside _ _ _ within => omega
    rw [if_pos (by tauto),if_neg out,if_pos rfl,if_neg (by simp [held])]

theorem answered_agrees (sound : Assembles file assemble) (read : rangeHeader range = some (first,second))
    (specified : rangeSpec (first,second) = some spec) {place : Number × Int} (placed : Placed file spec place) :
    Agrees file .get range (answered file assemble place) := by
  refine .inr ⟨rfl,spec,by rw [read]; exact specified,?_⟩
  cases placed with
  | outside unsatisfiable out => exact .inl ⟨unsatisfiable,answered_outside out⟩
  | inside satisfiable selects ordered within =>
    exact .inr ⟨satisfiable,_,_,selects,ordered,within,answered_inside sound ordered within⟩

theorem answered_same {other : Number → Int → Bytes} (sound : Assembles file assemble) (otherSound : Assembles file other) (placed : Placed file spec place) : answered file assemble place = answered file other place := by
  cases placed with
  | outside _ out => rw [answered_outside out,answered_outside out]
  | inside _ _ ordered within => rw [answered_inside sound ordered within,answered_inside otherSound ordered within]

theorem negative_disagrees (status : answer.status = 206)
    (span : answer.contentRange = some (.span start last file.size)) (negative : ∀ first : Nat,start ≠ .int first) :
    ¬Agrees file .get range answer := by
  rintro (rfl | ⟨_,spec,_,⟨_,rfl⟩ | ⟨_,first,_,_,_,_,rfl⟩⟩)
  · cases status
  · cases status
  · cases span
    exact negative first rfl

end Ranges

section Agreement
variable {file : File} {mirror edge : Number → Int → Bytes} {range : Str}

structure Alike (file : File) (mirror edge : Number → Int → Bytes) (method : Method) (range : Str) : Prop where
  sent : Agrees file method range (sendFile file method range)
  mirrored : Agrees file method range (tensorMirror file mirror method range)
  edged : Agrees file method range (edgeSend file edge method range)
  same : sendFile file method range = tensorMirror file mirror method range ∧
    tensorMirror file mirror method range = edgeSend file edge method range

theorem alike_of_ignored (sent : sendFile file method range = ignored file method)
    (mirrored : tensorMirror file mirror method range = ignored file method)
    (edged : edgeSend file edge method range = ignored file method) : Alike file mirror edge method range :=
  ⟨.inl sent,.inl mirrored,.inl edged,sent.trans mirrored.symm,mirrored.trans edged.symm⟩

theorem sendFile_ignored (method : Method) (plain : rangeHeader range = none ∨ rangeHeader range = some ([],[])) :
    sendFile file method range = ignored file method := by
  have safe : file.size < 2^53 := file.safe
  have length : lengthOf (.int 0) ((file.size : Int)-1) = .int file.size := by
    unfold lengthOf minus plus
    dsimp only
    have span : roundedInt ((file.size : Int)-1-0) = (file.size : Int)-1-0 := roundedInt_small (by omega) (by omega)
    rw [span,roundedInt_small (by omega) (by omega)]
    congr 1
    omega
  have body : (if method = .head ∨ file.size = 0 then [] else createReadStream file (.int 0) ((file.size : Int)-1)) =
      if method = .head then [] else file.bytes := by
    by_cases head : method = .head
    · rw [if_pos (.inl head),if_pos head]
    · rw [if_neg head]
      by_cases empty : file.size = 0
      · rw [if_pos (.inr empty)]; exact (length_eq_zero_iff.mp empty).symm
      · rw [if_neg (by tauto)]
        have last : ((file.size : Int)-1).toNat+1-(0 : Int).toNat = file.bytes.length := by
          have size : file.size = file.bytes.length := rfl
          omega
        show (file.bytes.drop 0).take (((file.size : Int)-1).toNat+1-(0 : Int).toNat) = _
        rw [last,drop_zero,take_length]
  unfold sendFile
  obtain plain | plain := plain
  · rw [plain]
    dsimp only
    rw [length,body]
    rfl
  · rw [plain]
    dsimp only
    rw [if_neg (by simp),length,body]
    rfl

theorem whole_positions (sound : Assembles file mirror) (held : 0 < file.size) :
    ¬((Number.int (file.size-1)).less (.int 0) = true ∨ ¬(Number.int 0).less (.int file.size) = true) ∧
    lengthOf (.int 0) (file.size-1) = .int file.size ∧ mirror (.int 0) (file.size-1) = file.bytes := by
  have safe : file.size < 2^53 := file.safe
  have last : (file.size : Int)-1 = (file.size-1 : Nat) := by omega
  rw [last]
  refine ⟨?_,?_,?_⟩
  · simp only [Number.less,decide_eq_true_eq]
    omega
  · have length := @lengthOf_eq 0 (file.size-1) (by omega) (by omega)
    refine length.trans ?_
    congr 1
    omega
  · refine (sound 0 (file.size-1) (by omega) (by omega)).trans ?_
    have size : file.size-1+1-0 = file.bytes.length := Nat.sub_add_cancel held
    rw [File.slice,size,drop_zero,take_length]

theorem tensorMirror_plain (sound : Assembles file mirror) (plain : rangeHeader range = none) (held : 0 < file.size) :
    tensorMirror file mirror .get range = ignored file .get := by
  obtain ⟨inside,length,bytes⟩ := whole_positions sound held
  unfold tensorMirror positions
  rw [plain]
  dsimp only
  rw [if_neg inside,length,bytes]
  rfl

theorem edgeSend_plain (sound : Assembles file edge) (plain : rangeHeader range = none) (held : 0 < file.size) :
    edgeSend file edge .get range = ignored file .get := by
  obtain ⟨inside,length,bytes⟩ := whole_positions sound held
  have some : file.bytes ≠ [] := fun empty => Nat.ne_of_gt held (length_eq_zero_iff.mpr empty)
  unfold edgeSend positions
  rw [plain]
  dsimp only
  rw [if_neg inside,length,bytes,if_neg some]
  rfl

theorem chosen_ne (chosen : Prop) [Decidable chosen] {a b status : Nat} (left : a ≠ status) (right : b ≠ status) :
    (if chosen then a else b) ≠ status := by
  split
  · exact left
  · exact right

theorem sendFile_asked (method : Method) (read : rangeHeader range = some (first,second))
    (asked : first ≠ [] ∨ second ≠ []) : (sendFile file method range).status ≠ 200 := by
  unfold sendFile
  rw [read]
  dsimp only
  rw [if_pos asked]
  rw [apply_ite Answer.status]
  exact chosen_ne _ (by decide : 206 ≠ 200) (by decide : 416 ≠ 200)

theorem alike_head : Alike file mirror edge .head range ↔ Meets file .head range := by
  unfold Meets
  cases read : rangeHeader range with
  | none => exact ⟨fun _ => trivial,fun _ => alike_of_ignored (sendFile_ignored .head (.inl read)) rfl rfl⟩
  | some parts =>
    obtain ⟨first,second⟩ := parts
    dsimp only
    constructor
    · intro alike
      by_contra asked
      exact sendFile_asked .head read (by tauto) (congrArg Answer.status alike.same.1)
    · rintro ⟨rfl,rfl⟩
      exact alike_of_ignored (sendFile_ignored .head (.inr read)) rfl rfl

theorem alike_plain (sound : Assembles file mirror) (edgeSound : Assembles file edge) (plain : rangeHeader range = none) :
    Alike file mirror edge .get range ↔ 0 < file.size := by
  constructor
  · intro alike
    by_contra empty
    have size : file.size = 0 := by omega
    have refused : tensorMirror file mirror .get range = refused file.size := by
      unfold tensorMirror positions
      rw [plain,size]
      rfl
    obtain ignored | ⟨_,spec,specified,_⟩ := alike.mirrored
    · rw [refused] at ignored
      exact absurd (congrArg Answer.status ignored) (by decide : 416 ≠ 200)
    · rw [plain] at specified
      cases specified
  · intro held
    exact alike_of_ignored (sendFile_ignored .get (.inl plain)) (tensorMirror_plain sound plain held)
      (edgeSend_plain edgeSound plain held)

-- A dash alone is read as a suffix of no bytes by all but one of them.
theorem dash_differs (read : rangeHeader range = some ([],[])) : ¬Alike file mirror edge .get range := by
  intro alike
  have refused : tensorMirror file mirror .get range = refused file.size := by
    refine (tensorMirror_ranged read).trans (answered_outside (.inr ?_))
    have start : (positions file.size range).1 = .int file.size := by
      have none : file.size-digitsValue [] = file.size := rfl
      have whole := @minus_fits file [] (Nat.zero_le _)
      rw [none] at whole
      simp only [positions,read,ne_eq,not_true_eq_false,if_false]
      exact whole
    rw [start]
    simp only [Number.less,decide_eq_true_eq]
    omega
  have same := congrArg Answer.status alike.same.1
  rw [refused,sendFile_ignored .get (.inr read)] at same
  exact absurd same (by decide : 200 ≠ 416)

theorem suffix_differs (read : rangeHeader range = some ([],second))
    (beyond : file.size < digitsValue second) : ¬Alike file mirror edge .get range := by
  intro alike
  have mirrored := alike.mirrored
  rw [tensorMirror_ranged read] at mirrored
  have place : positions file.size range = (minus file.size (number second),(file.size : Int)-1) := by
    simp only [positions,read,ne_eq,not_true_eq_false,if_false,false_and]
  rw [place] at mirrored
  obtain below | ⟨value,negative,below⟩ := minus_beyond beyond
  · rw [below] at mirrored
    refine negative_disagrees rfl rfl (fun first same => ?_) mirrored
    cases same
  · rw [below,answered,if_neg] at mirrored
    · refine negative_disagrees rfl rfl (fun first same => ?_) mirrored
      cases same
      omega
    · simp only [Number.less,decide_eq_true_eq]
      omega

-- The three answers agree exactly where the condition holds.
theorem ranges_agree (sound : Assembles file mirror) (edgeSound : Assembles file edge) (method : Method) (range : Str) :
    Alike file mirror edge method range ↔ Meets file method range := by
  cases method with
  | head => exact alike_head
  | get =>
    unfold Meets
    cases read : rangeHeader range with
    | none => exact alike_plain sound edgeSound read
    | some parts =>
      obtain ⟨first,second⟩ := parts
      dsimp only
      constructor
      · intro alike
        by_contra fails
        obtain ⟨none,missed⟩ := not_or.mp fails
        cases not_not.mp none
        by_cases dash : second = []
        · subst dash; exact dash_differs read alike
        · exact suffix_differs read (Nat.lt_of_not_le fun fits => missed ⟨dash,fits⟩) alike
      · intro meets
        obtain ⟨spec,specified,placed⟩ := positions_placed read meets
        have sent := sendFile_ranged read meets placed
        have mirrored := @tensorMirror_ranged file mirror range _ _ read
        have edged := edgeSend_ranged edgeSound read placed
        refine ⟨?_,?_,?_,?_,?_⟩
        · rw [sent]; exact answered_agrees (createReadStream_assembles file) read specified placed
        · rw [mirrored]; exact answered_agrees sound read specified placed
        · rw [edged]; exact answered_agrees edgeSound read specified placed
        · rw [sent,mirrored]; exact answered_same (createReadStream_assembles file) sound placed
        · rw [mirrored,edged]; exact answered_same sound edgeSound placed

def sampleFile : File := ⟨[1,2,3,4,5,6,7,8,9,10],by decide⟩

theorem ranges_agree_sample : Alike sampleFile (createReadStream sampleFile) (createReadStream sampleFile) .get
    "bytes=2-4".toList :=
  (ranges_agree (createReadStream_assembles _) (createReadStream_assembles _) _ _).mpr (.inl (by decide))

-- Of ten bytes the last twenty begin at the position -10.
theorem long_suffix : ¬∀ (file : File) (mirror edge : Number → Int → Bytes),Assembles file mirror → Assembles file edge →
    ∀ (method : Method) (range : Str),Alike file mirror edge method range := by
  intro all
  have sound := createReadStream_assembles sampleFile
  have read : rangeHeader "bytes=-20".toList = some ([],"20".toList) := by decide
  exact suffix_differs read (by decide) (all sampleFile _ _ sound sound .get _)

end Agreement

end HologramLive.RangeAnswers
