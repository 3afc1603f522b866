import HologramLive.Artifact.Reference
import HologramLive.Rpc.Protocol
import HologramLive.Lib.Ascii
namespace HologramLive.Inference
open Rpc List

structure TokenUsage where
  promptTokens : UInt64
  completionTokens : UInt64
deriving DecidableEq

def TokenUsage.fromCounts : Option UInt64 → Option UInt64 → Option TokenUsage
  | some promptTokens,some completionTokens => some ⟨promptTokens,completionTokens⟩
  | _,_ => none

-- `tokensPerSecond` are the bits of an f64.
structure CompletionSummary where
  model : Str
  usage : Option TokenUsage
  tokensPerSecond : Option UInt64
  elapsedMillis : UInt64
deriving DecidableEq

inductive CompletionEvent where
  | delta (text : Str)
  | done (summary : CompletionSummary)
deriving DecidableEq

abbrev Item := Except LiveError CompletionEvent

def delta (text : Str) : Item := .ok (.delta text)
def Item.isEnd : Item → Bool
  | .ok (.delta _) => false
  | _ => true
def Item.text : Item → Str
  | .ok (.delta text) => text
  | _ => []
def textOf (items : List Item) : Str := items.flatMap Item.text

-- An item without the text of its error, and without what the clock showed.
inductive Shown where
  | delta (text : Str)
  | done (model : Str) (usage : Option TokenUsage) (tokensPerSecond : Option UInt64)
  | failed (code : Str)
deriving DecidableEq

def Item.shown : Item → Shown
  | .ok (.delta text) => .delta text
  | .ok (.done summary) => .done summary.model summary.usage summary.tokensPerSecond
  | .error error => .failed error.code
def shown (items : List Item) : List Shown := items.map Item.shown

def deltaOf (text : Str) : List Item := if text.isEmpty then [] else [delta text]

def replacement : Char := Char.ofNat 0xFFFD

-- Whether the second byte of a sequence of three or four bytes fits its first one.
def secondOfThree (first second : UInt8) : Bool :=
  (first == 0xE0 && 0xA0 ≤ second && second ≤ 0xBF) || (0xE1 ≤ first && first ≤ 0xEC && 0x80 ≤ second && second ≤ 0xBF) ||
  (first == 0xED && 0x80 ≤ second && second ≤ 0x9F) || (0xEE ≤ first && first ≤ 0xEF && 0x80 ≤ second && second ≤ 0xBF)
def secondOfFour (first second : UInt8) : Bool :=
  (first == 0xF0 && 0x90 ≤ second && second ≤ 0xBF) || (0xF1 ≤ first && first ≤ 0xF3 && 0x80 ≤ second && second ≤ 0xBF) ||
  (first == 0xF4 && 0x80 ≤ second && second ≤ 0x8F)

-- The bytes of a broken sequence that one replacement character stands for.
def brokenLength : Bytes → Nat
  | first :: second :: rest =>
    if secondOfThree first second then 2
    else if secondOfFour first second then
      match rest with
      | third :: _ => if 0x80 ≤ third && third ≤ 0xBF then 3 else 2
      | [] => 2
    else 1
  | _ => 1

def lossyFrom : Nat → Bytes → Str
  | 0,_ | _,[] => []
  | fuel+1,bytes =>
    match (ByteArray.mk bytes.toArray).utf8DecodeChar? 0 with
    | some c => c :: lossyFrom fuel (bytes.drop c.utf8Size)
    | none => replacement :: lossyFrom fuel (bytes.drop (brokenLength bytes))

-- `String::from_utf8_lossy`: every step takes a byte at least.
def fromUtf8Lossy (bytes : Bytes) : Str := lossyFrom bytes.length bytes

theorem decodeChar_append (c : Char) (rest : Bytes) :
    (ByteArray.mk (String.utf8EncodeChar c ++ rest).toArray).utf8DecodeChar? 0 = some c := by
  have same : ByteArray.mk (String.utf8EncodeChar c ++ rest).toArray =
      (String.utf8EncodeChar c).toByteArray ++ ByteArray.mk rest.toArray :=
    ByteArray.ext (by simp)
  rw [same]
  exact ByteArray.utf8DecodeChar?_utf8EncodeChar_append

theorem lossyFrom_append (text : Str) (rest : Bytes) (fuel : Nat) (enough : (toUtf8 text).length ≤ fuel) :
    ∃ left,lossyFrom fuel (toUtf8 text ++ rest) = text ++ lossyFrom left rest := by
  induction text generalizing fuel with
  | nil => exact ⟨fuel,rfl⟩
  | cons c later ih =>
    have spelled : toUtf8 (c :: later) = String.utf8EncodeChar c ++ toUtf8 later := flatMap_cons ..
    have size : (String.utf8EncodeChar c).length = c.utf8Size := String.length_utf8EncodeChar c
    have positive := c.utf8Size_pos
    rw [spelled,length_append,size] at enough
    obtain ⟨fuel,rfl⟩ : ∃ less,fuel = less+1 := ⟨fuel-1,by omega⟩
    obtain ⟨left,same⟩ := ih fuel (by omega)
    refine ⟨left,?_⟩
    rw [spelled,append_assoc]
    cases bytes : String.utf8EncodeChar c ++ (toUtf8 later ++ rest) with
    | nil =>
      have none := congrArg length bytes
      rw [length_append,size,length_nil] at none
      omega
    | cons b tail =>
      conv_lhs => unfold lossyFrom
      rw [← bytes,decodeChar_append]
      simp only
      rw [← size,drop_left,same,cons_append]

theorem lossy_utf8 (text : Str) : fromUtf8Lossy (toUtf8 text) = text := by
  obtain ⟨left,whole⟩ := lossyFrom_append text [] _ (Nat.le_refl _)
  have none : lossyFrom left [] = [] := by cases left <;> rfl
  rwa [none,append_nil,append_nil] at whole

-- What reads without a replacement is the text that it reads as.
theorem lossy_plain (plain : replacement ∉ fromUtf8Lossy bytes) : toUtf8 (fromUtf8Lossy bytes) = bytes := by
  have reads (fuel : Nat) (bytes : Bytes) (enough : bytes.length ≤ fuel) (plain : replacement ∉ lossyFrom fuel bytes) :
      toUtf8 (lossyFrom fuel bytes) = bytes := by
    induction fuel generalizing bytes with
    | zero => rw [eq_nil_of_length_eq_zero (Nat.le_zero.mp enough)]; rfl
    | succ fuel ih =>
      cases bytes with
      | nil => rfl
      | cons b rest =>
        unfold lossyFrom at plain ⊢
        cases read : (ByteArray.mk (b :: rest).toArray).utf8DecodeChar? 0 with
        | none => simp [read] at plain
        | some c =>
          obtain ⟨tail,whole⟩ := ByteArray.exists_of_utf8DecodeChar?_eq_some read
          have bytes : b :: rest = String.utf8EncodeChar c ++ tail.data.toList := by
            have lists := congrArg (fun bytes => bytes.data.toList) whole
            simpa using lists
          have positive := c.utf8Size_pos
          have size : (String.utf8EncodeChar c).length = c.utf8Size := String.length_utf8EncodeChar c
          have long := congrArg length bytes
          simp only [read,mem_cons,not_or] at plain ⊢; rw [bytes,←size,drop_left] at plain ⊢
          rw [length_append,size] at long
          rw [toUtf8,flatMap_cons,←toUtf8,ih _ (by rw [length_cons] at enough long; omega) plain.2]
  exact reads _ bytes (Nat.le_refl _) plain

theorem newline_utf8 : (10 : UInt8) ∈ toUtf8 text ↔ '\n' ∈ text := by
  constructor
  · intro member
    obtain ⟨c,there,byte⟩ := mem_flatMap.mp member
    have same : c.toNat = '\n'.toNat := Ascii.small_byte (by decide) byte
    rw [← Char.toNat_inj.mp same]
    exact there
  · intro there
    exact mem_flatMap.mpr ⟨'\n',there,by decide⟩

end HologramLive.Inference
