import HologramLive.Inference.Engines
import HologramLive.Lib.JsonText

-- The documents of the JSON library; the application plans have values of their own.
abbrev JsonDocument := Json

namespace HologramLive.Inference
open Lines List Json

structure OllamaMessage where
  role : Str
  content : Str

-- One NDJSON line: `/api/generate` carries `response`, `/api/chat` carries `message`.
structure StreamLine where
  model : Str
  createdAt : Str
  response : Option Str
  message : Option OllamaMessage
  done : Bool
  doneReason : Option Str
  promptEvalCount : Option UInt64
  evalCount : Option UInt64

inductive LineShape where
  | response
  | message

def row (key : String) (value : JsonDocument) : Str × JsonDocument := (key.toList,value)
def count (n : UInt64) : JsonDocument := .number n.toNat

def StreamLine.rows (line : StreamLine) : List (Str × JsonDocument) :=
  [row "model" (.string line.model),row "created_at" (.string line.createdAt)] ++
  (line.response.map fun text => row "response" (.string text)).toList ++
  (line.message.map fun message => row "message"
    (.object [row "role" (.string message.role),row "content" (.string message.content)])).toList ++
  [row "done" (.bool line.done)] ++
  (line.doneReason.map fun reason => row "done_reason" (.string reason)).toList ++
  (line.promptEvalCount.map fun n => row "prompt_eval_count" (count n)).toList ++
  (line.evalCount.map fun n => row "eval_count" (count n)).toList

def encodeLine (rows : List (Str × JsonDocument)) : Str := print (.object rows) ++ ['\n']

variable (error : LiveError)

def OllamaErrorBody.rows : List (Str × JsonDocument) := [row "error" (.string error.message)]

def lineOf (model : Str) (shape : LineShape) (now : Str) (text : Option Str) (done : Bool)
    (summary : Option CompletionSummary) : StreamLine :=
  let usage := summary.bind (·.usage)
  {model := model, createdAt := now
   response := match shape with | .response => text | .message => none
   message := match shape with | .response => none | .message => text.map (⟨"assistant".toList,·⟩)
   done := done
   doneReason := if done then some "stop".toList else none
   promptEvalCount := usage.map (·.promptTokens)
   evalCount := usage.map (·.completionTokens)}

def ndjsonFrom (model : Str) (shape : LineShape) (now : Nat → Str) (i : Nat) : List Item → List Str
  | [] => [encodeLine (lineOf model shape (now i) none true none).rows]
  | .ok (.delta text) :: rest =>
    encodeLine (lineOf model shape (now i) (some text) false none).rows :: ndjsonFrom model shape now (i+1) rest
  | .ok (.done summary) :: _ => [encodeLine (lineOf model shape (now i) none true (some summary)).rows]
  | .error error :: _ => [encodeLine (OllamaErrorBody.rows error)]

def ndjsonResponse (model : Str) (shape : LineShape) (now : Nat → Str) (events : List Item) : List Str :=
  ndjsonFrom model shape now 0 events

-- A field that stands twice is an error, one that is missing has a default.
def field (key : String) (rows : List (Str × JsonDocument)) : Option (Option JsonDocument) :=
  match rows.filter fun row => row.1 = key.toList with
  | [] => some none
  | [row] => some (some row.2)
  | _ => none

def readCount : Option JsonDocument → Option (Option UInt64)
  | none | some .null => some none
  | some (.number n) => if n < 2^64 then some (some (UInt64.ofNat n)) else none
  | _ => none

def OllamaStreamLine.ofRows (rows : List (Str × JsonDocument)) : Option OllamaStreamLine := do
  let response ← match ← field "response" rows with
    | none => some []
    | some (.string text) => some text
    | _ => none
  let done ← match ← field "done" rows with
    | none => some false
    | some (.bool done) => some done
    | _ => none
  let promptEvalCount ← readCount (← field "prompt_eval_count" rows)
  let evalCount ← readCount (← field "eval_count" rows)
  some ⟨response,done,promptEvalCount,evalCount⟩

def scalar : JsonDocument → Bool
  | .array _ | .object _ => false
  | _ => true

open OllamaStreamLine

-- What the code relies on in the JSON reader: the compact text of an object with
-- plain values is read by the fields.
def Reads (fromStr : Str → Except Str OllamaStreamLine) : Prop :=
  ∀ rows parsed,(∀ row ∈ rows,scalar row.2 = true) → ofRows rows = some parsed →
    fromStr (print (.object rows)) = .ok parsed

def fromJson (text : Str) : Except Str OllamaStreamLine :=
  match Json.parse text with
  | some (.object rows) => (ofRows rows).elim (.error "invalid line".toList) .ok
  | _ => .error "expected a line".toList

theorem fromJson_reads : Reads fromJson := by
  intro rows parsed _ known
  rw [fromJson,parse_print]
  simp only [known,Option.elim]

section Text

theorem escape_newline (c : Char) : '\n' ∉ escapeChar c := by
  by_cases small : c.toNat < 32
  · rw [← Char.ofNat_toNat c]
    generalize c.toNat = n at small
    interval_cases n <;> decide
  by_cases quote : c = quoteMark
  · rw [quote]
    decide
  by_cases slash : c = backslash
  · rw [slash]
    decide
  rw [escapeChar_plain small quote slash,mem_singleton]
  rintro rfl
  exact small (by decide)

theorem printText_plain (text : Str) : '\n' ∉ printText text := by
  unfold printText
  intro member
  rcases mem_cons.mp member with never | member
  · cases never
  rcases mem_append.mp member with within | last
  · obtain ⟨c,_,escaped⟩ := mem_flatMap.mp within
    exact escape_newline c escaped
  · rw [mem_singleton] at last
    cases last

theorem print_plain (plain : scalar document = true) : '\n' ∉ print document := by
  cases document with
  | null => decide
  | bool b => cases b <;> decide
  | number n =>
    intro member
    have digit := Nat.isDigit_of_mem_toDigits (by decide) (by decide) member
    cases digit
  | string text => exact printText_plain text
  | array items => cases plain
  | object rows => cases plain

variable {rows : List (Str × JsonDocument)}

theorem printRows_plain (plain : ∀ row ∈ rows,scalar row.2 = true) (first : Bool) : '\n' ∉ printRows first rows := by
  induction rows generalizing first with
  | nil => unfold printRows; decide
  | cons row later ih =>
    have ⟨own,rest⟩ := forall_mem_cons.mp plain
    obtain ⟨key,value⟩ := row
    unfold printRows
    simp only [mem_append,mem_cons,not_or]
    refine ⟨?_,printText_plain key,by decide,print_plain own,ih rest false⟩
    cases first <;> decide

theorem printRows_last (rows : List (Str × JsonDocument)) (first : Bool) :
    ∃ body,printRows first rows = body ++ [closeBrace] := by
  induction rows generalizing first with
  | nil =>
    exact ⟨[],by unfold printRows; rfl⟩
  | cons row later ih =>
    obtain ⟨key,value⟩ := row
    obtain ⟨body,same⟩ := ih false
    refine ⟨(if first then [] else [',']) ++ (printText key ++ ':' :: (print value ++ body)),?_⟩
    unfold printRows
    rw [same]
    simp

theorem trim_line {text body : Str} (shape : text = openBrace :: body ++ [closeBrace]) :
    trimWhitespace (text ++ ['\n']) = text := by
  have first : isWhitespace openBrace = false := by decide
  have last : isWhitespace closeBrace = false := by decide
  have newline : isWhitespace '\n' = true := by decide
  rw [shape]
  unfold trimWhitespace trimMatches trimEndMatches
  rw [cons_append,cons_append,dropWhile_cons_of_neg (by simp [first])]
  simp only [reverse_cons,reverse_append,reverse_nil,nil_append,cons_append]
  rw [dropWhile_cons_of_pos newline,dropWhile_cons_of_neg (by simp [last])]
  simp

theorem readLine_encoded (reads : Reads fromStr) (plain : ∀ row ∈ rows,scalar row.2 = true) (known : ofRows rows = some parsed) :
    OllamaEngine.readLine fromStr (toUtf8 (encodeLine rows)) = some (.ok parsed) := by
  obtain ⟨body,shape⟩ := printRows_last rows true
  have spelled : print (.object rows) = openBrace :: body ++ [closeBrace] := by
    rw [print,shape]
    rfl
  unfold OllamaEngine.readLine encodeLine
  rw [lossy_utf8,trim_line spelled,← reads rows parsed plain known,spelled]
  rfl

theorem encoded_shape (plain : ∀ row ∈ rows,scalar row.2 = true) :
    ∃ body,newline ∉ body ∧ toUtf8 (encodeLine rows) = body ++ [newline] := by
  refine ⟨toUtf8 (print (.object rows)),?_,?_⟩
  · unfold newline
    rw [newline_utf8,print]
    intro member
    rcases mem_cons.mp member with never | later
    · cases never
    · exact printRows_plain plain true later
  · unfold encodeLine toUtf8
    rw [flatMap_append]
    rfl

end Text

variable (model now text : Str)

def deltaRows : List (Str × JsonDocument) := (lineOf model .response now (some text) false none).rows
def doneRows (model now : Str) (summary : CompletionSummary) : List (Str × JsonDocument) :=
  (lineOf model .response now none true (some summary)).rows

theorem deltaRows_scalar : ∀ row ∈ deltaRows model now text,scalar row.2 = true := by
  intro row member
  simp [deltaRows,lineOf,StreamLine.rows,Inference.row] at member
  rcases member with rfl | rfl | rfl | rfl <;> rfl

theorem deltaRows_read : ofRows (deltaRows model now text) = some ⟨text,false,none,none⟩ := rfl

theorem doneRows_scalar (model now : Str) (summary : CompletionSummary) : ∀ row ∈ doneRows model now summary,scalar row.2 = true := by
  intro row member
  cases usage : summary.usage with
  | none =>
    simp [doneRows,lineOf,StreamLine.rows,Inference.row,usage] at member
    rcases member with rfl | rfl | rfl | rfl <;> rfl
  | some counts =>
    simp [doneRows,lineOf,StreamLine.rows,Inference.row,usage] at member
    rcases member with rfl | rfl | rfl | rfl | rfl | rfl <;> rfl

theorem readCount_count (n : UInt64) : readCount (some (count n)) = some (some n) := by
  unfold readCount count
  simp only
  rw [if_pos n.toNat_lt,UInt64.ofNat_toNat]

theorem doneRows_read (model now : Str) (summary : CompletionSummary) : ofRows (doneRows model now summary) =
      some ⟨[],true,summary.usage.map (·.promptTokens),summary.usage.map (·.completionTokens)⟩ := by
  obtain ⟨_,usage,_,_⟩ := summary
  cases usage with
  | none => rfl
  | some counts =>
    have spelled : ∀ name rate elapsed,ofRows (doneRows model now ⟨name,some counts,rate,elapsed⟩) = (do
        let promptEvalCount ← readCount (some (count counts.promptTokens))
        let evalCount ← readCount (some (count counts.completionTokens))
        some ⟨[],true,promptEvalCount,evalCount⟩) := fun _ _ _ => rfl
    rw [spelled,readCount_count,readCount_count]
    rfl

theorem errorRows_read : ofRows (OllamaErrorBody.rows error) = some ⟨[],false,none,none⟩ := rfl

theorem errorRows_scalar : ∀ row ∈ OllamaErrorBody.rows error,scalar row.2 = true := by
  intro row member
  rw [OllamaErrorBody.rows,mem_singleton] at member
  rw [member]
  rfl

theorem length_utf8 (text : Str) : text.length ≤ (toUtf8 text).length := by
  induction text with
  | nil => exact Nat.le_refl _
  | cons c later ih =>
    have size : (String.utf8EncodeChar c).length = c.utf8Size := String.length_utf8EncodeChar c
    have positive := c.utf8Size_pos
    have spelled : toUtf8 (c :: later) = String.utf8EncodeChar c ++ toUtf8 later := flatMap_cons ..
    rw [spelled,length_append,size,length_cons]
    omega

theorem length_escaped (text : Str) : text.length ≤ (text.flatMap escapeChar).length := by
  induction text with
  | nil => exact Nat.le_refl _
  | cons c later ih =>
    have some : 0 < (escapeChar c).length := by
      unfold escapeChar
      repeat' split
      all_goals exact Nat.succ_pos _
    rw [flatMap_cons,length_append,length_cons]
    omega

theorem deltaRows_length : text.length + 1 < (toUtf8 (encodeLine (deltaRows model now text))).length := by
  have escaped := length_escaped text
  refine Nat.lt_of_lt_of_le ?_ (length_utf8 _)
  have spelled : deltaRows model now text = [row "model" (.string model),row "created_at" (.string now),
    row "response" (.string text),row "done" (.bool false)] := rfl
  rw [spelled]
  simp only [encodeLine,print,printRows,row,printText,length_append,length_cons,length_nil]
  omega

end HologramLive.Inference
