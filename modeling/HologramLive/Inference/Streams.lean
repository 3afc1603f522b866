import HologramLive.Inference.Compat
namespace HologramLive.Inference
open Lines Reader

-- The lines up to the end of a stream: the line that ends it, or the one that is
-- too long, or all of them.
def UpTo (ends : Bytes → Bool) (handled rest : List Bytes) : Prop :=
  (∃ before line,handled = before ++ [line] ∧ (∀ earlier ∈ before,ends earlier = false) ∧ ends line = true) ∨
  (∀ line ∈ handled,ends line = false) ∧ ∀ line later,rest = line :: later → maxStreamLineBytes + 1 < line.length

def EndsOnce (text : Bytes → Str) (ends : Bytes → Bool) (body : List (Except Str Bytes)) (items : List Item) : Prop :=
  ∃ (deltas : List Str) (last : Item) (handled rest : List Bytes),items = deltas.map delta ++ [last] ∧ last.isEnd = true ∧
    (lines newline (received body)).1 = handled ++ rest ∧ UpTo ends handled rest ∧ deltas.flatten = handled.flatMap text

section Readers
variable {σ : Type} {reader : Reader σ UInt8 Item Str} {text : Bytes → Str} {ends : Bytes → Bool}

-- What a reader of items has to obey for its streams to end once.
structure Proper (reader : Reader σ UInt8 Item Str) (text : Bytes → Str) (ends : Bytes → Bool) : Prop where
  sep : reader.sep = newline
  cap : reader.cap = maxStreamLineBytes
  going : ∀ s line,ends line = false → ∃ (deltas : List Str) (t : σ),reader.line s line = (deltas.map delta,some t) ∧ deltas.flatten = text line
  ending : ∀ s line,ends line = true → ∃ (deltas : List Str) (last : Item),reader.line s line = (deltas.map delta ++ [last],none) ∧
    last.isEnd = true ∧ deltas.flatten = text line
  refused : reader.refused.isEnd = true
  failed : ∀ error,(reader.failed error).isEnd = true
  unfinished : reader.unfinished.isEnd = true

theorem Proper.walk (proper : Proper reader text ends) (parts : List Bytes) (s : σ) :
    (∃ (deltas : List Str) (t : σ),reader.walk s parts = (deltas.map delta,some t) ∧ (∀ line ∈ parts,ends line = false) ∧
      deltas.flatten = parts.flatMap text) ∨
    ∃ (deltas : List Str) (last : Item) (before : List Bytes) (line : Bytes) (rest : List Bytes),reader.walk s parts = (deltas.map delta ++ [last],none) ∧ last.isEnd = true ∧
      parts = before ++ line :: rest ∧ (∀ earlier ∈ before,ends earlier = false) ∧ ends line = true ∧
      deltas.flatten = (before ++ [line]).flatMap text := by
  induction parts generalizing s with
  | nil => exact .inl ⟨[],s,rfl,fun _ member => (List.not_mem_nil member).elim,rfl⟩
  | cons first later ih =>
    cases finished : ends first with
    | true =>
      obtain ⟨deltas,last,ran,isEnd,same⟩ := proper.ending s first finished
      refine .inr ⟨deltas,last,[],first,later,walk_over ran later,isEnd,rfl,List.forall_mem_nil _,finished,?_⟩
      rw [same]
      exact (List.append_nil _).symm
    | false =>
      obtain ⟨deltas,t,ran,same⟩ := proper.going s first finished
      rw [walk_on ran]
      rcases ih t with ⟨more,u,walked,goes,text⟩ | ⟨more,last,before,line,rest,walked,isEnd,split,goes,stops,text⟩
      · refine .inl ⟨deltas ++ more,u,?_,List.forall_mem_cons.mpr ⟨finished,goes⟩,?_⟩
        · rw [walked,List.map_append]
        · rw [List.flatten_append,same,text]; rfl
      · refine .inr ⟨deltas ++ more,last,first :: before,line,rest,?_,isEnd,?_,List.forall_mem_cons.mpr ⟨finished,goes⟩,stops,?_⟩
        · rw [walked,List.map_append,List.append_assoc]
        · rw [split]; rfl
        · rw [List.flatten_append,same,text]; rfl

theorem Proper.finish (proper : Proper reader text ends) {last : Item} (isEnd : last.isEnd = true) (parts rest : List Bytes) (s : σ)
    (long : ∀ line later,rest = line :: later → maxStreamLineBytes + 1 < line.length) :
    ∃ (deltas : List Str) (last' : Item) (handled after : List Bytes),reader.finish s parts last = deltas.map delta ++ [last'] ∧ last'.isEnd = true ∧
      parts ++ rest = handled ++ after ∧ UpTo ends handled after ∧ deltas.flatten = handled.flatMap text := by
  rcases proper.walk parts s with ⟨deltas,t,walked,goes,same⟩ | ⟨deltas,last',before,line,after,walked,ended,split,goes,stops,same⟩
  · refine ⟨deltas,last,parts,rest,?_,isEnd,rfl,.inr ⟨goes,long⟩,same⟩
    rw [Reader.finish,walked]
  · refine ⟨deltas,last',before ++ [line],after ++ rest,?_,ended,?_,.inl ⟨before,line,rfl,goes,stops⟩,same⟩
    · rw [Reader.finish,walked]
    · rw [split]
      simp

theorem Proper.stream (proper : Proper reader text ends) (s : σ) (body : List (Except Str Bytes)) :
    EndsOnce text ends body (reader.stream s [] body) := by
  unfold EndsOnce
  rw [stream_eq List.not_mem_nil,List.nil_append,proper.sep]
  cases stopped : reader.stop [] body with
  | none =>
    have isEnd : (reader.last (failureOf body)).isEnd = true := by
      cases failureOf body with
      | none => exact proper.unfinished
      | some error => exact proper.failed error
    have ended := proper.finish isEnd (lines newline (received body)).1 [] s fun _ _ never => nomatch never
    rw [List.append_nil] at ended
    exact ended
  | some k =>
    have ⟨_,long⟩ := stop_long List.not_mem_nil stopped
    have ended := proper.finish proper.refused ((lines newline (received body)).1.take k)
      ((lines newline (received body)).1.drop k) s <| by
        intro line later first; rw [Reader.Long,List.nil_append,proper.sep,first,proper.cap] at long
        exact long
    rw [List.take_append_drop] at ended
    exact ended

-- A stream shows what the whole text shows, when all that a long line hides is a
-- failure.
theorem shown_stream {s : σ} {body : Bytes} {pieces : List Bytes} (refused : reader.refused.shown = reader.unfinished.shown)
    (hidden : ∀ out t before line later,(lines reader.sep body).1 = before ++ line :: later →
      reader.walk s before = (out,some t) → reader.cap + 1 < line.length →
      shown (reader.finish t (line :: later) reader.unfinished) = [reader.refused.shown]) (cut : pieces.flatten = body) :
    shown (reader.stream s [] (pieces.map .ok)) = shown (reader.finish s (lines reader.sep body).1 reader.unfinished) := by
  rw [stream_eq List.not_mem_nil,List.nil_append,received_pieces,failure_pieces,cut]
  cases stopped : reader.stop [] (pieces.map .ok) with
  | none => rfl
  | some k =>
    have ⟨_,long⟩ := stop_long List.not_mem_nil stopped
    rw [Reader.Long,List.nil_append,received_pieces,cut] at long
    have parts := List.take_append_drop k (lines reader.sep body).1
    cases ran : reader.walk s ((lines reader.sep body).1.take k) with
    | mk out next =>
      simp only
      cases next with
      | none =>
        have same := finish_ended ran ((lines reader.sep body).1.drop k) reader.unfinished
        rw [parts] at same; rw [same,Reader.finish,ran]
      | some t =>
        have same := Reader.finish_append ran ((lines reader.sep body).1.drop k) reader.unfinished
        rw [parts] at same; rw [same,Reader.finish,ran]
        simp only [shown,List.map_append]
        cases after : (lines reader.sep body).1.drop k with
        | nil => rw [finish_nil]; simp only [List.map_cons,List.map_nil,refused]
        | cons line later =>
          rw [after] at long parts
          have rest := hidden out t _ line later parts.symm ran long
          unfold shown at rest; rw [rest]
          rfl

structure Alike (one other : Reader σ UInt8 Item Str) : Prop where
  line : ∀ s line,shown (one.line s line).1 = shown (other.line s line).1 ∧ (one.line s line).2 = (other.line s line).2

variable {one other : Reader σ UInt8 Item Str}

theorem Alike.walk (alike : Alike one other) (parts : List Bytes) (s : σ) :
    shown (one.walk s parts).1 = shown (other.walk s parts).1 ∧ (one.walk s parts).2 = (other.walk s parts).2 := by
  induction parts generalizing s with
  | nil => exact ⟨rfl,rfl⟩
  | cons line later ih =>
    obtain ⟨same,next⟩ := alike.line s line
    unfold Reader.walk
    cases ran : one.line s line with
    | mk out after =>
      cases went : other.line s line with
      | mk out' after' =>
        rw [ran,went] at same next; simp only at same next
        subst next
        cases after with
        | none => exact ⟨same,rfl⟩
        | some t =>
          obtain ⟨rest,last⟩ := ih t
          refine ⟨?_,last⟩
          simp only [shown,List.map_append] at same rest ⊢; rw [same,rest]

theorem Alike.finish (alike : Alike one other) (parts : List Bytes) (s : σ) (last : Item) :
    shown (one.finish s parts last) = shown (other.finish s parts last) := by
  have ⟨same,next⟩ := alike.walk parts s
  unfold Reader.finish
  cases ran : one.walk s parts with
  | mk out after =>
    cases went : other.walk s parts with
    | mk out' after' =>
      rw [ran,went] at same next
      simp only at same next
      subst next
      cases after with
      | none => exact same
      | some t => simp only [shown,List.map_append] at same ⊢; rw [same]

end Readers

end HologramLive.Inference

namespace HologramLive.Inference
open Lines

theorem textOf_deltaOf (text : Str) : ∃ deltas : List Str,deltaOf text = deltas.map delta ∧ deltas.flatten = text := by
  unfold deltaOf
  cases text with
  | nil => exact ⟨[],rfl,rfl⟩
  | cons c rest => exact ⟨[c :: rest],rfl,List.append_nil _⟩

namespace OllamaEngine
variable (fromStr : Str → Except Str OllamaStreamLine)

def text (line : Bytes) : Str :=
  match readLine fromStr line with
  | some (.ok parsed) => parsed.response
  | _ => []

def ends (line : Bytes) : Bool :=
  match readLine fromStr line with
  | some (.ok parsed) => parsed.done
  | some (.error _) => true
  | none => false

-- Lines with no text up to the first one that cannot be parsed, and none is done.
def Quiet : List Bytes → Prop
  | [] => True
  | line :: later =>
    match readLine fromStr line with
    | none => Quiet later
    | some (.error _) => True
    | some (.ok parsed) => parsed.response = [] ∧ parsed.done = false ∧ Quiet later

-- A line of the stream that is too long is followed by a failure and nothing else.
def Steady (body : Bytes) : Prop :=
  ∀ before line after,(lines newline body).1 = before ++ line :: after → (∀ earlier ∈ before,ends fromStr earlier = false) →
    maxStreamLineBytes + 1 < line.length → Quiet fromStr (line :: after)

variable {fromStr} {model : Str} {elapsed : UInt64}

variable {line : Bytes}

theorem line_skipped (read : readLine fromStr line = none) :
    (reader fromStr model elapsed).line () line = ([],some ()) := by
  simp only [reader,OllamaEngine.line,read]

theorem line_broken (read : readLine fromStr line = some (.error error)) : (reader fromStr model elapsed).line () line =
      ([.error (.protocol ("parse ollama stream line: ".toList ++ error))],none) := by
  simp only [reader,OllamaEngine.line,read]

variable {parsed : OllamaStreamLine}

theorem line_goes (read : readLine fromStr line = some (.ok parsed))
    (again : parsed.done = false) : (reader fromStr model elapsed).line () line = (deltaOf parsed.response,some ()) := by
  simp only [reader,OllamaEngine.line,read,again]
  rfl

theorem line_done (read : readLine fromStr line = some (.ok parsed))
    (finished : parsed.done = true) : (reader fromStr model elapsed).line () line = (deltaOf parsed.response ++
      [.ok (.done ⟨model,TokenUsage.fromCounts parsed.promptEvalCount parsed.evalCount,none,elapsed⟩)],none) := by
  simp only [reader,OllamaEngine.line,read,finished,if_true]

theorem proper : Proper (reader fromStr model elapsed) (text fromStr) (ends fromStr) where
  sep := rfl
  cap := rfl
  going := by
    intro s line goes
    unfold text
    unfold ends at goes
    cases read : readLine fromStr line with
    | none => exact ⟨[],(),line_skipped read,rfl⟩
    | some result =>
      rw [read] at goes
      cases result with
      | error error => cases goes
      | ok parsed =>
        obtain ⟨deltas,same,whole⟩ := textOf_deltaOf parsed.response
        exact ⟨deltas,(),same ▸ line_goes read goes,whole⟩
  ending := by
    intro s line stops
    unfold text
    unfold ends at stops
    cases read : readLine fromStr line with
    | none => rw [read] at stops; cases stops
    | some result =>
      rw [read] at stops
      cases result with
      | error error => exact ⟨[],_,line_broken read,rfl,rfl⟩
      | ok parsed =>
        obtain ⟨deltas,same,whole⟩ := textOf_deltaOf parsed.response
        exact ⟨deltas,_,same ▸ line_done read stops,rfl,whole⟩
  refused := rfl
  failed _ := rfl
  unfinished := rfl

theorem alike (other : UInt64) : Alike (reader fromStr model elapsed) (reader fromStr model other) where
  line := by
    intro s line
    unfold reader OllamaEngine.line
    simp only
    split
    · exact ⟨rfl,rfl⟩
    · exact ⟨rfl,rfl⟩
    · split
      · refine ⟨?_,rfl⟩
        simp [shown,Item.shown]
      · exact ⟨rfl,rfl⟩

def failedCode : Shown := .failed "LIVE_PROTOCOL_ERROR".toList

theorem quiet_iff (parts : List Bytes) : Quiet fromStr parts ↔
    shown ((reader fromStr model elapsed).finish () parts (reader fromStr model elapsed).unfinished) = [failedCode] := by
  induction parts with
  | nil => exact ⟨fun _ => rfl,fun _ => trivial⟩
  | cons line later ih =>
    unfold Quiet
    cases read : readLine fromStr line with
    | none => rw [Reader.finish_on (line_skipped read),List.nil_append]; exact ih
    | some result =>
      cases result with
      | error error =>
        rw [Reader.finish_over (line_broken read)]; exact ⟨fun _ => rfl,fun _ => trivial⟩
      | ok parsed =>
        simp only
        cases finished : parsed.done with
        | true =>
          rw [Reader.finish_over (line_done read finished)]
          constructor
          · rintro ⟨_,never,_⟩
            cases never
          · intro same
            have last := congrArg List.getLast? same
            simp [shown,Item.shown,failedCode] at last
        | false =>
          rw [Reader.finish_on (line_goes read finished)]
          unfold deltaOf
          cases parsed.response with
          | nil => simp only [true_and]; exact ih
          | cons c rest =>
            constructor
            · rintro ⟨never,_⟩
              cases never
            · intro same; cases same

def Independent (fromStr : Str → Except Str OllamaStreamLine) (model : Str) (body : Bytes) : Prop :=
  ∀ (one other : List Bytes) (elapsed later : UInt64),one.flatten = body → other.flatten = body →
    shown (completeStream fromStr model elapsed (one.map .ok)) = shown (completeStream fromStr model later (other.map .ok))

theorem walk_goes {before : List Bytes} (goes : ∀ earlier ∈ before,ends fromStr earlier = false) :
    ∃ out,(reader fromStr model elapsed).walk () before = (out,some ()) := by
  rcases proper.walk before () with ⟨deltas,t,walked,_⟩ | ⟨_,_,first,line,rest,_,_,split,_,stops,_⟩
  · exact ⟨_,walked⟩
  · rw [goes line (split ▸ List.mem_append_right _ List.mem_cons_self)] at stops
    cases stops

theorem goes_walk {before : List Bytes} {out : List Item} (walked : (reader fromStr model elapsed).walk () before = (out,some ())) :
    ∀ earlier ∈ before,ends fromStr earlier = false := by
  rcases (@proper fromStr model elapsed).walk before () with ⟨_,_,_,goes,_⟩ | ⟨_,_,_,_,_,ended,_⟩
  · exact goes
  · rw [walked] at ended
    cases ended

theorem steady_stream (steady : Steady fromStr body) {pieces : List Bytes} (cut : pieces.flatten = body) :
    shown (completeStream fromStr model elapsed (pieces.map .ok)) =
      shown ((reader fromStr model elapsed).finish () (lines newline body).1 (reader fromStr model elapsed).unfinished) := by
  refine shown_stream rfl ?_ cut
  intro out t before line later split walked long
  exact (quiet_iff _).mp (steady before line later split (goes_walk walked) long)

theorem steady_iff (model : Str) (body : Bytes) : Independent fromStr model body ↔ Steady fromStr body := by
  constructor
  · intro same before line after split goes long
    have whole : before.flatten ++ (line ++ after.flatten ++ (lines newline body).2) = body := by
      have flat := @lines_flatten _ _ newline body
      rw [split] at flat
      simpa using flat
    have shaped : ∀ other ∈ before ++ line :: after,∃ own,newline ∉ own ∧ other = own ++ [newline] :=
      fun other member => line_shape (split ▸ member)
    have own := shaped line (List.mem_append_right _ List.mem_cons_self)
    have ended : newline ∈ body := by
      obtain ⟨text,_,spelled⟩ := own
      rw [← whole,spelled]
      simp
    obtain ⟨out,walked⟩ := @walk_goes fromStr model 0 before goes
    have alone : completeStream fromStr model 0 [.ok body] = out ++
        (reader fromStr model 0).finish () (line :: after) (reader fromStr model 0).unfinished := by
      rw [completeStream,Reader.stream_single _ _ ended,← Reader.finish_append walked,← split]
      rfl
    have cut : completeStream fromStr model 0 ((parted maxStreamLineBytes before line
        (after.flatten ++ (lines newline body).2)).map .ok) = out ++ [(reader fromStr model 0).refused] := by
      rw [completeStream]
      refine ((reader fromStr model 0).stream_parted () (fun other member => shaped other (List.mem_append_left _ member))
        own long _).trans ?_
      rw [Reader.finish,walked]
    have shows := same [body] (parted maxStreamLineBytes before line (after.flatten ++ (lines newline body).2)) 0 0
      (List.append_nil _) (by rw [parted_flatten,← List.append_assoc line,whole])
    rw [cut,List.map_singleton,alone] at shows
    simp only [shown,List.map_append] at shows
    exact (@quiet_iff fromStr model 0 (line :: after)).mpr (List.append_cancel_left shows)
  · intro steady one other elapsed later cut again
    rw [steady_stream steady cut,steady_stream steady again]
    exact (alike later).finish _ _ _

end OllamaEngine

namespace VllmEngine
variable (fromStr : Str → Except Str VllmStreamChunk)

def event (line : Bytes) : Option VllmStreamChunk :=
  if maxStreamLineBytes < line.length-1 then none
  else match readLine line with
    | none => none
    | some data =>
      if data = "[DONE]".toList then none
      else match fromStr data with
        | .error _ => none
        | .ok parsed => if parsed.error.isSome then none else some parsed

def text (line : Bytes) : Str :=
  match event fromStr line with
  | some parsed => parsed.choices.flatMap (·.text)
  | none => []

def ends (line : Bytes) : Bool :=
  maxStreamLineBytes < line.length-1 || ((readLine line).isSome && (event fromStr line).isNone)

variable {fromStr} {elapsed : UInt64}

theorem deltas_choices (choices : List VllmChoice) : ∃ deltas : List Str,
    (choices.flatMap fun choice => deltaOf choice.text) = deltas.map delta ∧ deltas.flatten = choices.flatMap (·.text) := by
  induction choices with
  | nil => exact ⟨[],rfl,rfl⟩
  | cons choice later ih =>
    obtain ⟨first,same,whole⟩ := textOf_deltaOf choice.text
    obtain ⟨rest,again,text⟩ := ih
    refine ⟨first ++ rest,?_,?_⟩
    · rw [List.flatMap_cons,same,again,List.map_append]
    · rw [List.flatten_append,whole,text,List.flatMap_cons]

-- What a line does to a stream, by what it holds.
theorem line_cases (state : Str × Option TokenUsage) (line : Bytes) :
    (ends fromStr line = false ∧ text fromStr line = [] ∧ (reader fromStr elapsed).line state line = ([],some state)) ∨
    (∃ (parsed : VllmStreamChunk) (next : Str × Option TokenUsage),ends fromStr line = false ∧ text fromStr line = parsed.choices.flatMap (·.text) ∧
      (reader fromStr elapsed).line state line = (parsed.choices.flatMap fun choice => deltaOf choice.text,some next)) ∨
    ∃ last : Item,ends fromStr line = true ∧ text fromStr line = [] ∧ last.isEnd = true ∧
      (reader fromStr elapsed).line state line = ([last],none) := by
  simp only [ends,text,event,reader,VllmEngine.line]
  split
  · exact .inr (.inr ⟨_,by simp_all,rfl,rfl,rfl⟩)
  · rename_i short
    cases readLine line with
    | none => exact .inl ⟨by simp [short],rfl,rfl⟩
    | some data =>
      simp only
      split
      · exact .inr (.inr ⟨_,by simp,rfl,rfl,rfl⟩)
      · cases fromStr data with
        | error error => exact .inr (.inr ⟨_,by simp,rfl,rfl,rfl⟩)
        | ok parsed =>
          simp only
          cases parsed.error with
          | some error => exact .inr (.inr ⟨_,by simp,rfl,rfl,rfl⟩)
          | none => exact .inr (.inl ⟨parsed,_,by simp [short],rfl,rfl⟩)

theorem proper : Proper (reader fromStr elapsed) (text fromStr) (ends fromStr) where
  sep := rfl
  cap := rfl
  going := by
    intro state line goes
    rcases line_cases state line with ⟨_,empty,ran⟩ | ⟨parsed,next,_,same,ran⟩ | ⟨_,stops,_⟩
    · exact ⟨[],_,ran,empty.symm⟩
    · obtain ⟨deltas,yielded,whole⟩ := deltas_choices parsed.choices
      exact ⟨deltas,next,ran.trans (by rw [yielded]),whole.trans same.symm⟩
    · rw [goes] at stops
      cases stops
  ending := by
    intro state line stops
    rcases line_cases state line with ⟨goes,_⟩ | ⟨_,_,goes,_⟩ | ⟨last,_,empty,isEnd,ran⟩
    · rw [stops] at goes
      cases goes
    · rw [stops] at goes
      cases goes
    · exact ⟨[],last,ran,isEnd,empty.symm⟩
  refused := rfl
  failed _ := rfl
  unfinished := rfl

theorem alike (other : UInt64) : Alike (reader fromStr elapsed) (reader fromStr other) where
  line := by
    intro state line
    simp only [reader,VllmEngine.line]
    split
    · exact ⟨rfl,rfl⟩
    cases readLine line with
    | none => exact ⟨rfl,rfl⟩
    | some data =>
      simp only
      split
      · exact ⟨rfl,rfl⟩
      · cases fromStr data with
        | error error => exact ⟨rfl,rfl⟩
        | ok parsed =>
          simp only
          cases parsed.error <;> exact ⟨trivial,trivial⟩

theorem long_line {line : Bytes} (long : maxStreamLineBytes + 1 < line.length) (state : Str × Option TokenUsage) :
    (reader fromStr elapsed).line state line = ([exceeded],none) := by
  simp only [reader,VllmEngine.line]
  rw [if_pos (by omega)]

theorem stream_shown (model : Str) {body : Bytes} {pieces : List Bytes} (cut : pieces.flatten = body) :
    shown (completeStream fromStr model elapsed (pieces.map .ok)) = shown ((reader fromStr elapsed).finish (model,none)
      (lines newline body).1 (reader fromStr elapsed).unfinished) := by
  refine shown_stream rfl ?_ cut
  intro out t before line later split walked long
  rw [Reader.finish_over (long_line long t)]
  rfl

def Independent (fromStr : Str → Except Str VllmStreamChunk) (model : Str) (body : Bytes) : Prop :=
  ∀ (one other : List Bytes) (elapsed later : UInt64),one.flatten = body → other.flatten = body →
    shown (completeStream fromStr model elapsed (one.map .ok)) = shown (completeStream fromStr model later (other.map .ok))

theorem independent (model : Str) (body : Bytes) : Independent fromStr model body := by
  intro one other elapsed later cut again
  rw [stream_shown model cut,stream_shown model again]
  exact (alike later).finish _ _ _

end VllmEngine

theorem streams_end_once (ollama : Str → Except Str OllamaStreamLine) (vllm : Str → Except Str VllmStreamChunk) (model : Str) :
    (∀ body : Bytes,OllamaEngine.Independent ollama model body ↔ OllamaEngine.Steady ollama body) ∧
    (∀ body : Bytes,VllmEngine.Independent vllm model body) ∧ ∀ (body : List (Except Str Bytes)) (elapsed : UInt64),
      EndsOnce (OllamaEngine.text ollama) (OllamaEngine.ends ollama) body (OllamaEngine.completeStream ollama model elapsed body) ∧
      EndsOnce (VllmEngine.text vllm) (VllmEngine.ends vllm) body (VllmEngine.completeStream vllm model elapsed body) :=
  ⟨OllamaEngine.steady_iff model,VllmEngine.independent model,
    fun body _ => ⟨OllamaEngine.proper.stream () body,VllmEngine.proper.stream (model,none) body⟩⟩

def longText : Str := List.replicate maxStreamLineBytes 'a'
def longLine : Bytes := toUtf8 (encodeLine (deltaRows [] [] longText))
def doneLine : Bytes := toUtf8 (encodeLine (doneRows [] [] ⟨[],none,none,0⟩))

theorem longLine_long : maxStreamLineBytes + 1 < longLine.length := by
  have long := deltaRows_length [] [] longText
  rw [longText,List.length_replicate] at long
  exact long

theorem long_line_cut : ∃ one other : List Bytes,one.flatten = other.flatten ∧
    OllamaEngine.completeStream fromJson [] 0 (one.map .ok) = [delta longText,.ok (.done ⟨[],none,none,0⟩)] ∧
    ∃ message,OllamaEngine.completeStream fromJson [] 0 (other.map .ok) = [.error (.protocol message)] := by
  have own := encoded_shape (deltaRows_scalar [] [] longText)
  have ended : lines newline (longLine ++ doneLine) = ([longLine,doneLine],[]) := by
    have whole := @lines_whole _ _ newline [longLine,doneLine] <| by
      intro line member
      simp only [List.mem_cons,List.not_mem_nil,or_false] at member
      rcases member with rfl | rfl
      · exact own
      · exact encoded_shape (doneRows_scalar [] [] ⟨[],none,none,0⟩)
    simp only [List.flatten_cons,List.flatten_nil,List.append_nil] at whole
    exact whole
  have there : newline ∈ longLine ++ doneLine := by
    obtain ⟨body,_,spelled⟩ := own
    refine List.mem_append_left _ ?_
    rw [longLine,spelled]
    exact List.mem_append_right _ List.mem_cons_self
  refine ⟨[longLine ++ doneLine],parted maxStreamLineBytes [] longLine doneLine,?_,?_,?_⟩
  · rw [parted_flatten]
    simp
  · have first := readLine_encoded fromJson_reads (deltaRows_scalar [] [] longText) (deltaRows_read [] [] longText)
    have last := readLine_encoded fromJson_reads (doneRows_scalar [] [] ⟨[],none,none,0⟩) (doneRows_read [] [] ⟨[],none,none,0⟩)
    rw [OllamaEngine.completeStream,List.map_singleton,Reader.stream_single _ _ there]
    have sep : (OllamaEngine.reader fromJson [] 0).sep = newline := rfl
    rw [sep,ended,longLine,doneLine,Reader.finish_on (OllamaEngine.line_goes first rfl),Reader.finish_over (OllamaEngine.line_done last rfl)]
    have some : deltaOf longText = [delta longText] := by
      unfold deltaOf longText
      rw [if_neg (by simp [maxStreamLineBytes])]
    rw [some]
    rfl
  · have cut := (OllamaEngine.reader fromJson [] 0).stream_parted () (List.forall_mem_nil _) own longLine_long doneLine
    exact ⟨"ollama stream line exceeded ".toList ++ decimal maxStreamLineBytes ++ " bytes without a newline".toList,cut⟩

end HologramLive.Inference
