import HologramLive.Inference.Streams
namespace HologramLive.Inference
open Lines OllamaEngine Reader List

def endsDone (usage : Option TokenUsage) (items : List Item) : Prop :=
  ∃ summary : CompletionSummary,items.getLast? = some (.ok (.done summary)) ∧ summary.usage = usage
def endsErr (items : List Item) : Prop := ∃ error : LiveError,items.getLast? = some (.error error)

-- The contract of the engines: deltas, and then one Done or one Err.
def Obeys (events : List Item) : Prop := ∃ (deltas : List Str) (last : Item),events = deltas.map delta ++ [last] ∧ last.isEnd = true

structure Faithful (inner outer : List Item) : Prop where
  text : textOf outer = textOf inner
  done : ∀ usage,endsDone usage outer ↔ endsDone usage inner
  failed : endsErr outer ↔ endsErr inner

def endLine (model now : Str) : Item → Str
  | .ok (.done summary) => encodeLine (doneRows model now summary)
  | .ok (.delta text) => encodeLine (deltaRows model now text)
  | .error error => encodeLine (OllamaErrorBody.rows error)

def deltaLines (model : Str) (now : Nat → Str) (i : Nat) : List Str → List Str
  | [] => []
  | text :: later => encodeLine (deltaRows model (now i) text) :: deltaLines model now (i+1) later

variable {last : Item}

variable (model : Str)

variable (now : Nat → Str)

theorem ndjson_lines (isEnd : last.isEnd = true) (deltas : List Str) (i : Nat) :
    ndjsonFrom model .response now i (deltas.map delta ++ [last]) =
      deltaLines model now i deltas ++ [endLine model (now (i+deltas.length)) last] := by
  induction deltas generalizing i with
  | nil =>
    match last with
    | .ok (.delta text) => cases isEnd
    | .ok (.done summary) => rfl
    | .error error => rfl
  | cons text later ih =>
    have next := ih (i+1)
    rw [show i+1+later.length = i+(text :: later).length by rw [length_cons]; omega] at next
    exact congrArg (encodeLine (deltaRows model (now i) text) :: ·) next

theorem deltaLines_length (deltas : List Str) (i : Nat) : (deltaLines model now i deltas).length = deltas.length := by
  induction deltas generalizing i with
  | nil => rfl
  | cons text later ih => exact congrArg (·+1) (ih (i+1))

theorem deltaLines_take (deltas : List Str) (i k : Nat) :
    (deltaLines model now i deltas).take k = deltaLines model now i (deltas.take k) := by
  induction deltas generalizing i k with
  | nil => simp [deltaLines]
  | cons text later ih =>
    cases k with
    | zero => rfl
    | succ k => exact congrArg (encodeLine (deltaRows model (now i) text) :: ·) (ih (i+1) k)

section Reading
variable {fromStr : Str → Except Str OllamaStreamLine} {engine : Str} {elapsed : UInt64}

theorem deltaLines_walk (reads : Reads fromStr) (model : Str) (now : Nat → Str) (deltas : List Str) (i : Nat) :
    (reader fromStr engine elapsed).walk () ((deltaLines model now i deltas).map toUtf8) =
      (deltas.flatMap deltaOf,some ()) := by
  induction deltas generalizing i with
  | nil => rfl
  | cons text later ih =>
    have read := readLine_encoded reads (deltaRows_scalar model (now i) text) (deltaRows_read model (now i) text)
    rw [deltaLines,map_cons,walk_on (line_goes read rfl),ih]
    rfl

-- The end that the upstream engine yields for the end of the stream within.
def endAgain (engine : Str) (elapsed : UInt64) (unfinished : Item) : Item → Item
  | .ok (.done summary) => .ok (.done ⟨engine,summary.usage,none,elapsed⟩)
  | _ => unfinished

theorem endLine_finish (reads : Reads fromStr) (model now : Str) (isEnd : last.isEnd = true) :
    (reader fromStr engine elapsed).finish () [toUtf8 (endLine model now last)]
        (reader fromStr engine elapsed).unfinished =
      [endAgain engine elapsed (reader fromStr engine elapsed).unfinished last] := by
  match last with
  | .ok (.delta text) => cases isEnd
  | .ok (.done summary) =>
    have read := readLine_encoded reads (doneRows_scalar model now summary) (doneRows_read model now summary)
    rw [endLine,finish_over (line_done read rfl)]
    obtain ⟨_,usage,_,_⟩ := summary
    cases usage <;> rfl
  | .error error =>
    have read := readLine_encoded reads (errorRows_scalar error) (errorRows_read error)
    rw [endLine,finish_on (line_goes read rfl)]
    rfl

def bodyOf (events : List Item) : Bytes :=
  ((ndjsonResponse model .response now events).map toUtf8).flatten

theorem deltaLines_shape (deltas : List Str) (i : Nat) :
    ∀ line ∈ (deltaLines model now i deltas).map toUtf8,∃ body,newline ∉ body ∧ line = body ++ [newline] := by
  induction deltas generalizing i with
  | nil => intro line member; cases member
  | cons text later ih => exact forall_mem_cons.mpr ⟨encoded_shape (deltaRows_scalar model (now i) text),ih (i+1)⟩

theorem endLine_shape (model now : Str) (last : Item) :
    ∃ body,newline ∉ body ∧ toUtf8 (endLine model now last) = body ++ [newline] := by
  match last with
  | .ok (.delta text) => exact encoded_shape (deltaRows_scalar model now text)
  | .ok (.done summary) => exact encoded_shape (doneRows_scalar model now summary)
  | .error error => exact encoded_shape (errorRows_scalar error)

theorem bodyOf_lines (deltas : List Str) (isEnd : last.isEnd = true) :
    lines newline (bodyOf model now (deltas.map delta ++ [last])) =
      ((deltaLines model now 0 deltas).map toUtf8 ++ [toUtf8 (endLine model (now deltas.length) last)],[]) := by
  unfold bodyOf ndjsonResponse
  rw [ndjson_lines model now isEnd,Nat.zero_add,map_append,map_singleton]
  refine lines_whole ?_
  intro line member
  rcases mem_append.mp member with before | own
  · exact deltaLines_shape model now deltas 0 line before
  · rw [mem_singleton] at own
    rw [own]
    exact endLine_shape model _ last

theorem textOf_deltas (deltas : List Str) : textOf (deltas.flatMap deltaOf) = deltas.flatten := by
  unfold textOf
  induction deltas with
  | nil => rfl
  | cons text later ih =>
    rw [flatMap_cons,flatMap_append,ih]
    cases text with
    | nil => rfl
    | cons c rest => simp [deltaOf,delta,Item.text]

theorem upstream_stream (reads : Reads fromStr) (model : Str) (now : Nat → Str) (deltas : List Str) {last : Item}
    (isEnd : last.isEnd = true) {chunks : List Bytes} (cut : chunks.flatten = bodyOf model now (deltas.map delta ++ [last])) :
    match (reader fromStr engine elapsed).stop [] (chunks.map .ok) with
    | none => completeStream fromStr engine elapsed (chunks.map .ok) = deltas.flatMap deltaOf ++
        [endAgain engine elapsed (reader fromStr engine elapsed).unfinished last]
    | some k => k ≤ deltas.length ∧ completeStream fromStr engine elapsed (chunks.map .ok) =
        (deltas.take k).flatMap deltaOf ++ [(reader fromStr engine elapsed).refused] := by
  have parts := bodyOf_lines model now deltas isEnd
  have walked := @deltaLines_walk fromStr engine elapsed reads model now
  rw [← cut] at parts
  unfold completeStream
  rw [stream_eq not_mem_nil,nil_append,received_pieces,failure_pieces]
  have sep : (reader fromStr engine elapsed).sep = newline := rfl
  cases stopped : (reader fromStr engine elapsed).stop [] (chunks.map .ok) with
  | none =>
    simp only
    rw [sep,parts,finish_append (walked deltas 0),← endLine_finish reads model (now deltas.length) isEnd]
    rfl
  | some k =>
    have ⟨bound,long⟩ := stop_long not_mem_nil stopped
    rw [nil_append,received_pieces,sep,parts,length_append,length_map,deltaLines_length,length_singleton] at bound
    rw [Reader.Long,nil_append,received_pieces,sep,parts] at long
    simp only at long ⊢
    have within : k ≤ deltas.length := by
      by_cases all : k = deltas.length+1
      · rw [drop_eq_nil_of_le (by simp [deltaLines_length,all])] at long; cases long
      · omega
    have prior : ((deltaLines model now 0 deltas).map toUtf8 ++ [toUtf8 (endLine model (now deltas.length) last)]).take k =
        (deltaLines model now 0 (deltas.take k)).map toUtf8 := by
      rw [take_append_of_le_length (by rw [length_map,deltaLines_length]; exact within),← map_take,deltaLines_take]
    refine ⟨within,?_⟩
    rw [sep,parts,prior,finish,walked]

theorem endsDone_iff : endsDone usage (items ++ [last]) ↔
    ∃ summary : CompletionSummary,last = .ok (.done summary) ∧ summary.usage = usage := by
  unfold endsDone
  rw [getLast?_concat]
  simp only [Option.some.injEq]

theorem endsErr_iff : endsErr (items ++ [last]) ↔ ∃ error : LiveError,last = .error error := by
  unfold endsErr
  rw [getLast?_concat]
  simp only [Option.some.injEq]

theorem textOf_append (items more : List Item) : textOf (items ++ more) = textOf items ++ textOf more := flatMap_append

theorem textOf_end (isEnd : last.isEnd = true) : textOf [last] = [] := by
  match last with
  | .ok (.delta text) => cases isEnd
  | .ok (.done summary) => rfl
  | .error error => rfl

theorem textOf_plain (deltas : List Str) : textOf (deltas.map delta) = deltas.flatten := by
  unfold textOf
  induction deltas with
  | nil => rfl
  | cons text later ih => rw [map_cons,flatMap_cons,ih]; rfl

-- What the upstream engine yields is faithful, unless it gives up a line on which
-- something depends.
theorem endpoint_faithful (reads : Reads fromStr) (model : Str) (now : Nat → Str) {events : List Item} (obeys : Obeys events)
    (chunks : List Bytes) (cut : chunks.flatten = bodyOf model now events) :
    Faithful events (completeStream fromStr engine elapsed (chunks.map .ok)) ↔
      match (reader fromStr engine elapsed).stop [] (chunks.map .ok) with
      | none => True
      | some k => endsErr events ∧ textOf (events.drop k) = [] := by
  obtain ⟨deltas,last,rfl,isEnd⟩ := obeys
  have stream := @upstream_stream fromStr engine elapsed reads model now deltas last isEnd chunks cut
  cases stopped : (reader fromStr engine elapsed).stop [] (chunks.map .ok) with
  | none =>
    rw [stopped] at stream
    simp only at stream ⊢
    rw [stream]
    refine ⟨fun _ => trivial,fun _ => ⟨?_,?_,?_⟩⟩
    · rw [textOf_append,textOf_append,textOf_deltas,textOf_plain,textOf_end isEnd,textOf_end]
      match last with
      | .ok (.delta text) => cases isEnd
      | .ok (.done summary) => rfl
      | .error error => rfl
    · intro usage
      rw [endsDone_iff,endsDone_iff]
      match last with
      | .ok (.delta text) => cases isEnd
      | .ok (.done summary) =>
        constructor
        · rintro ⟨_,same,rfl⟩
          cases same; exact ⟨summary,rfl,rfl⟩
        · rintro ⟨_,same,rfl⟩
          cases same; exact ⟨_,rfl,rfl⟩
      | .error error =>
        constructor
        · rintro ⟨_,never,_⟩
          cases never
        · rintro ⟨_,never,_⟩
          cases never
    · rw [endsErr_iff,endsErr_iff]
      match last with
      | .ok (.delta text) => cases isEnd
      | .ok (.done summary) =>
        constructor
        · rintro ⟨_,never⟩
          cases never
        · rintro ⟨_,never⟩
          cases never
      | .error error => exact ⟨fun _ => ⟨error,rfl⟩,fun _ => ⟨_,rfl⟩⟩
  | some k =>
    rw [stopped] at stream
    obtain ⟨within,stream⟩ := stream
    simp only
    rw [stream]
    have rest : textOf ((deltas.map delta ++ [last]).drop k) = (deltas.drop k).flatten := by
      rw [drop_append_of_le_length (by rw [length_map]; exact within),textOf_append,textOf_end isEnd,← map_drop,
        textOf_plain,append_nil]
    have shown : textOf ((deltas.take k).flatMap deltaOf ++ [(reader fromStr engine elapsed).refused]) =
        (deltas.take k).flatten := by
      rw [textOf_append,textOf_deltas]
      exact append_nil _
    have whole : textOf (deltas.map delta ++ [last]) = (deltas.take k).flatten ++ (deltas.drop k).flatten := by
      rw [textOf_append,textOf_plain,textOf_end isEnd,append_nil,← flatten_append,take_append_drop]
    rw [rest]
    constructor
    · rintro ⟨text,_,failed⟩
      rw [shown,whole] at text
      refine ⟨failed.mp (endsErr_iff.mpr ⟨_,rfl⟩),?_⟩
      have same : (deltas.take k).flatten ++ [] = (deltas.take k).flatten ++ (deltas.drop k).flatten := by
        rw [append_nil,← text]
      exact (append_cancel_left same).symm
    · rintro ⟨failed,none⟩
      obtain ⟨error,rfl⟩ := endsErr_iff.mp failed
      refine ⟨?_,?_,?_⟩
      · rw [shown,whole,none,append_nil]
      · intro usage; rw [endsDone_iff,endsDone_iff]
        constructor
        · rintro ⟨_,never,_⟩
          cases never
        · rintro ⟨_,never,_⟩
          cases never
      · exact ⟨fun _ => failed,fun _ => endsErr_iff.mpr ⟨_,rfl⟩⟩

end Reading

def answered : List Item := [delta "hi".toList,delta "\n".toList,.ok (.done ⟨"echo".toList,some ⟨3,5⟩,none,7⟩)]

theorem endpoint_faithful_answered : Faithful answered
    (completeStream fromJson "hologram".toList 9 ([bodyOf "demo".toList (fun _ => "now".toList) answered].map .ok)) := by
  have whole : (reader fromJson "hologram".toList 9).stop []
      [.ok (bodyOf "demo".toList (fun _ => "now".toList) answered)] = none := by
    decide +kernel
  have obeys : Obeys answered := ⟨["hi".toList,"\n".toList],_,rfl,rfl⟩
  refine (endpoint_faithful fromJson_reads "demo".toList (fun _ => "now".toList) obeys
    [bodyOf "demo".toList (fun _ => "now".toList) answered] (append_nil _)).mpr ?_
  rw [map_singleton,whole]
  trivial

theorem long_delta_lost : ∃ (events : List Item) (chunks : List Bytes),Obeys events ∧
    chunks.flatten = bodyOf [] (fun _ => []) events ∧ ¬Faithful events (completeStream fromJson [] 0 (chunks.map .ok)) := by
  refine ⟨[delta longText,.ok (.done ⟨[],none,none,0⟩)],parted maxStreamLineBytes [] longLine doneLine,
    ⟨[longText],_,rfl,rfl⟩,?_,?_⟩
  · rw [parted_flatten]
    simp only [bodyOf,ndjsonResponse,delta,ndjsonFrom,map_cons,map_nil,flatten_cons,flatten_nil,
      append_nil,nil_append]
    rfl
  · intro faithful
    have cut := (reader fromJson [] 0).stream_parted () (forall_mem_nil _)
      (encoded_shape (deltaRows_scalar [] [] longText)) longLine_long doneLine
    have text := faithful.text
    rw [completeStream] at text
    have lost : textOf ((reader fromJson [] 0).stream () [] ((parted maxStreamLineBytes [] longLine doneLine).map .ok)) = [] :=
      (congrArg textOf cut).trans rfl
    have whole := textOf_append [delta longText] [.ok (.done ⟨[],none,none,0⟩)]
    have size := congrArg length (lost.symm.trans (text.trans whole))
    have single : textOf [delta longText] = longText := (textOf_plain [longText]).trans (append_nil _)
    have positive : 0 < maxStreamLineBytes := by decide
    rw [single,length_append,longText,length_replicate,length_nil] at size
    omega

end HologramLive.Inference
