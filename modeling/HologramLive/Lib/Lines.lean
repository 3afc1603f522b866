import Mathlib

-- A stream that comes in pieces and is read by lines. What is yielded depends on
-- the pieces only where an unfinished line is given up for its length.
namespace Lines

section Splitting
variable {β : Type} [DecidableEq β] (sep : β)

def lines : List β → List (List β) × List β
  | [] => ([],[])
  | b :: rest =>
    if b = sep then ([b] :: (lines rest).1,(lines rest).2)
    else match (lines rest).1 with
      | [] => ([],b :: (lines rest).2)
      | line :: later => ((b :: line) :: later,(lines rest).2)

variable {sep} {text body : List β}

theorem lines_sep (rest : List β) : lines sep (sep :: rest) = ([sep] :: (lines sep rest).1,(lines sep rest).2) := by
  rw [lines,if_pos rfl]

theorem lines_last (apart : b ≠ sep) (empty : (lines sep rest).1 = []) :
    lines sep (b :: rest) = ([],b :: (lines sep rest).2) := by
  rw [lines,if_neg apart,empty]

theorem lines_grow (apart : b ≠ sep)
    (first : (lines sep rest).1 = line :: later) : lines sep (b :: rest) = ((b :: line) :: later,(lines sep rest).2) := by
  rw [lines,if_neg apart,first]

open List

theorem lines_flatten (text : List β) : (lines sep text).1.flatten ++ (lines sep text).2 = text := by
  induction text with
  | nil => rfl
  | cons b rest ih =>
    by_cases same : b = sep
    · rw [same,lines_sep,flatten_cons,append_assoc,ih]
      rfl
    · cases first : (lines sep rest).1 with
      | nil =>
        rw [first] at ih; rw [lines_last same first]
        exact congrArg (b :: ·) ih
      | cons line later =>
        rw [first] at ih; rw [lines_grow same first]
        exact congrArg (b :: ·) ih

theorem lines_open (free : sep ∉ body) (text : List β) : lines sep (body ++ text) =
    match (lines sep text).1 with
    | [] => ([],body ++ (lines sep text).2)
    | line :: later => ((body ++ line) :: later,(lines sep text).2) := by
  induction body with
  | nil =>
    rw [nil_append]
    cases first : (lines sep text).1 with
    | nil => exact Prod.ext first rfl
    | cons line later => exact Prod.ext first rfl
  | cons b rest ih =>
    have apart : b ≠ sep := fun same => free (same ▸ mem_cons_self)
    have within := ih fun member => free (mem_cons_of_mem _ member)
    rw [cons_append]
    cases first : (lines sep text).1 with
    | nil =>
      rw [first] at within
      rw [lines_last apart (congrArg Prod.fst within),within]
      rfl
    | cons line later =>
      rw [first] at within
      rw [lines_grow apart (congrArg Prod.fst within),within]
      rfl

theorem lines_plain (free : sep ∉ body) : lines sep body = ([],body) := by
  have whole := lines_open free []
  rw [append_nil] at whole
  exact whole.trans (congrArg (Prod.mk []) (append_nil body))

theorem lines_line (free : sep ∉ body) (text : List β) :
    lines sep (body ++ sep :: text) = ((body ++ [sep]) :: (lines sep text).1,(lines sep text).2) := by
  rw [lines_open free,lines_sep]

theorem lines_append (text more : List β) : lines sep (text ++ more) =
    ((lines sep text).1 ++ (lines sep ((lines sep text).2 ++ more)).1,(lines sep ((lines sep text).2 ++ more)).2) := by
  induction text with
  | nil => rfl
  | cons b rest ih =>
    rw [cons_append]
    by_cases same : b = sep
    · rw [same,lines_sep,lines_sep,ih]
      rfl
    · cases first : (lines sep rest).1 with
      | nil =>
        have plain : (lines sep rest).2 = rest := by
          have whole := @lines_flatten _ _ sep rest
          rw [first] at whole; exact whole
        rw [lines_last same first,plain]; rfl
      | cons line later =>
        rw [first] at ih; rw [lines_grow same (congrArg Prod.fst ih),ih,lines_grow same first]
        rfl

theorem lines_rest (text : List β) : sep ∉ (lines sep text).2 := by
  induction text with
  | nil => exact not_mem_nil
  | cons b rest ih =>
    by_cases same : b = sep
    · rw [same,lines_sep]
      exact ih
    · cases first : (lines sep rest).1 with
      | nil =>
        rw [lines_last same first]; intro member
        rcases mem_cons.mp member with is | old
        · exact same is.symm
        · exact ih old
      | cons line later => rw [lines_grow same first]; exact ih

theorem line_shape (member : line ∈ (lines sep text).1) : ∃ body,sep ∉ body ∧ line = body ++ [sep] := by
  induction text generalizing line with
  | nil => cases member
  | cons b rest ih =>
    by_cases same : b = sep
    · rw [same,lines_sep] at member
      rcases mem_cons.mp member with rfl | later
      · exact ⟨[],not_mem_nil,rfl⟩
      · exact ih later
    · cases found : (lines sep rest).1 with
      | nil => rw [lines_last same found] at member; cases member
      | cons first later =>
        rw [lines_grow same found] at member
        rcases mem_cons.mp member with rfl | old
        · obtain ⟨body,free,rfl⟩ := ih (found ▸ mem_cons_self)
          refine ⟨b :: body,?_,rfl⟩
          intro member
          rcases mem_cons.mp member with is | old
          · exact same is.symm
          · exact free old
        · exact ih (found ▸ mem_cons_of_mem _ old)

theorem lines_whole {parts : List (List β)} (shaped : ∀ line ∈ parts,∃ body,sep ∉ body ∧ line = body ++ [sep]) :
    lines sep parts.flatten = (parts,[]) := by
  induction parts with
  | nil => rfl
  | cons line later ih =>
    have ⟨first,rest⟩ := forall_mem_cons.mp shaped
    obtain ⟨body,free,rfl⟩ := first
    rw [flatten_cons,append_assoc,singleton_append,lines_line free,ih rest]

end Splitting

-- How a stream is read: what a line yields and the state after it (none when the
-- stream is over), how long an unfinished line may grow, and what is yielded last.
structure Reader (σ β ι ε : Type) where
  sep : β
  cap : Nat
  line : σ → List β → List ι × Option σ
  refused : ι
  failed : ε → ι
  unfinished : ι

variable {σ β ι ε : Type} [DecidableEq β] (reader : Reader σ β ι ε)

def Reader.walk (s : σ) : List (List β) → List ι × Option σ
  | [] => ([],some s)
  | line :: later =>
    match reader.line s line with
    | (out,none) => (out,none)
    | (out,some t) => (out ++ (Reader.walk t later).1,(Reader.walk t later).2)

-- The pieces as they come: the lines that are complete are taken off the buffer,
-- the buffer may not be one unfinished line that is too long.
def Reader.stream (s : σ) (buffered : List β) : List (Except ε (List β)) → List ι
  | [] => [reader.unfinished]
  | .error error :: _ => [reader.failed error]
  | .ok chunk :: later =>
    if reader.cap < (buffered ++ chunk).length ∧ reader.sep ∉ buffered ++ chunk then [reader.refused]
    else match reader.walk s (lines reader.sep (buffered ++ chunk)).1 with
      | (out,none) => out
      | (out,some t) => out ++ Reader.stream t (lines reader.sep (buffered ++ chunk)).2 later

def Reader.stop (buffered : List β) : List (Except ε (List β)) → Option Nat
  | [] | .error _ :: _ => none
  | .ok chunk :: later =>
    if reader.cap < (buffered ++ chunk).length ∧ reader.sep ∉ buffered ++ chunk then some 0
    else (Reader.stop (lines reader.sep (buffered ++ chunk)).2 later).map
      ((lines reader.sep (buffered ++ chunk)).1.length + ·)

def received : List (Except ε (List β)) → List β
  | [] | .error _ :: _ => []
  | .ok chunk :: later => chunk ++ received later

def failureOf : List (Except ε (List β)) → Option ε
  | [] => none
  | .error error :: _ => some error
  | .ok _ :: later => failureOf later

def Reader.last (error : Option ε) : ι :=
  match error with
  | some error => reader.failed error
  | none => reader.unfinished

def Reader.finish (s : σ) (parts : List (List β)) (last : ι) : List ι :=
  match reader.walk s parts with
  | (out,none) => out
  | (out,some _) => out ++ [last]

variable {reader} {s t : σ} {out : List ι} {line buffered : List β} {first : List (List β)} {pieces : List (Except ε (List β))} {k : Nat}

theorem Reader.walk_on (went : reader.line s line = (out,some t)) (later : List (List β)) :
    reader.walk s (line :: later) = (out ++ (reader.walk t later).1,(reader.walk t later).2) := by
  rw [walk,went]

theorem Reader.walk_over (ended : reader.line s line = (out,none)) (later : List (List β)) :
    reader.walk s (line :: later) = (out,none) := by
  rw [walk,ended]

theorem Reader.walk_append (went : reader.walk s first = (out,some t)) (rest : List (List β)) :
    reader.walk s (first ++ rest) = (out ++ (reader.walk t rest).1,(reader.walk t rest).2) := by
  induction first generalizing s out with
  | nil => cases went; rfl
  | cons line later ih =>
    rw [List.cons_append]
    cases ran : reader.line s line with
    | mk now next =>
      cases next with
      | none => rw [walk_over ran] at went; cases went
      | some u =>
        rw [walk_on ran] at went ⊢
        cases done : reader.walk u later with
        | mk more after =>
          rw [done] at went; cases went
          rw [ih done,List.append_assoc]

theorem Reader.walk_ended (ended : reader.walk s first = (out,none)) (rest : List (List β)) :
    reader.walk s (first ++ rest) = (out,none) := by
  induction first generalizing s out with
  | nil => cases ended
  | cons line later ih =>
    rw [List.cons_append]
    cases ran : reader.line s line with
    | mk now next =>
      cases next with
      | none => rw [walk_over ran] at ended ⊢; exact ended
      | some u =>
        rw [walk_on ran] at ended ⊢
        cases done : reader.walk u later with
        | mk more after =>
          rw [done] at ended; cases ended
          rw [ih done]

theorem received_pieces (chunks : List (List β)) : received (chunks.map (.ok : _ → Except ε (List β))) = chunks.flatten := by
  induction chunks with
  | nil => rfl
  | cons chunk later ih => rw [List.map_cons,received,ih,List.flatten_cons]

theorem failure_pieces (chunks : List (List β)) : failureOf (chunks.map (.ok : _ → Except ε (List β))) = none := by
  induction chunks with
  | nil => rfl
  | cons chunk later ih => rw [List.map_cons,failureOf,ih]

theorem Reader.finish_ended (ended : reader.walk s first = (out,none)) (rest : List (List β)) (last : ι) :
    reader.finish s (first ++ rest) last = out := by
  rw [finish,walk_ended ended]

theorem Reader.finish_append (went : reader.walk s first = (out,some t)) (rest : List (List β)) (last : ι) :
    reader.finish s (first ++ rest) last = out ++ reader.finish t rest last := by
  unfold finish
  rw [walk_append went]
  cases reader.walk t rest with
  | mk later after =>
    cases after with
    | none => rfl
    | some u => exact List.append_assoc ..

theorem Reader.finish_on (went : reader.line s line = (out,some t)) (later : List (List β)) (last : ι) :
    reader.finish s (line :: later) last = out ++ reader.finish t later last := by
  have one : reader.walk s [line] = (out,Option.some t) := by
    rw [walk_on went,walk,List.append_nil]
  exact finish_append one later last

theorem Reader.finish_over (ended : reader.line s line = (out,none)) (later : List (List β)) (last : ι) :
    reader.finish s (line :: later) last = out := by
  rw [finish,walk_over ended]

theorem Reader.finish_nil (s : σ) (last : ι) : reader.finish s [] last = [last] := rfl

-- A stream is the whole text, or the lines before the one that was given up.
theorem Reader.stream_eq (free : reader.sep ∉ buffered) : reader.stream s buffered pieces =
    match reader.stop buffered pieces with
    | none => reader.finish s (lines reader.sep (buffered ++ received pieces)).1 (reader.last (failureOf pieces))
    | some k => reader.finish s ((lines reader.sep (buffered ++ received pieces)).1.take k) reader.refused := by
  induction pieces generalizing s buffered with
  | nil => simp only [stream,stop,received,failureOf,List.append_nil,lines_plain free,finish_nil,last]
  | cons piece later ih =>
    cases piece with
    | error error => simp only [stream,stop,received,failureOf,List.append_nil,lines_plain free,finish_nil,last]
    | ok chunk =>
      unfold stream stop received failureOf
      by_cases long : reader.cap < (buffered ++ chunk).length ∧ reader.sep ∉ buffered ++ chunk
      · rw [if_pos long,if_pos long]; rfl
      rw [if_neg long,if_neg long,← List.append_assoc]
      generalize buffered ++ chunk = text
      rw [lines_append text]
      cases ran : reader.walk s (lines reader.sep text).1 with
      | mk out next =>
        cases next with
        | none =>
          cases reader.stop (lines reader.sep text).2 later with
          | none => exact (finish_ended ran _ _).symm
          | some k =>
            simp only [Option.map_some,List.take_length_add_append]
            exact (finish_ended ran _ _).symm
        | some t =>
          simp only; rw [ih (lines_rest text)]
          cases reader.stop (lines reader.sep text).2 later with
          | none => exact (finish_append ran _ _).symm
          | some k =>
            simp only [Option.map_some,List.take_length_add_append]
            exact (finish_append ran _ _).symm

def Reader.Long (reader : Reader σ β ι ε) (text : List β) (k : Nat) : Prop :=
  match (lines reader.sep text).1.drop k with
  | line :: _ => reader.cap + 1 < line.length
  | [] => reader.cap < (lines reader.sep text).2.length

theorem Reader.stop_long (free : reader.sep ∉ buffered) (stopped : reader.stop buffered pieces = some k) :
    k ≤ (lines reader.sep (buffered ++ received pieces)).1.length ∧ reader.Long (buffered ++ received pieces) k := by
  induction pieces generalizing buffered k with
  | nil => cases stopped
  | cons piece later ih =>
    cases piece with
    | error error => cases stopped
    | ok chunk =>
      unfold stop at stopped
      unfold received
      rw [← List.append_assoc]
      split at stopped
      · rename_i long; cases stopped
        refine ⟨Nat.zero_le _,?_⟩
        unfold Long; rw [List.drop_zero,lines_open long.2]
        cases first : (lines reader.sep (received later)).1 with
        | nil => simp only [List.length_append] at long ⊢; omega
        | cons line rest =>
          obtain ⟨body,_,rfl⟩ := line_shape (first ▸ List.mem_cons_self)
          simp only [List.length_append,List.length_singleton] at long ⊢; omega
      · obtain ⟨m,found,rfl⟩ := Option.map_eq_some_iff.mp stopped
        have ⟨bound,long⟩ := ih (lines_rest _) found
        unfold Long at long ⊢; rw [lines_append (buffered ++ chunk)]
        refine ⟨?_,?_⟩
        · rw [List.length_append]; exact Nat.add_le_add_left bound _
        · rw [List.drop_length_add_append]; exact long

theorem Reader.stream_single (reader : Reader σ β ι ε) (s : σ) (member : reader.sep ∈ text) :
    reader.stream s [] [.ok text] = reader.finish s (lines reader.sep text).1 reader.unfinished := by
  have whole : reader.stop [] [(.ok text : Except ε (List β))] = none := by
    unfold stop
    rw [if_neg fun long => long.2 member]
    rfl
  rw [stream_eq List.not_mem_nil,whole]
  simp only [received,failureOf,List.append_nil,List.nil_append,last]

def parted (cap : Nat) (before : List (List β)) (line rest : List β) : List (List β) :=
  [before.flatten,line.take (cap+1),line.drop (cap+1) ++ rest]

theorem parted_flatten (cap : Nat) (before : List (List β)) (line rest : List β) :
    (parted cap before line rest).flatten = before.flatten ++ (line ++ rest) := by
  unfold parted
  simp only [List.flatten_cons,List.flatten_nil,List.append_nil]
  rw [← List.append_assoc (line.take _),List.take_append_drop]

theorem Reader.stream_parted (reader : Reader σ β ι ε) (s : σ)
    (shaped : ∀ other ∈ before,∃ body,reader.sep ∉ body ∧ other = body ++ [reader.sep])
    (own : ∃ body,reader.sep ∉ body ∧ line = body ++ [reader.sep]) (long : reader.cap + 1 < line.length) (rest : List β) :
    reader.stream s [] ((parted reader.cap before line rest).map .ok) = reader.finish s before reader.refused := by
  have stopped : reader.stop [] ((parted reader.cap before line rest).map (.ok : _ → Except ε (List β))) = some before.length := by
    obtain ⟨body,free,rfl⟩ := own
    simp only [List.length_append,List.length_singleton] at long
    have part : (body ++ [reader.sep]).take (reader.cap+1) = body.take (reader.cap+1) := List.take_append_of_le_length (by omega)
    have plain : reader.sep ∉ body.take (reader.cap+1) := fun member => free (List.mem_of_mem_take member)
    have first : ¬(reader.cap < ([] ++ before.flatten).length ∧ reader.sep ∉ [] ++ before.flatten) := by
      rintro ⟨big,clear⟩
      cases before with
      | nil => cases big
      | cons other rest =>
        obtain ⟨own,_,rfl⟩ := shaped other List.mem_cons_self
        simp at clear
    simp only [parted,List.map_cons,stop]
    rw [if_neg first,List.nil_append,lines_whole shaped,part]
    simp only [List.nil_append]
    rw [if_pos ⟨by rw [List.length_take]; omega,plain⟩]
    rfl
  rw [stream_eq List.not_mem_nil,stopped,List.nil_append,received_pieces,parted_flatten,lines_append,lines_whole shaped]
  simp only [List.take_left]

end Lines
