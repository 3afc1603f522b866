import HologramLive.History.Calls
namespace HologramLive.History
open Tables Rpc Runs Linear List

variable {settings : Settings} {s t : State} {i j : Nat} {call other : Task} {order : List (Entry Op Answer)} {digest : Str}
  {files : Files} {answer : Answer}

def Task.outcome (files : Files) (call : Task) : Option Answer :=
  match call.phase with
  | .returned answer => some answer
  | .reading names output true =>
    some (.ok (.conversations (newestFirst (output ++ names.filterMap (seen files call.op.includesArchived)))))
  | _ => none

def Task.effect (files : Files) (call : Task) : Linear.Call Op Answer := ⟨call.op,call.after,call.outcome files⟩

-- A listing: what it has to read is there, and what it has read is what is there
-- as long as it missed no write.
structure Reads (files : Files) (includeArchived : Bool) (names : List Str) (output : List Conversation) (missed : Bool) :
    Prop where
  there : ∀ digest ∈ names,digest ∈ files
  current : missed = false → ∃ before : List Str,(before ++ names).Perm files.keys ∧
    output = before.filterMap (seen files includeArchived)

-- What is about to be written comes from the call, and for a change from the file.
def Writes (settings : Settings) (files : Files) (op : Op) (conversation : Conversation) : Prop :=
  (∃ title now,op = .create title ∧ newConversation settings title now = .ok conversation) ∨
  ∃ id before outside,op.target = some id ∧ checked op = .ok () ∧ get files id = .ok before ∧
    conversation = changed outside before op

def Fits (settings : Settings) (s : State) (i : Nat) (call : Task) : Prop :=
  match call.phase with
  | .invoked | .returned _ => True
  | .created conversation => ∃ title now,call.op = .create title ∧ newConversation settings title now = .ok conversation
  | .checked => call.op.target.isSome ∧ checked call.op = .ok ()
  | .locked => s.lock = some i ∧ call.op.target.isSome ∧ checked call.op = .ok ()
  | .writing conversation => s.lock = some i ∧ Writes settings s.files call.op conversation
  | .unlinking digest => ∃ id,call.op = .delete id ∧ pathFor id = .ok digest
  | .reading names output missed => (∃ includeArchived,call.op = .list includeArchived) ∧
    Reads s.files call.op.includesArchived names output missed

structure Ordered (settings : Settings) (s : State) (order : List (Entry Op Answer)) : Prop where
  grown : Grown (Serial settings) s.opened (s.calls.map (Task.effect s.files)) s.files order
  fits : ∀ (i : Nat) (call : Task),s.calls[i]? = some call → Fits settings s i call
  keyed : Keyed s.files

-- A call that is not a listing does not look at the order of the directory.
theorem Serial.unlisted {op : Op} {outside : Outside} (ran : serial settings s.files outside op = (answer,files))
    (unlisted : ∀ includeArchived,op ≠ .list includeArchived) : Serial settings s.files op answer files := by
  refine ⟨{outside with names := s.files.keys},List.Perm.refl _,?_⟩
  cases op with
  | list includeArchived => exact absurd rfl (unlisted includeArchived)
  | create | get | append | appendExchange | setArchived | delete => exact ran

theorem Fits.pass (fits : Fits settings s j other) (files : t.files = s.files)
    (lock : s.lock = some j → t.lock = some j) : Fits settings t j other := by
  unfold Fits at fits ⊢
  split at fits
  · trivial
  · trivial
  · exact fits
  · exact fits
  · exact ⟨lock fits.1,fits.2⟩
  · exact ⟨lock fits.1,files ▸ fits.2⟩
  · exact fits
  · exact ⟨fits.1,files ▸ fits.2⟩

theorem setPhase_fits {phase : Phase} {lock : Option Nat}
    (fits : ∀ (j : Nat) (other : Task),j ≠ i → s.calls[j]? = some other →
      Fits settings {s with files := files, lock := lock} j other)
    (mine : Fits settings {s with files := files, lock := lock} i {call with phase := phase}) :
    ∀ (j : Nat) (other : Task),(s.setPhase i call phase).calls[j]? = some other →
      Fits settings {s.setPhase i call phase with files := files, lock := lock} j other := by
  intro j other there
  by_cases same : i = j
  · subst same
    have bound := (List.getElem?_eq_some_iff.mp there).1
    simp only [State.setPhase,List.length_set] at bound
    simp only [State.setPhase,List.getElem?_set_self bound,Option.some.injEq] at there
    subst there
    exact mine.pass rfl id
  · simp only [State.setPhase,List.getElem?_set_ne same] at there
    exact (fits j other (fun eq => same eq.symm) there).pass rfl id

theorem set_same {α : Type} {l : List α} {a : α} (there : l[i]? = some a) : l.set i a = l := by
  obtain ⟨bound,rfl⟩ := List.getElem?_eq_some_iff.mp there
  exact List.set_getElem_self bound

theorem Ordered.quiet (ordered : Ordered settings s order) (there : s.calls[i]? = some call) {phase : Phase}
    (same : ({call with phase := phase} : Task).outcome s.files = call.outcome s.files) {lock : Option Nat}
    (kept : ∀ j,j ≠ i → s.lock = some j → lock = some j)
    (fits : Fits settings {s with lock := lock} i {call with phase := phase}) :
    Ordered settings {s.setPhase i call phase with lock := lock} order := by
  refine ⟨?_,?_,ordered.keyed⟩
  · have found : (s.calls.map (Task.effect s.files))[i]? = some (({call with phase := phase} : Task).effect s.files) := by
      rw [List.getElem?_map,there]
      simp only [Option.map_some,Task.effect,same]
    have unchanged : (s.setPhase i call phase).calls.map (Task.effect s.files) = s.calls.map (Task.effect s.files) := by
      rw [State.setPhase,map_set]
      exact set_same found
    have grown := ordered.grown
    rw [←unchanged] at grown
    exact grown
  · exact @setPhase_fits settings s i call s.files phase lock
      (fun j other apart found => (ordered.fits j other found).pass rfl (kept j apart)) fits

theorem Ordered.effect (ordered : Ordered settings s order) (there : s.calls[i]? = some call)
    (pending : call.outcome s.files = none) (outcome : ({call with phase := phase} : Task).outcome files = some answer)
    (ran : Serial settings s.files call.op answer files)
    (others : ∀ other ∈ s.calls,other.outcome files = other.outcome s.files)
    (fits : ∀ (j : Nat) (other : Task),j ≠ i → s.calls[j]? = some other →
      Fits settings {s with files := files, lock := lock} j other)
    (mine : Fits settings {s with files := files, lock := lock} i {call with phase := phase}) (keyed : Keyed files) :
    Ordered settings {s.setPhase i call phase with files := files, lock := lock} (order ++ [⟨i,call.op,answer⟩]) := by
  refine ⟨?_,setPhase_fits fits mine,keyed⟩
  have found : (s.calls.map (Task.effect s.files))[i]? = some (call.effect s.files) := by
    rw [List.getElem?_map,there]
    rfl
  have placed := ordered.grown.place found pending ran
  have same : s.calls.map (Task.effect files) = s.calls.map (Task.effect s.files) := by
    refine map_congr_left fun other member => ?_
    simp only [Task.effect,others other member]
  have after : (s.setPhase i call phase).calls.map (Task.effect files) =
      (s.calls.map (Task.effect s.files)).set i {call.effect s.files with answer := some answer} := by
    rw [State.setPhase,map_set,same]
    simp only [Task.effect,outcome]
  rw [←after] at placed
  exact placed

theorem Ordered.miss (ordered : Ordered settings s order) (there : s.calls[i]? = some call) (digest : Str) :
    ∃ later,Ordered settings {s with calls := s.calls.set i (call.unsee digest)} later := by
  have same : call.unsee digest = call → ∃ later,Ordered settings {s with calls := s.calls.set i (call.unsee digest)} later := by
    intro unchanged
    rw [unchanged,set_same there]
    exact ⟨order,ordered⟩
  have fits := ordered.fits i call there
  obtain ⟨op,after,phase⟩ := call
  cases phase with
  | reading names output missed =>
    by_cases unchanged : missed = true ∨ digest ∈ names
    · refine same ?_
      rcases unchanged with rfl | waits
      · rfl
      · simp [Task.unsee,Phase.unsee,waits]
    · obtain ⟨current,unlisted⟩ := not_or.mp unchanged
      rw [Bool.not_eq_true] at current
      subst current
      obtain ⟨⟨includeArchived,rfl⟩,reads⟩ := fits
      obtain ⟨before,all,read⟩ := reads.current rfl
      have ran : Serial settings s.files (.list includeArchived)
          (.ok (.conversations (newestFirst (output ++ names.filterMap (seen s.files includeArchived))))) s.files := by
        refine ⟨⟨0,0,before ++ names⟩,all,?_⟩
        simp only [serial,read,Op.includesArchived,filterMap_append]
      have placed : Ordered settings {s.setPhase i ⟨.list includeArchived,after,.reading names output false⟩
          (.reading names output true) with files := s.files, lock := s.lock} _ :=
        ordered.effect there rfl rfl ran (fun _ _ => rfl) (fun j other _ found => ordered.fits j other found)
          ⟨⟨includeArchived,rfl⟩,reads.there,fun never => nomatch never⟩ ordered.keyed
      have unseen : Task.unsee digest ⟨.list includeArchived,after,.reading names output false⟩ =
          ⟨.list includeArchived,after,.reading names output true⟩ := by
        simp [Task.unsee,Phase.unsee,unlisted]
      rw [unseen]
      exact ⟨_,placed⟩
  | invoked | created | checked | locked | writing | unlinking | returned => exact same rfl

theorem touch_ordered (ordered : Ordered settings s order) (digest : Str) : ∃ later,Ordered settings (s.touch digest) later := by
  -- One call after the other: those in `before` are marked, those in `rest` not yet.
  have marked : ∀ before rest,s.calls = before ++ rest →
      ∃ later,Ordered settings {s with calls := before.map (Task.unsee digest) ++ rest} later := by
    intro before
    induction before using reverseRecOn with
    | nil =>
      rintro rest rfl
      exact ⟨order,ordered⟩
    | append_singleton before call ih =>
      intro rest all
      obtain ⟨later,marked⟩ := ih (call :: rest) (by simpa using all)
      have here : (before.map (Task.unsee digest) ++ call :: rest)[before.length]? = some call := by
        simp
      obtain ⟨latest,missed⟩ := marked.miss here digest
      refine ⟨latest,?_⟩
      have shape : (before.map (Task.unsee digest) ++ call :: rest).set before.length (call.unsee digest) =
          (before ++ [call]).map (Task.unsee digest) ++ rest := by
        simp
      rw [←shape]
      exact missed
  obtain ⟨later,marked⟩ := marked s.calls [] (append_nil _).symm
  rw [append_nil] at marked
  exact ⟨later,marked⟩

section Written
variable {names : List Str} {output : List Conversation} {missed includeArchived : Bool} {conversation : Conversation}

theorem touched (member : other ∈ (s.touch digest).calls) (phase : other.phase = .reading names output missed) :
    ∃ old ∈ s.calls,∃ before,old.phase = .reading names output before ∧ missed = (before || digest ∉ names) := by
  obtain ⟨old,listed,rfl⟩ := mem_map.mp member
  obtain ⟨op,after,was⟩ := old
  cases was with
  | reading names' output' before => cases phase; exact ⟨_,listed,before,rfl,rfl⟩
  | invoked | created | checked | locked | writing | unlinking | returned => cases phase

theorem seen_elsewhere {digests : List Str} (apart : digest ∉ digests)
    (elsewhere : ∀ d,d ≠ digest → files[d]? = s.files[d]?) :
    digests.filterMap (seen files includeArchived) = digests.filterMap (seen s.files includeArchived) := by
  refine filterMap_congr fun d member => ?_
  unfold seen
  rw [elsewhere d fun same => apart (same ▸ member)]

theorem outcome_elsewhere (elsewhere : ∀ d,d ≠ digest → files[d]? = s.files[d]?)
    (apart : ∀ names output,other.phase = .reading names output true → digest ∉ names) :
    other.outcome files = other.outcome s.files := by
  unfold Task.outcome
  split
  · rfl
  · rename_i names output phase
    rw [seen_elsewhere (apart names output phase) elsewhere]
  · rfl

theorem Reads.insert (reads : Reads s.files includeArchived names output missed) (waits : missed = false → digest ∈ names) :
    Reads (s.files.insert digest conversation) includeArchived names output missed := by
  refine ⟨?_,?_⟩
  · intro d member
    exact Std.ExtTreeMap.mem_insert.mpr (.inr (reads.there d member))
  · intro current
    obtain ⟨before,all,read⟩ := reads.current current
    have listed := waits current
    have distinct : (before ++ names).Nodup := all.nodup_iff.mpr Std.ExtTreeMap.nodup_keys
    have apart : digest ∉ before := fun member => (disjoint_of_nodup_append distinct) member listed
    refine ⟨before,all.trans ?_,?_⟩
    · refine (perm_ext_iff_of_nodup Std.ExtTreeMap.nodup_keys Std.ExtTreeMap.nodup_keys).mpr fun d => ?_
      rw [Std.ExtTreeMap.mem_keys,Std.ExtTreeMap.mem_keys,Std.ExtTreeMap.mem_insert,Std.LawfulEqCmp.compare_eq_iff_eq]
      have present := reads.there digest listed
      constructor
      · exact .inr
      · rintro (rfl | member)
        · exact present
        · exact member
    · rw [read]
      refine (seen_elsewhere apart ?_).symm
      intro d other
      rw [get_insert,if_neg fun same => other same.symm]

theorem Reads.erase (reads : Reads s.files includeArchived names output true) (apart : digest ∉ names) :
    Reads (s.files.erase digest) includeArchived names output true := by
  refine ⟨?_,fun never => nomatch never⟩
  intro d member
  have other : digest ≠ d := by
    rintro rfl
    exact apart member
  rw [Std.ExtTreeMap.mem_erase]
  exact ⟨by simpa using other,reads.there d member⟩

end Written

end HologramLive.History
