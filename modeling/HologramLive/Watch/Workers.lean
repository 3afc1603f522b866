import HologramLive.Watch.Persistence
namespace HologramLive.Watch
open Tables Runs List

def Worker.isBuilding : Worker → Bool
  | .requested _ _ | .building _ _ | .finished _ _ => true
  | _ => false

def Worker.isCommitted : Worker → Bool
  | .armed => true
  | worker => worker.isBuilding

def Worker.isUnstarted : Worker → Bool
  | .unstarted => true
  | _ => false

def Worker.source : Worker → Option Nat
  | .requested _ source | .building _ source | .finished _ source => some source
  | _ => none

def Registering.isEarly : Registering → Bool
  | .start _ | .ended => false
  | _ => true

def Registration.Pending (registration : Registration) : Prop :=
  0 < registration.queue ∨ registration.worker = .debouncing ∨ registration.worker = .armed

def State.live (s : State) (at_ : Nat) (registration : Registration) : Bool :=
  !registration.call.isInsert && (s.connected at_ registration || registration.worker.isCommitted)

def Registration.isCurrent (registration : Registration) (at_ : Nat) (watches : Table Str WatchHandle) : Bool :=
  registration.isRegistered at_ watches || registration.call.isInsert

-- What holds of each registration by itself.
structure Sane (s : State) (at_ : Nat) (registration : Registration) : Prop where
  early : registration.call.isEarly = registration.worker.isUnstarted
  registered : registration.isRegistered at_ s.watches = true →
    registration.call.isInsert = false ∧ registration.worker.isExited = false
  source : ∀ source,registration.worker.source = some source → source = at_
  due : registration.isCurrent at_ s.watches = true → registration.unserved = true → registration.Pending

structure Sound (s : State) : Prop where
  handles : ∀ (id : Str) watched,s.watches[id]? = some watched →
    ∃ registration,s.registrations[watched.registration]? = some registration ∧ registration.id = id
  sane : ∀ at_ registration,s.registrations[at_]? = some registration → Sane s at_ registration
  single : ∀ one first,s.registrations[one]? = some first → s.live one first = true →
    ∀ two second,s.registrations[two]? = some second → s.live two second = true → first.id = second.id → one = two
  recorded : ∀ recording ∈ s.recordings,recording.worker = recording.source ∧ recording.source = recording.target

variable {registration : Registration}

theorem isRegistered_iff : registration.isRegistered at_ watches = true ↔
      ∃ watched,watches[registration.id]? = some watched ∧ watched.registration = at_ := by
  unfold Registration.isRegistered
  cases watches[registration.id]? with
  | none => simp
  | some watched => simp

theorem early_of_insert {call : Registering} (stage : call.isInsert = true) : call.isEarly = true := by
  cases call <;> first | rfl | cases stage

theorem Sane.inserted (sane : Sane s at_ registration)
    (runs : registration.worker.isUnstarted = false) : registration.call.isInsert = false := by
  cases stage : registration.call.isInsert with
  | false => rfl
  | true =>
    have unstarted := sane.early
    rw [early_of_insert stage,runs] at unstarted
    cases unstarted

theorem Sane.unstarted (sane : Sane s at_ registration)
    (early : registration.call.isEarly = true) : registration.worker = .unstarted := by
  have same := sane.early
  rw [early] at same
  cases worker : registration.worker with
  | unstarted => rfl
  | _ => rw [worker] at same; cases same

structure Moves (s : State) (at_ : Nat) (before after : Registration) : Prop where
  id : after.id = before.id
  insert : after.call.isInsert = true → before.call.isInsert = true
  live : s.live at_ after = true → s.live at_ before = true
  sane : Sane s at_ after

section Changes
variable {s t : State} {at_ : Nat} {before after : Registration}

theorem set_get (other : Nat) (found : s.registrations[at_]? = some before) :
    (s.setRegistration at_ after).registrations[other]? = if at_ = other then some after else s.registrations[other]? := by
  have bound : at_ < s.registrations.length := (List.getElem?_eq_some_iff.mp found).1
  simp [State.setRegistration,List.getElem?_set,bound]

theorem Moves.refl (sane : Sane s at_ registration) : Moves s at_ registration registration :=
  ⟨rfl,fun stage => stage,fun live => live,sane⟩

theorem moves_sound (sound : Sound s)
    (moved : ∀ other : Nat,Option.Rel (Moves s other) s.registrations[other]? registrations[other]?) : Sound {s with registrations := registrations} := by
  have earlier : ∀ (other : Nat) registration,registrations[other]? = some registration →
      ∃ old,s.registrations[other]? = some old ∧ Moves s other old registration := by
    intro other registration present
    have step := moved other
    rw [present] at step
    generalize s.registrations[other]? = was at step
    cases step with
    | some step => exact ⟨_,rfl,step⟩
  refine ⟨?_,?_,?_,sound.recorded⟩
  · intro id watched held
    obtain ⟨old,was,named⟩ := sound.handles id watched held
    have step := moved watched.registration
    rw [was] at step
    change ∃ registration,registrations[watched.registration]? = some registration ∧ _
    generalize registrations[watched.registration]? = present at step ⊢
    cases step with
    | some step => exact ⟨_,rfl,step.id.trans named⟩
  · intro other registration present
    obtain ⟨_,_,step⟩ := earlier other registration present
    exact ⟨step.sane.early,step.sane.registered,step.sane.source,step.sane.due⟩
  · intro one first here alive two second there live same
    obtain ⟨old,was,step⟩ := earlier one first here
    obtain ⟨old',was',step'⟩ := earlier two second there
    exact sound.single one old was (step.live alive) two old' was' (step'.live live) (by rw [←step.id,same,step'.id])

theorem set_sound (sound : Sound s) (found : s.registrations[at_]? = some before) (moves : Moves s at_ before after) :
    Sound (s.setRegistration at_ after) := by
  refine moves_sound sound fun other => ?_
  have get := @set_get s at_ before after other found
  change (s.registrations.set at_ after)[other]? = _ at get
  rw [get]
  by_cases equal : at_ = other
  · subst equal
    rw [found,if_pos rfl]
    exact .some moves
  · rw [if_neg equal]
    cases was : s.registrations[other]? with
    | none => exact .none
    | some old => exact .some (.refl (sound.sane other old was))

-- The map loses entries or changes their records, and removals end.
structure Shrinks (s t : State) : Prop where
  registrations : t.registrations = s.registrations
  recordings : t.recordings = s.recordings
  watches : ∀ (id : Str) watched,t.watches[id]? = some watched →
    ∃ old,s.watches[id]? = some old ∧ old.registration = watched.registration
  removing : ∀ at_ registration,s.registrations[at_]? = some registration → t.removing at_ = true →
    s.connected at_ registration = true

theorem Shrinks.registered (shrinks : Shrinks s t) {registration : Registration}
    (held : registration.isRegistered at_ t.watches = true) : registration.isRegistered at_ s.watches = true := by
  obtain ⟨watched,present,same⟩ := isRegistered_iff.mp held
  obtain ⟨old,was,equal⟩ := shrinks.watches _ _ present
  exact isRegistered_iff.mpr ⟨old,was,equal.trans same⟩

open State

theorem Shrinks.live (shrinks : Shrinks s t) (found : s.registrations[at_]? = some registration)
    (alive : t.live at_ registration = true) : s.live at_ registration = true := by
  have registered := @Shrinks.registered s t at_ shrinks registration
  have removing := shrinks.removing at_ registration found
  unfold State.live connected at *
  grind

theorem Shrinks.sound (shrinks : Shrinks s t) (sound : Sound s) : Sound t := by
  refine ⟨?_,?_,?_,?_⟩
  · intro id watched held
    obtain ⟨old,was,same⟩ := shrinks.watches id watched held
    rw [shrinks.registrations,←same]
    exact sound.handles id old was
  · intro other registration present
    rw [shrinks.registrations] at present
    obtain ⟨early,registered,source,due⟩ := sound.sane other registration present
    refine ⟨early,fun held => registered (shrinks.registered held),source,fun current => due ?_⟩
    unfold Registration.isCurrent at *
    rcases Bool.or_eq_true_iff.mp current with held | stage
    · rw [shrinks.registered held]; rfl
    · rw [stage]; exact Bool.or_true _
  · rw [shrinks.registrations]
    intro one first here alive two second there live same
    exact sound.single one first here (shrinks.live here alive) two second there (shrinks.live there live) same
  · rw [shrinks.recordings]
    exact sound.recorded

theorem shrinks_calls {calls : List Call} (fewer : ∀ at_,calls.any (·.removed == some at_) = true →
    s.calls.any (·.removed == some at_) = true) : Shrinks s {s with calls := calls} := by
  refine ⟨rfl,rfl,fun id watched held => ⟨watched,held,rfl⟩,fun at_ registration _ removing => ?_⟩
  have fewer := fewer at_
  unfold connected State.removing at *
  grind

theorem shrinks_append {calls : List Call} (quiet : ∀ call ∈ calls,call.removed = none) :
    Shrinks s {s with calls := s.calls ++ calls} := by
  refine shrinks_calls fun at_ removing => ?_
  rw [any_append] at removing
  rcases Bool.or_eq_true_iff.mp removing with old | new
  · exact old
  · obtain ⟨call,member,names⟩ := any_eq_true.mp new
    rw [quiet call member] at names
    cases names

theorem nextSaved_quiet (rest : List WatchedHoloProject) : ∀ call ∈ nextSaved rest,call.removed = none := by
  intro call member
  cases rest with
  | nil => cases member
  | cons record rest =>
    obtain rfl := mem_singleton.mp member
    rfl

theorem shrinks_finishCall {next : List Call}
    (quiet : ∀ call ∈ next,call.removed = none) : Shrinks s (s.finishCall at_ next) := by
  refine shrinks_calls fun other removing => ?_
  rw [any_append] at removing
  rcases Bool.or_eq_true_iff.mp removing with old | new
  · obtain ⟨call,member,names⟩ := any_eq_true.mp old
    exact any_eq_true.mpr ⟨call,mem_of_mem_eraseIdx member,names⟩
  · obtain ⟨call,member,names⟩ := any_eq_true.mp new
    rw [quiet call member] at names
    cases names

theorem shrinks_erase (id : Str) : Shrinks s {s with watches := s.watches.erase id} := by
  refine ⟨rfl,rfl,?_,fun at_ registration _ removing => ?_⟩
  · intro other watched held
    rw [get_erase] at held
    split at held
    · cases held
    · exact ⟨watched,held,rfl⟩
  · change s.removing at_ = true at removing
    unfold connected
    simp [removing]

theorem shrinks_update (id : Str) (update : WatchedHoloProject → WatchedHoloProject) : Shrinks s (s.updateRecord id update) := by
  unfold updateRecord
  split
  · refine ⟨rfl,rfl,fun id watched held => ⟨watched,held,rfl⟩,fun at_ registration _ removing => ?_⟩
    unfold connected
    simp [removing]
  · rename_i watched present
    refine ⟨rfl,rfl,?_,fun at_ registration _ removing => ?_⟩
    · intro other after held
      rw [get_insert] at held
      split at held
      · rename_i same
        subst same
        cases held
        exact ⟨watched,present,rfl⟩
      · exact ⟨after,held,rfl⟩
    · change s.removing at_ = true at removing
      unfold connected
      simp [removing]

theorem shrinks_release {writing : Option Writing} {file : Option (List WatchedHoloProject)} {owed : List Path}
    (free : writing = none) : Shrinks s {s with writing := writing, file := file, owed := owed} := by
  subst free
  refine ⟨rfl,rfl,fun id watched held => ⟨watched,held,rfl⟩,fun at_ registration _ removing => ?_⟩
  unfold connected State.removing at *
  grind

end Changes

end HologramLive.Watch
