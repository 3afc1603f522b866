import HologramLive.Lib.Runs
import HologramLive.Watch.Registry
namespace HologramLive.Watch
open Tables Runs Option

section Inversions
variable {host : Host} {s t : State} {at_ : Nat}

theorem event_cases (ran : watchEvent s at_ event = some t) :
    ∃ registration,s.registrations[at_]? = some registration ∧ s.observing at_ registration = true ∧
      t = s.setRegistration at_ (registration.notice event) := by
  obtain ⟨registration,found,ran⟩ := bind_eq_some_iff.mp ran
  split at ran
  · rename_i observed
    cases ran
    exact ⟨registration,found,observed,rfl⟩
  · cases ran

theorem watchError_cases (ran : watchError s at_ error = some t) :
    ∃ registration,s.registrations[at_]? = some registration ∧
      t = {s.updateRecord registration.id (markFailed error) with
        calls := (s.updateRecord registration.id (markFailed error)).calls ++ [.persistMarked]} := by
  obtain ⟨registration,found,ran⟩ := bind_eq_some_iff.mp ran
  split at ran
  · cases ran
    exact ⟨registration,found,rfl⟩
  · cases ran

theorem register_cases (ran : register host files s at_ = some t) :
    ∃ directory previous rest,s.calls[at_]? = some (.register directory previous rest) ∧
      (t = s.finishCall at_ (nextSaved rest) ∨
        ∃ opened,s.watches[host.watchId opened]? = none ∧ t = {s.finishCall at_ [] with
          registrations := s.registrations ++
            [⟨host.watchId opened,opened,0,.insert (recordFor host opened previous) rest,.unstarted,false⟩]}) := by
  unfold register at ran
  split at ran
  · rename_i directory previous rest found
    refine ⟨directory,previous,rest,found,?_⟩
    split at ran
    · cases ran; exact .inl rfl
    · rename_i opened _
      split at ran
      · cases ran; exact .inl rfl
      · rename_i fresh
        cases ran
        refine .inr ⟨opened,?_,rfl⟩
        have absent : (s.watches[host.watchId opened]?).isSome = false := by
          simp only [Bool.or_eq_true,not_or,Bool.not_eq_true] at fresh; exact fresh.1
        exact isSome_eq_false_iff.mp absent |> isNone_iff_eq_none.mp
  · cases ran

theorem insert_cases (ran : insert s at_ = some t) :
    ∃ registration record rest,s.registrations[at_]? = some registration ∧ registration.call = .insert record rest ∧
      t = {s.setRegistration at_ {registration with call := .persist rest} with
        watches := s.watches.insert registration.id ⟨record,at_⟩} := by
  unfold insert at ran
  split at ran
  · rename_i registration found
    split at ran
    · rename_i record rest stage
      cases ran
      exact ⟨registration,record,rest,found,stage,rfl⟩
    · cases ran
  · cases ran

theorem spawn_cases (ran : spawn s at_ started = some t) :
    ∃ registration rest,s.registrations[at_]? = some registration ∧ registration.call = .spawn rest ∧
      (started = true ∧ t = s.setRegistration at_ {registration with call := .start rest, worker := .waiting} ∨
        started = false ∧ t = {s.setRegistration at_ {registration with call := .ended, worker := .exited} with
          watches := s.watches.erase registration.id
          calls := s.calls ++ [.persistRolledBack rest]}) := by
  unfold spawn at ran
  split at ran
  · rename_i registration found
    split at ran
    · rename_i rest stage
      refine ⟨registration,rest,found,stage,?_⟩
      cases started with
      | true => cases ran; exact .inl ⟨rfl,rfl⟩
      | false => cases ran; exact .inr ⟨rfl,rfl⟩
    · cases ran
  · cases ran

theorem start_cases (ran : start s at_ = some t) :
    ∃ registration rest,s.registrations[at_]? = some registration ∧ registration.call = .start rest ∧
      t = {s.setRegistration at_ {registration.send with call := .ended} with calls := s.calls ++ nextSaved rest} := by
  unfold start at ran
  split at ran
  · rename_i registration found
    split at ran
    · rename_i rest stage
      cases ran
      exact ⟨registration,rest,found,stage,rfl⟩
    · cases ran
  · cases ran

inductive Entered (s : State) : State → Holder → Prop
  | registering (at_ : Nat) (registration : Registration) (rest : List WatchedHoloProject)
      (found : s.registrations[at_]? = some registration) (stage : registration.call = .persist rest) :
      Entered s (s.setRegistration at_ {registration with call := .persisting rest}) (.registered at_)
  | worker (at_ : Nat) (registration : Registration) (found : s.registrations[at_]? = some registration)
      (stage : registration.worker = .recorded) :
      Entered s (s.setRegistration at_ {registration with worker := .persisting}) (.recorded at_)
  | other (at_ : Nat) (call : Call) (found : s.calls[at_]? = some call) :
      Entered s (s.finishCall at_ []) (.other call)

theorem enter_cases {waiting : Waiting} (ran : waiting.enter s = some (t,holder)) : Entered s t holder := by
  unfold Waiting.enter at ran
  split at ran
  · split at ran
    · rename_i registration found
      split at ran
      · rename_i rest stage
        cases ran
        exact .registering _ registration rest found stage
      · cases ran
    · cases ran
  · split at ran
    · rename_i registration found
      split at ran
      · rename_i stage
        cases ran
        exact .worker _ registration found stage
      · cases ran
    · cases ran
  · split at ran
    · cases ran
    · rename_i call _ found
      cases ran
      exact .other _ call found
    · cases ran

theorem lock_cases {waiting : Waiting}
    (ran : lock s waiting = some t) : s.writing = none ∧ ∃ entered holder,Entered s entered holder ∧
      t = {entered with writing := some ⟨s.list,s.list.map (·.directory),holder⟩} := by
  unfold lock at ran
  split at ran
  · cases ran
  · rename_i free
    obtain ⟨⟨entered,holder⟩,taken,rfl⟩ := Option.map_eq_some_iff.mp ran
    exact ⟨free,entered,holder,enter_cases taken,rfl⟩

def Registering.isPersisting : Registering → Bool
  | .persisting _ => true
  | _ => false

def Worker.isPersisting : Worker → Bool
  | .persisting => true
  | _ => false

inductive Resumed (s : State) (written : Bool) : Holder → State → Prop
  | registered (at_ : Nat) (registration : Registration) (rest : List WatchedHoloProject)
      (found : s.registrations[at_]? = some registration) (stage : registration.call = .persisting rest)
      (kept : written = true) :
      Resumed s written (.registered at_) (s.setRegistration at_ {registration with call := .spawn rest})
  | rolledBack (at_ : Nat) (registration : Registration) (rest : List WatchedHoloProject)
      (found : s.registrations[at_]? = some registration) (stage : registration.call = .persisting rest)
      (failed : written = false) :
      Resumed s written (.registered at_) {s.setRegistration at_ {registration with call := .ended, worker := .exited} with
        watches := s.watches.erase registration.id
        calls := s.calls ++ nextSaved rest}
  | recorded (at_ : Nat) (registration : Registration) (found : s.registrations[at_]? = some registration)
      (stage : registration.worker = .persisting) :
      Resumed s written (.recorded at_) (s.setRegistration at_ {registration with worker := .waiting})
  | nextSaved (rest : List WatchedHoloProject) :
      Resumed s written (.other (.persistRolledBack rest)) {s with calls := s.calls ++ nextSaved rest}
  | idle (holder : Holder)
      (registered : ∀ at_ registration,holder = .registered at_ → s.registrations[at_]? = some registration →
        registration.call.isPersisting = false)
      (recorded : ∀ at_ registration,holder = .recorded at_ → s.registrations[at_]? = some registration →
        registration.worker.isPersisting = false) : Resumed s written holder s

theorem resume_cases (written : Bool) (holder : Holder) : Resumed s written holder (resume s written holder) := by
  unfold resume
  split
  · rename_i at_
    split
    · rename_i registration found
      split
      · rename_i rest stage
        split
        · rename_i kept; exact .registered at_ registration rest found stage kept
        · rename_i failed
          exact .rolledBack at_ registration rest found stage (by simpa using failed)
      · rename_i elsewhere
        refine .idle _ ?_ (fun _ _ named => nomatch named)
        intro other old named present
        cases named
        rw [found] at present
        cases present
        cases stage : registration.call <;> first | rfl | exact absurd stage (elsewhere _)
    · rename_i absent
      refine .idle _ ?_ (fun _ _ named => nomatch named)
      intro other old named present
      cases named
      rw [absent] at present
      cases present
  · rename_i at_
    split
    · rename_i registration found
      split
      · rename_i stage
        exact .recorded at_ registration found stage
      · rename_i elsewhere
        refine .idle _ (fun _ _ named => nomatch named) ?_
        intro other old named present
        cases named
        rw [found] at present
        cases present
        cases stage : registration.worker <;> first | rfl | exact absurd stage elsewhere
    · rename_i absent
      refine .idle _ (fun _ _ named => nomatch named) ?_
      intro other old named present
      cases named
      rw [absent] at present
      cases present
  · exact .nextSaved _
  · exact .idle _ (fun _ _ named => nomatch named) (fun _ _ named => nomatch named)

theorem write_cases (ran : write s written = some t) : ∃ writing,s.writing = some writing ∧
      ((written = true ∧ Resumed {s with writing := none, file := some writing.snapshot, owed := s.owed ++ writing.live} true
          writing.holder t) ∨
        (written = false ∧ Resumed {s with writing := none} false writing.holder t)) := by
  unfold write at ran
  split at ran
  · cases ran
  · rename_i writing held
    refine ⟨writing,held,?_⟩
    dsimp only at ran
    split at ran
    · rename_i kept
      cases ran
      exact .inl ⟨kept,resume_cases true writing.holder⟩
    · rename_i failed
      cases ran
      exact .inr ⟨by simpa using failed,resume_cases false writing.holder⟩

theorem receive_cases (ran : receive s at_ = some t) : ∃ registration queue,s.registrations[at_]? = some registration ∧
      (registration.worker = .waiting ∨ registration.worker = .debouncing) ∧ registration.queue = queue + 1 ∧
      t = s.setRegistration at_ {registration with worker := .debouncing, queue := queue} := by
  unfold receive at ran
  split at ran
  · rename_i registration found
    split at ran
    · rename_i queue stage some_
      cases ran
      exact ⟨registration,queue,found,.inl stage,some_,rfl⟩
    · rename_i queue stage some_
      cases ran
      exact ⟨registration,queue,found,.inr stage,some_,rfl⟩
    · cases ran
  · cases ran

theorem timeout_cases (ran : timeout s at_ = some t) :
    ∃ registration,s.registrations[at_]? = some registration ∧ registration.worker = .debouncing ∧
      s.connected at_ registration = true ∧ t = s.setRegistration at_ {registration with worker := .armed} := by
  unfold timeout at ran
  split at ran
  · rename_i registration found
    split at ran
    · rename_i stage _
      split at ran
      · rename_i linked
        cases ran
        exact ⟨registration,found,stage,linked,rfl⟩
      · cases ran
    · cases ran
  · cases ran

theorem disconnect_cases (ran : disconnect s at_ = some t) : ∃ registration,s.registrations[at_]? = some registration ∧
      (registration.worker = .waiting ∨ registration.worker = .debouncing) ∧
      s.connected at_ registration = false ∧ t = s.setRegistration at_ {registration with worker := .exited} := by
  unfold disconnect at ran
  split at ran
  · rename_i registration found
    split at ran
    · rename_i stage _
      split at ran
      · cases ran
      · rename_i lost
        cases ran
        exact ⟨registration,found,.inl stage,by simpa using lost,rfl⟩
    · rename_i stage _
      split at ran
      · cases ran
      · rename_i lost
        cases ran
        exact ⟨registration,found,.inr stage,by simpa using lost,rfl⟩
    · cases ran
  · cases ran

theorem request_cases (ran : request host s at_ = some t) :
    ∃ registration,s.registrations[at_]? = some registration ∧ registration.worker = .armed ∧
      ((s.watches[registration.id]? = none ∧ t = s.setRegistration at_ {registration with worker := .waiting}) ∨
        ∃ input watched,s.watches[registration.id]? = some watched ∧
          t = s.setRegistration at_ {registration with
            worker := .requested input watched.registration, unserved := false}) := by
  unfold request at ran
  split at ran
  · rename_i registration found
    split at ran
    · rename_i stage
      refine ⟨registration,found,stage,?_⟩
      split at ran
      · rename_i absent
        cases ran
        exact .inl ⟨map_eq_none_iff.mp absent,rfl⟩
      · rename_i input source taken
        obtain ⟨watched,present,same⟩ := Option.map_eq_some_iff.mp taken
        obtain ⟨_,rfl⟩ := Prod.mk.inj same
        cases ran
        exact .inr ⟨input,watched,present,rfl⟩
    · cases ran
  · cases ran

theorem compile_cases (ran : compile s at_ created = some t) :
    ∃ registration input source worker,s.registrations[at_]? = some registration ∧
      registration.worker = .requested input source ∧
      (worker = .building input source ∨ ∃ error,worker = .finished (.error error) source) ∧
      t = (s.updateRecord registration.id compiling).setRegistration at_ {registration with worker := worker} := by
  unfold compile at ran
  split at ran
  · rename_i registration found
    split at ran
    · rename_i input source stage
      cases ran
      refine ⟨registration,input,source,_,found,stage,?_,rfl⟩
      cases created with
      | ok => exact .inl rfl
      | error error => exact .inr ⟨error,rfl⟩
    · cases ran
  · cases ran

theorem build_cases (ran : buildProject s at_ result = some t) :
    ∃ registration input source,s.registrations[at_]? = some registration ∧
      registration.worker = .building input source ∧
      t = s.setRegistration at_ {registration with worker := .finished result source} := by
  unfold buildProject at ran
  split at ran
  · rename_i registration found
    split at ran
    · rename_i input source stage
      cases ran
      exact ⟨registration,input,source,found,stage,rfl⟩
    · cases ran
  · cases ran

theorem record_cases (ran : record s at_ now = some t) :
    ∃ registration result source update,s.registrations[at_]? = some registration ∧
      registration.worker = .finished result source ∧
      t = {(s.updateRecord registration.id update).setRegistration at_ {registration with worker := .recorded} with
        recordings := s.recordings ++ s.recordingsOf registration.id at_ source} := by
  unfold record at ran
  split at ran
  · rename_i registration found
    split at ran
    · rename_i result source stage
      cases ran
      exact ⟨registration,result,source,_,found,stage,rfl⟩
    · cases ran
  · cases ran

end Inversions

def Begins (s : State) : Prop := ∃ file,s = .started file

theorem started_begins (file : Option (List WatchedHoloProject)) : Begins (.started file) := ⟨file,rfl⟩

def standIn : Host where
  watchId directory := (Nat.toDigits 16 (directory.flatten.foldl (fun code c => (code*31+c.toNat) % 2^64) 7)).leftpad 16 '0'
  buildRoot := ["cache".toList]

def openFiles : Files := ⟨some,fun _ => true,fun _ => true,fun _ => true⟩

end HologramLive.Watch

namespace HologramLive.Watch
open Tables Runs

def directories (records : List WatchedHoloProject) : List Path := records.map (·.directory)

-- Nothing is lost: the file holds every project that a file held before and the
-- user has not removed.
def State.Kept (s : State) : Prop := ∀ directory ∈ s.owed,directory ∈ directories s.saved

-- The map that `persist` lists holds them too: `restore` is through with them,
-- none of them failed to register and none was rolled back.
def Complete (s : State) : Action → Prop
  | .lock _ => ∀ directory ∈ s.owed,directory ∈ directories s.list
  | _ => True

-- What one step does to the file, to what is owed and to a write in progress.
inductive Effect (s : State) (action : Action) (t : State) : Prop
  | quiet (file : t.file = s.file) (owed : t.owed = s.owed) (writing : t.writing = s.writing)
  | forgotten (directory : Path) (file : t.file = s.file) (owed : t.owed = forget directory s.owed)
      (writing : t.writing = s.writing.map fun writing => {writing with live := forget directory writing.live})
  | listed (waiting : Waiting) (holder : Holder) (asked : action = .lock waiting) (file : t.file = s.file)
      (owed : t.owed = s.owed) (writing : t.writing = some ⟨s.list,directories s.list,holder⟩)
  | written (writing : Writing) (held : s.writing = some writing) (file : t.file = some writing.snapshot)
      (owed : t.owed = s.owed ++ writing.live) (released : t.writing = none)
  | released (file : t.file = s.file) (owed : t.owed = s.owed) (released : t.writing = none)

section Effects
variable {host : Host} {s t : State}

theorem updateRecord_rest (id : Str) (update : WatchedHoloProject → WatchedHoloProject) :
    (s.updateRecord id update).file = s.file ∧ (s.updateRecord id update).owed = s.owed ∧
      (s.updateRecord id update).writing = s.writing := by
  unfold State.updateRecord
  split <;> exact ⟨rfl,rfl,rfl⟩

theorem Entered.rest (entered : Entered s t holder) : t.file = s.file ∧ t.owed = s.owed := by
  cases entered <;> exact ⟨rfl,rfl⟩

theorem Resumed.rest (resumed : Resumed s written holder t) :
    t.file = s.file ∧ t.owed = s.owed ∧ t.writing = s.writing := by
  cases resumed <;> exact ⟨rfl,rfl,rfl⟩

theorem act_effect (ran : act host s action = some t) : Effect s action t := by
  cases action with
  | restore readable =>
    cases ran
    refine .quiet ?_ ?_ ?_ <;> cases readable <;> rfl
  | add directory => cases ran; exact .quiet rfl rfl rfl
  | remove id =>
    cases ran
    unfold remove
    split
    · exact .quiet rfl rfl rfl
    · rename_i removed _
      exact .forgotten removed.record.directory rfl rfl rfl
  | scheduleAll => cases ran; exact .quiet rfl rfl rfl
  | event at_ event =>
    obtain ⟨registration,_,_,rfl⟩ := event_cases ran
    exact .quiet rfl rfl rfl
  | watchError at_ error =>
    obtain ⟨registration,_,rfl⟩ := watchError_cases ran
    obtain ⟨file,owed,writing⟩ := updateRecord_rest (s := s) registration.id (markFailed error)
    exact .quiet file owed writing
  | crash => cases ran; exact .released rfl rfl rfl
  | register files at_ =>
    obtain ⟨_,_,_,_,rfl | ⟨_,_,rfl⟩⟩ := register_cases ran <;> exact .quiet rfl rfl rfl
  | insert at_ =>
    obtain ⟨_,_,_,_,_,rfl⟩ := insert_cases ran
    exact .quiet rfl rfl rfl
  | spawn at_ started =>
    obtain ⟨_,_,_,_,⟨_,rfl⟩ | ⟨_,rfl⟩⟩ := spawn_cases ran <;> exact .quiet rfl rfl rfl
  | start at_ =>
    obtain ⟨_,_,_,_,rfl⟩ := start_cases ran
    exact .quiet rfl rfl rfl
  | lock waiting =>
    obtain ⟨_,entered,holder,taken,rfl⟩ := lock_cases ran
    obtain ⟨file,owed⟩ := taken.rest
    exact .listed waiting holder rfl file owed rfl
  | write written =>
    obtain ⟨writing,held,⟨_,resumed⟩ | ⟨_,resumed⟩⟩ := write_cases ran
    · obtain ⟨file,owed,free⟩ := resumed.rest
      exact .written writing held file owed free
    · obtain ⟨file,owed,free⟩ := resumed.rest
      exact .released file owed free
  | receive at_ =>
    obtain ⟨_,_,_,_,_,rfl⟩ := receive_cases ran
    exact .quiet rfl rfl rfl
  | timeout at_ =>
    obtain ⟨_,_,_,_,rfl⟩ := timeout_cases ran
    exact .quiet rfl rfl rfl
  | disconnect at_ =>
    obtain ⟨_,_,_,_,rfl⟩ := disconnect_cases ran
    exact .quiet rfl rfl rfl
  | request at_ =>
    obtain ⟨_,_,_,⟨_,rfl⟩ | ⟨_,_,_,rfl⟩⟩ := request_cases ran <;> exact .quiet rfl rfl rfl
  | compile at_ created =>
    obtain ⟨registration,_,_,_,_,_,_,rfl⟩ := compile_cases ran
    obtain ⟨file,owed,writing⟩ := updateRecord_rest (s := s) registration.id compiling
    exact .quiet file owed writing
  | build at_ result =>
    obtain ⟨_,_,_,_,_,rfl⟩ := build_cases ran
    exact .quiet rfl rfl rfl
  | record at_ now =>
    obtain ⟨registration,_,_,update,_,_,rfl⟩ := record_cases ran
    obtain ⟨file,owed,writing⟩ := updateRecord_rest (s := s) registration.id update
    exact .quiet file owed writing

end Effects

-- Beside the file, a write in progress carries what is owed.
structure Persisted (s : State) : Prop where
  kept : s.Kept
  carried : ∀ writing,s.writing = some writing → ∀ directory ∈ s.owed,directory ∈ directories writing.snapshot
  live : ∀ writing,s.writing = some writing → ∀ directory ∈ writing.live,directory ∈ directories writing.snapshot

theorem forget_subset (member : other ∈ forget directory kept) : other ∈ kept :=
  (List.mem_filter.mp member).1

theorem started_persisted (file : Option (List WatchedHoloProject)) : Persisted (.started file) := by
  refine ⟨?_,?_,?_⟩
  · exact fun _ member => member
  · intro writing held; cases held
  · intro writing held; cases held

theorem act_persisted (held : Persisted s) (complete : Complete s action)
    (ran : act host s action = some t) : Persisted t := by
  have effect := act_effect ran
  cases effect with
  | quiet file owed writing =>
    refine ⟨?_,?_,?_⟩
    · unfold State.Kept State.saved
      rw [owed,file]
      exact held.kept
    · rw [writing,owed]; exact held.carried
    · rw [writing]; exact held.live
  | forgotten directory file owed writing =>
    refine ⟨?_,?_,?_⟩
    · intro other member
      rw [owed] at member
      unfold State.saved
      rw [file]
      exact held.kept other (forget_subset member)
    · intro after found other member
      rw [writing] at found
      rw [owed] at member
      obtain ⟨before,here,rfl⟩ := Option.map_eq_some_iff.mp found
      exact held.carried before here other (forget_subset member)
    · intro after found other member
      rw [writing] at found
      obtain ⟨before,here,rfl⟩ := Option.map_eq_some_iff.mp found
      exact held.live before here other (forget_subset member)
  | listed waiting holder asked file owed writing =>
    refine ⟨?_,?_,?_⟩
    · unfold State.Kept State.saved
      rw [owed,file]
      exact held.kept
    · intro after found other member
      rw [writing] at found
      rw [owed] at member
      cases found
      subst asked
      exact complete other member
    · intro after found other member
      rw [writing] at found
      cases found
      exact member
  | written writing present file owed released =>
    refine ⟨?_,?_,?_⟩
    · intro other member
      rw [owed] at member
      unfold State.saved
      rw [file]
      rcases List.mem_append.mp member with old | new
      · exact held.carried writing present other old
      · exact held.live writing present other new
    · intro after found; rw [released] at found; cases found
    · intro after found; rw [released] at found; cases found
  | released file owed released =>
    refine ⟨?_,?_,?_⟩
    · unfold State.Kept State.saved
      rw [owed,file]
      exact held.kept
    · intro after found; rw [released] at found; cases found
    · intro after found; rw [released] at found; cases found

theorem watched_projects_kept (host : Host) {s : State} (reached : Reached Begins (Taken (act host) Complete) s) : s.Kept := by
  have persisted : Persisted s := by
    refine reached.invariant Persisted ?_ ?_
    · rintro s ⟨file,rfl⟩
      exact started_persisted file
    · rintro s t _ held ⟨action,complete,ran⟩
      exact act_persisted held complete ran
  exact persisted.kept

instance (s : State) (action : Action) : Decidable (Complete s action) := by
  cases action <;> unfold Complete <;> infer_instance

def demo : Path := ["home".toList,"demo".toList]
def secondDemo : Path := ["home".toList,"other".toList]
def savedFor (directories : List Path) : Option (List WatchedHoloProject) :=
  some (directories.map fun directory => recordFor standIn directory none)

-- One saved project is restored and written back.
theorem one_project_kept : ∃ s,Reached Begins (Taken (act standIn) Complete) s ∧ s.owed = [demo,demo] ∧ s.file = savedFor [demo] ∧
    s.Kept := by
  let actions : List Action := [.restore true,.register openFiles 0,.insert 0,.lock (.registering 0),.write true]
  have ends : (play (act standIn) Complete (.started (savedFor [demo])) actions).any fun s =>
      s.owed = [demo,demo] ∧ s.file = savedFor [demo] := by decide
  obtain ⟨s,reached,left⟩ := play_shows (started_begins _) ends
  obtain ⟨owed,file⟩ : s.owed = [demo,demo] ∧ s.file = savedFor [demo] := by simpa using left
  exact ⟨s,reached,owed,file,watched_projects_kept standIn reached⟩

-- Two saved projects: the first one that `restore` registers rewrites the file,
-- and a crash after that step has lost the other.
theorem second_project_lost : ¬∀ host s,Reached Begins (Taken (act host) fun _ _ => True) s → s.Kept := by
  intro always
  let actions : List Action :=
    [.restore true,.register openFiles 0,.insert 0,.lock (.registering 0),.write true,.crash]
  have lost : (play (act standIn) (fun _ _ => True) (.started (savedFor [demo,secondDemo])) actions).any fun s =>
      secondDemo ∈ s.owed ∧ secondDemo ∉ directories s.saved := by decide
  obtain ⟨s,reached,missing⟩ := play_shows (started_begins _) lost
  obtain ⟨owed,absent⟩ : secondDemo ∈ s.owed ∧ secondDemo ∉ directories s.saved := by simpa using missing
  exact absent (always standIn s reached secondDemo owed)

end HologramLive.Watch
