import HologramLive.Watch.Progress
namespace HologramLive.Watch
open Tables Runs

-- The registrations that are in the map stay there, but for those of a project.
def Stays (s t : State) (gone : Str → Prop) : Prop :=
  ∀ (at_ : Nat) (before : Registration),s.registrations[at_]? = some before → before.isRegistered at_ s.watches = true →
    ¬gone before.id →
    ∃ after : Registration,t.registrations[at_]? = some after ∧ after.id = before.id ∧ after.isRegistered at_ t.watches = true

section Staying
variable {host : Host} {s t : State} {at_ : Nat} {before after : Registration}

def Keeps (watches later : Table Str WatchHandle) (gone : Str → Prop) : Prop :=
  ∀ (id : Str) (watched : WatchHandle),watches[id]? = some watched → ¬gone id →
    ∃ kept : WatchHandle,later[id]? = some kept ∧ kept.registration = watched.registration

theorem keeps_refl (watches : Table Str WatchHandle) (gone : Str → Prop) : Keeps watches watches gone :=
  fun _ watched present _ => ⟨watched,present,rfl⟩

theorem keeps_update (id : Str) (update : WatchedHoloProject → WatchedHoloProject) (gone : Str → Prop) :
    Keeps s.watches (s.updateRecord id update).watches gone := by
  intro other watched present _
  unfold State.updateRecord
  split
  · exact ⟨watched,present,rfl⟩
  · rename_i found here
    dsimp only
    rw [get_insert]
    split
    · rename_i same
      subst same
      rw [here] at present
      cases present
      exact ⟨_,rfl,rfl⟩
    · exact ⟨watched,present,rfl⟩

theorem stays_of (ids : ∀ (at_ : Nat) (before : Registration),s.registrations[at_]? = some before →
      ∃ after : Registration,t.registrations[at_]? = some after ∧ after.id = before.id)
    (watches : Keeps s.watches t.watches gone) : Stays s t gone := by
  intro at_ before found registered kept
  obtain ⟨after,present,named⟩ := ids at_ before found
  obtain ⟨watched,here,same⟩ := isRegistered_iff.mp registered
  obtain ⟨later,there,equal⟩ := watches before.id watched here kept
  exact ⟨after,present,named,isRegistered_iff.mpr ⟨later,named.symm ▸ there,equal.trans same⟩⟩

theorem same_ids (registrations : t.registrations = s.registrations) (other : Nat) (old : Registration)
    (present : s.registrations[other]? = some old) : ∃ new : Registration,t.registrations[other]? = some new ∧ new.id = old.id :=
  ⟨old,by rw [registrations]; exact present,rfl⟩

theorem set_ids (found : s.registrations[at_]? = some before) (registrations : t.registrations = s.registrations.set at_ after)
    (named : after.id = before.id) (other : Nat) (old : Registration) (present : s.registrations[other]? = some old) :
    ∃ new : Registration,t.registrations[other]? = some new ∧ new.id = old.id := by
  have get := @set_get s at_ before after other found
  change (s.registrations.set at_ after)[other]? = _ at get
  rw [registrations,get]
  split
  · rename_i equal
    subst equal
    rw [found] at present
    cases present
    exact ⟨after,rfl,named⟩
  · exact ⟨old,present,rfl⟩

theorem notice_id (registration : Registration) (event : Event) : (registration.notice event).id = registration.id := by
  unfold Registration.notice
  split
  · exact send_id registration
  · rfl

theorem insert_stays (sound : Sound s) (clear : Clear s at_) (ran : insert s at_ = some t) : Stays s t fun _ => False := by
  obtain ⟨registration,record,rest,found,stage,rfl⟩ := insert_cases ran
  refine stays_of (set_ids found rfl rfl) ?_
  intro id watched present _
  refine ⟨watched,?_,rfl⟩
  change (s.watches.insert registration.id ⟨record,at_⟩)[id]? = some watched
  rw [get_insert]
  split
  · rename_i same
    obtain ⟨owner,owned,named⟩ := sound.handles id watched present
    have registered : owner.isRegistered watched.registration s.watches = true :=
      isRegistered_iff.mpr ⟨watched,named.symm ▸ present,rfl⟩
    have dead := clear registration found (owner,watched.registration) (List.mem_zipIdx_iff_getElem?.mpr owned)
      (named.trans same.symm)
    unfold State.live State.connected at dead
    rw [((sound.sane _ owner owned).registered registered).1,registered] at dead
    cases dead
  · exact present

theorem resumed_stays (resumed : Resumed s true holder t) : Stays s t gone := by
  cases resumed with
  | registered at_ registration rest found _ _ => exact stays_of (set_ids found rfl rfl) (keeps_refl _ _)
  | rolledBack _ _ _ _ _ failed => cases failed
  | recorded at_ registration found _ => exact stays_of (set_ids found rfl rfl) (keeps_refl _ _)
  | nextSaved rest => exact stays_of (same_ids rfl) (keeps_refl _ _)
  | idle holder _ _ => exact stays_of (same_ids rfl) (keeps_refl _ _)

def Action.gives (action : Action) (id : Str) : Prop :=
  action = .remove id ∨ action = .crash ∨ action = .write false ∨ ∃ at_,action = .spawn at_ false

theorem act_stays (sound : Sound s) (orderly : Orderly s action) (ran : act host s action = some t) :
    Stays s t action.gives := by
  cases action with
  | restore readable => cases ran; refine stays_of (same_ids ?_) ?_ <;> cases readable <;> first | rfl | exact keeps_refl _ _
  | add directory => cases ran; exact stays_of (same_ids rfl) (keeps_refl _ _)
  | remove id =>
    cases ran
    refine stays_of (same_ids ?_) ?_
    · unfold remove; split <;> rfl
    · intro other watched present kept
      have different : ¬id = other := fun same => kept (.inl (by rw [same]))
      unfold remove
      split
      · exact ⟨watched,present,rfl⟩
      · exact ⟨watched,by dsimp only; rw [get_erase,if_neg different]; exact present,rfl⟩
  | scheduleAll =>
    cases ran
    refine stays_of ?_ (keeps_refl _ _)
    intro other old present
    unfold scheduleAll
    dsimp only
    rw [List.getElem?_mapIdx,present]
    refine ⟨_,rfl,?_⟩
    change (if old.isRegistered other s.watches = true then old.send else old).id = old.id
    split
    · exact send_id old
    · rfl
  | event at_ event =>
    obtain ⟨registration,found,_,rfl⟩ := event_cases ran
    exact stays_of (set_ids found rfl (notice_id registration event)) (keeps_refl _ _)
  | watchError at_ error =>
    obtain ⟨registration,found,rfl⟩ := watchError_cases ran
    exact stays_of (same_ids (updateRecord_registrations _ _)) (keeps_update _ _ _)
  | crash => intro _ _ _ _ kept; exact absurd (.inr (.inl rfl)) kept
  | register files at_ =>
    obtain ⟨directory,previous,rest,_,rfl | ⟨opened,_,rfl⟩⟩ := register_cases ran
    · exact stays_of (same_ids rfl) (keeps_refl _ _)
    · refine stays_of ?_ (keeps_refl _ _)
      intro other old present
      refine ⟨old,?_,rfl⟩
      change (s.registrations ++ [_])[other]? = some old
      rw [List.getElem?_append_left (List.getElem?_eq_some_iff.mp present).1]
      exact present
  | insert at_ =>
    intro other old present registered _
    exact insert_stays sound orderly ran other old present registered id
  | spawn at_ started =>
    cases started with
    | false => intro _ _ _ _ kept; exact absurd (.inr (.inr (.inr ⟨at_,rfl⟩))) kept
    | true =>
      obtain ⟨registration,rest,found,_,⟨_,rfl⟩ | ⟨failed,_⟩⟩ := spawn_cases ran
      · exact stays_of (set_ids found rfl rfl) (keeps_refl _ _)
      · cases failed
  | start at_ =>
    obtain ⟨registration,rest,found,_,rfl⟩ := start_cases ran
    exact stays_of (set_ids found rfl (send_id registration)) (keeps_refl _ _)
  | lock waiting =>
    obtain ⟨_,entered,holder,taken,rfl⟩ := lock_cases ran
    cases taken with
    | registering at_ registration rest found _ => exact stays_of (set_ids found rfl rfl) (keeps_refl _ _)
    | worker at_ registration found _ => exact stays_of (set_ids found rfl rfl) (keeps_refl _ _)
    | other at_ call found => exact stays_of (same_ids rfl) (keeps_refl _ _)
  | write written =>
    obtain ⟨writing,_,⟨_,resumed⟩ | ⟨rfl,_⟩⟩ := write_cases ran
    · intro other old present registered kept
      exact resumed_stays resumed other old present registered kept
    · intro _ _ _ _ kept; exact absurd (.inr (.inr (.inl rfl))) kept
  | receive at_ =>
    obtain ⟨registration,queue,found,_,_,rfl⟩ := receive_cases ran
    exact stays_of (set_ids found rfl rfl) (keeps_refl _ _)
  | timeout at_ =>
    obtain ⟨registration,found,_,_,rfl⟩ := timeout_cases ran
    exact stays_of (set_ids found rfl rfl) (keeps_refl _ _)
  | disconnect at_ =>
    obtain ⟨registration,found,_,_,rfl⟩ := disconnect_cases ran
    exact stays_of (set_ids found rfl rfl) (keeps_refl _ _)
  | request at_ =>
    obtain ⟨registration,found,_,⟨_,rfl⟩ | ⟨input,watched,_,rfl⟩⟩ := request_cases ran
    · exact stays_of (set_ids found rfl rfl) (keeps_refl _ _)
    · exact stays_of (set_ids found rfl rfl) (keeps_refl _ _)
  | compile at_ created =>
    obtain ⟨registration,input,source,worker,found,_,_,rfl⟩ := compile_cases ran
    exact stays_of (set_ids found (updateRecord_set _ _ _ _) rfl) (keeps_update _ _ _)
  | build at_ result =>
    obtain ⟨registration,input,source,found,_,rfl⟩ := build_cases ran
    exact stays_of (set_ids found rfl rfl) (keeps_refl _ _)
  | record at_ now =>
    obtain ⟨registration,result,source,update,found,_,rfl⟩ := record_cases ran
    exact stays_of (set_ids found (updateRecord_set _ _ _ _) rfl) (keeps_update _ _ _)

end Staying

def State.Serial (s : State) : Prop :=
  ∀ (one two : Nat) (first second : Registration),s.registrations[one]? = some first → s.registrations[two]? = some second →
    first.id = second.id → first.worker.isBuilding = true → second.worker.isBuilding = true → one = two

-- A result is recorded on the registration whose request started the build.
def State.Current (s : State) : Prop :=
  ∀ recording ∈ s.recordings,recording.worker = recording.source ∧ recording.source = recording.target

-- The threads come to rest, and at rest no event on a registered project is
-- without a build that was requested after it.
structure Followed (host : Host) (s : State) : Prop where
  rests : ∀ (action : Action) t,action.isInternal = true → act host s action = some t → t.work < s.work
  served : Settled host s → ∀ (at_ : Nat) (registration : Registration),s.registrations[at_]? = some registration →
    registration.isRegistered at_ s.watches = true → registration.unserved = false

theorem Sound.serial (sound : Sound s) : s.Serial := by
  have alive (at_ : Nat) (registration : Registration) (found : s.registrations[at_]? = some registration)
      (builds : registration.worker.isBuilding = true) : s.live at_ registration = true := by
    have runs : registration.worker.isUnstarted = false ∧ registration.worker.isCommitted = true := by
      cases worker : registration.worker with
      | requested | building | finished => exact ⟨rfl,rfl⟩
      | _ => rw [worker] at builds; cases builds
    unfold State.live
    rw [(sound.sane at_ registration found).inserted runs.1,runs.2,Bool.or_true]
    rfl
  intro one two first second here there same builds builds'
  exact sound.single one first here (alive one first here builds) two second there (alive two second there builds') same

theorem builds_serial_and_current (host : Host) {s : State} (reached : Reached Begins (Taken (act host) Orderly) s) :
    s.Serial ∧ s.Current ∧ Followed host s ∧
      ∀ action t,Orderly s action → act host s action = some t → Stays s t action.gives := by
  have invariant : Sound s ∧ Locked s := by
    refine reached.invariant (fun s => Sound s ∧ Locked s) ?_ ?_
    · rintro s ⟨file,rfl⟩
      refine ⟨started_sound file,?_,?_⟩ <;> intro at_ registration found <;> cases found
    · rintro s t _ ⟨sound,locked⟩ ⟨action,orderly,ran⟩
      exact ⟨act_sound sound orderly ran,act_locked locked ran⟩
  obtain ⟨sound,locked⟩ := invariant
  refine ⟨sound.serial,sound.recorded,⟨?_,?_⟩,?_⟩
  · intro action t internal ran
    exact act_work sound internal ran
  · intro settled at_ registration found registered
    exact served_when_settled sound locked settled found registered
  · intro action t orderly ran
    exact act_stays sound orderly ran

instance (s : State) (at_ : Nat) : Decidable (Clear s at_) := by
  unfold Clear
  infer_instance

instance (s : State) (action : Action) : Decidable (Orderly s action) := by
  refine Action.casesOn (motive := fun action => Decidable (Orderly s action)) action
    ?_ ?_ ?_ ?_ ?_ ?_ ?_ ?_ ?_ ?_ ?_ ?_ ?_ ?_ ?_ ?_ ?_ ?_ ?_ ?_ <;>
    intros <;> unfold Orderly <;> infer_instance

def sampleProject : Path := ["home".toList,"demo".toList]
def sampleBuild : BuildResult := ⟨"blake3:archive".toList,"demo.holo".toList⟩

def joins (directory : Path) (at_ : Nat) : List Action :=
  [.add directory,.register openFiles 0,.insert at_,.lock (.registering at_),.write true,.spawn at_ true,.start at_]

def builds (at_ : Nat) : List Action := [.receive at_,.timeout at_,.request at_,.compile at_ (.ok ())]
def records (at_ : Nat) : List Action := [.build at_ (.ok sampleBuild),.record at_ 7,.lock (.worker at_),.write true]

theorem one_build_recorded : ∃ s,Reached Begins (Taken (act standIn) Orderly) s ∧ s.recordings = [⟨0,0,0⟩] ∧
    s.Serial ∧ s.Current ∧ Followed standIn s ∧
      ∀ action t,Orderly s action → act standIn s action = some t → Stays s t action.gives := by
  let actions := joins sampleProject 0 ++ builds 0 ++ records 0
  have ends : (play (act standIn) Orderly (.started none) actions).any fun s => s.recordings = [⟨0,0,0⟩] := by decide
  obtain ⟨s,reached,left⟩ := play_shows (started_begins _) ends
  exact ⟨s,reached,by simpa using left,builds_serial_and_current standIn reached⟩

def State.atRest (s : State) : Bool :=
  s.calls.isEmpty && s.writing.isNone && s.registrations.zipIdx.all fun entry =>
    entry.1.call.isOver && s.connected entry.2 entry.1 && entry.1.queue == 0 && match entry.1.worker with
      | .waiting => true
      | _ => false

theorem settled_of_rest (rest : s.atRest = true) : Settled host s := by
  unfold State.atRest at rest
  simp only [Bool.and_eq_true,List.isEmpty_iff,Option.isNone_iff_eq_none,List.all_eq_true] at rest
  obtain ⟨⟨calls,writing⟩,all⟩ := rest
  have resting (at_ : Nat) (registration : Registration) (found : s.registrations[at_]? = some registration) :
      registration.call = .ended ∧ s.connected at_ registration = true ∧ registration.queue = 0 ∧
        registration.worker = .waiting := by
    have here := all (registration,at_) (List.mem_zipIdx_iff_getElem?.mpr found)
    obtain ⟨⟨⟨beyond,linked⟩,queue⟩,worker⟩ := here
    refine ⟨?_,linked,by simpa using queue,?_⟩
    · cases call : registration.call with
      | ended => rfl
      | _ => rw [call] at beyond; cases beyond
    · cases stage : registration.worker with
      | waiting => rfl
      | _ => rw [stage] at worker; cases worker
  intro action internal
  cases stepped : act host s action with
  | none => rfl
  | some t =>
    exfalso
    cases action with
    | restore | add | remove | scheduleAll | event | watchError | crash => cases internal
    | register files at_ =>
      obtain ⟨_,_,_,found,_⟩ := register_cases stepped
      rw [calls] at found
      cases found
    | insert at_ =>
      obtain ⟨registration,_,_,found,stage,_⟩ := insert_cases stepped
      rw [(resting at_ registration found).1] at stage
      cases stage
    | spawn at_ started =>
      obtain ⟨registration,_,found,stage,_⟩ := spawn_cases stepped
      rw [(resting at_ registration found).1] at stage
      cases stage
    | start at_ =>
      obtain ⟨registration,_,found,stage,_⟩ := start_cases stepped
      rw [(resting at_ registration found).1] at stage
      cases stage
    | lock waiting =>
      obtain ⟨_,_,_,taken,_⟩ := lock_cases stepped
      cases taken with
      | registering at_ registration _ found stage => rw [(resting at_ registration found).1] at stage; cases stage
      | worker at_ registration found stage => rw [(resting at_ registration found).2.2.2] at stage; cases stage
      | other at_ call found => rw [calls] at found; cases found
    | write written =>
      obtain ⟨_,held,_⟩ := write_cases stepped
      rw [writing] at held
      cases held
    | receive at_ =>
      obtain ⟨registration,_,found,_,queued,_⟩ := receive_cases stepped
      rw [(resting at_ registration found).2.2.1] at queued
      cases queued
    | timeout at_ =>
      obtain ⟨registration,found,stage,_⟩ := timeout_cases stepped
      rw [(resting at_ registration found).2.2.2] at stage
      cases stage
    | disconnect at_ =>
      obtain ⟨registration,found,_,lost,_⟩ := disconnect_cases stepped
      rw [(resting at_ registration found).2.1] at lost
      cases lost
    | request at_ =>
      obtain ⟨registration,found,stage,_⟩ := request_cases stepped
      rw [(resting at_ registration found).2.2.2] at stage
      cases stage
    | compile at_ created =>
      obtain ⟨registration,_,_,_,found,stage,_⟩ := compile_cases stepped
      rw [(resting at_ registration found).2.2.2] at stage
      cases stage
    | build at_ result =>
      obtain ⟨registration,_,_,found,stage,_⟩ := build_cases stepped
      rw [(resting at_ registration found).2.2.2] at stage
      cases stage
    | record at_ now =>
      obtain ⟨registration,_,_,_,found,stage,_⟩ := record_cases stepped
      rw [(resting at_ registration found).2.2.2] at stage
      cases stage

def hiddenProject : Path := ["home".toList,"target".toList,"app".toList]

def State.overlap (s : State) (one two : Nat) : Bool :=
  s.registrations[one]?.any fun first => s.registrations[two]?.any fun second =>
    first.id == second.id && first.worker.isBuilding && second.worker.isBuilding

theorem overlap_iff {s : State} : s.overlap one two = true ↔
    ∃ first second : Registration,s.registrations[one]? = some first ∧ s.registrations[two]? = some second ∧
      first.id = second.id ∧ first.worker.isBuilding = true ∧ second.worker.isBuilding = true := by
  unfold State.overlap
  cases s.registrations[one]? with
  | none => simp
  | some first =>
    cases s.registrations[two]? with
    | none => simp
    | some second => simp [and_assoc]

-- A project that is removed and added again while it builds builds twice at a
-- time, the first build's result lands on the second registration, and a project
-- below a directory named `target` never sees its changes.
theorem rejoined_and_hidden_projects : (¬∀ host s,Reached Begins (Taken (act host) fun _ _ => True) s → s.Serial) ∧
      (¬∀ host s,Reached Begins (Taken (act host) fun _ _ => True) s → s.Current) ∧
      ¬∀ host s,Reached Begins (Taken (act host) fun _ _ => True) s → Followed host s := by
  let rejoined := joins sampleProject 0 ++ builds 0 ++ [.remove (standIn.watchId sampleProject),.lock (.call 0),.write true] ++
    joins sampleProject 1
  refine ⟨fun always => ?_,fun always => ?_,fun always => ?_⟩
  · let actions := rejoined ++ builds 1
    have ends : (play (act standIn) (fun _ _ => True) (.started none) actions).any fun s => s.overlap 0 1 := by decide
    obtain ⟨s,reached,both⟩ := play_shows (started_begins _) ends
    obtain ⟨first,second,here,there,same,builds,builds'⟩ := overlap_iff.mp both
    exact Nat.zero_ne_one (always standIn s reached 0 1 first second here there same builds builds')
  · let actions := rejoined ++ [.build 0 (.ok sampleBuild),.record 0 7]
    have ends : (play (act standIn) (fun _ _ => True) (.started none) actions).any fun s => s.recordings = [⟨0,0,1⟩] := by
      decide
    obtain ⟨s,reached,left⟩ := play_shows (started_begins _) ends
    have recordings : s.recordings = [⟨0,0,1⟩] := by simpa using left
    have same := always standIn s reached ⟨0,0,1⟩ (by rw [recordings]; exact List.mem_singleton.mpr rfl)
    exact Nat.zero_ne_one same.2
  · let actions := joins hiddenProject 0 ++ builds 0 ++ records 0 ++ [.event 0 ⟨.modify,[hiddenProject ++ [manifestName]]⟩]
    have ends : (play (act standIn) (fun _ _ => True) (.started none) actions).any fun s => s.atRest && s.registrations[0]?.any fun registration =>
        registration.isRegistered 0 s.watches && registration.unserved := by decide
    obtain ⟨s,reached,left⟩ := play_shows (started_begins _) ends
    obtain ⟨rest,left⟩ := Bool.and_eq_true_iff.mp left
    cases found : s.registrations[0]? with
    | none => rw [found] at left; cases left
    | some registration =>
      rw [found] at left
      obtain ⟨registered,unserved⟩ := Bool.and_eq_true_iff.mp left
      have served := (always standIn s reached).served (settled_of_rest rest) 0 registration found registered
      rw [unserved] at served
      cases served

end HologramLive.Watch
