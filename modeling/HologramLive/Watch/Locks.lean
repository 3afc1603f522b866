import HologramLive.Watch.WorkerSteps
namespace HologramLive.Watch
open Tables Runs

def State.holder (s : State) : Option Holder := s.writing.map (·.holder)

-- Who is in `persist` past its lock holds it.
structure Locked (s : State) : Prop where
  call : ∀ at_ registration,s.registrations[at_]? = some registration → registration.call.isPersisting = true →
    s.holder = some (.registered at_)
  worker : ∀ at_ registration,s.registrations[at_]? = some registration → registration.worker.isPersisting = true →
    s.holder = some (.recorded at_)

section Locks
variable {host : Host} {s t : State} {at_ : Nat} {before after : Registration}

theorem same_locked (locked : Locked s) (registrations : t.registrations = s.registrations) (holder : t.holder = s.holder) :
    Locked t := by
  refine ⟨?_,?_⟩
  · rw [registrations,holder]; exact locked.call
  · rw [registrations,holder]; exact locked.worker

theorem set_locked (locked : Locked s) (found : s.registrations[at_]? = some before)
    (same : t.registrations = s.registrations.set at_ after) (holder : t.holder = s.holder)
    (call : after.call.isPersisting = true → before.call.isPersisting = true)
    (worker : after.worker.isPersisting = true → before.worker.isPersisting = true) : Locked t := by
  have get (other : Nat) : t.registrations[other]? = if at_ = other then some after else s.registrations[other]? := by
    rw [same]
    exact set_get other found
  refine ⟨?_,?_⟩
  · intro other registration present persisting
    rw [get] at present
    rw [holder]
    split at present
    · rename_i equal
      cases present
      exact equal ▸ locked.call at_ before found (call persisting)
    · exact locked.call other registration present persisting
  · intro other registration present persisting
    rw [get] at present
    rw [holder]
    split at present
    · rename_i equal
      cases present
      exact equal ▸ locked.worker at_ before found (worker persisting)
    · exact locked.worker other registration present persisting

theorem updateRecord_holder (id : Str) (update : WatchedHoloProject → WatchedHoloProject) :
    (s.updateRecord id update).holder = s.holder := by
  unfold State.updateRecord
  split <;> rfl

theorem updateRecord_calls (id : Str) (update : WatchedHoloProject → WatchedHoloProject) :
    (s.updateRecord id update).calls = s.calls := by
  unfold State.updateRecord
  split <;> rfl

theorem updateRecord_set (id : Str) (update : WatchedHoloProject → WatchedHoloProject) (at_ : Nat) (after : Registration) :
    ((s.updateRecord id update).setRegistration at_ after).registrations = s.registrations.set at_ after := by
  unfold State.updateRecord
  split <;> rfl

theorem notice_stage (registration : Registration) (event : Event) :
    (registration.notice event).call = registration.call ∧ (registration.notice event).worker = registration.worker := by
  unfold Registration.notice
  split
  · exact ⟨send_call registration,send_worker registration⟩
  · exact ⟨rfl,rfl⟩

-- Nobody is past the lock while it is free, and only its holder is otherwise.
theorem lock_locked {waiting : Waiting} (locked : Locked s) (ran : lock s waiting = some t) : Locked t := by
  obtain ⟨free,entered,holder,taken,rfl⟩ := lock_cases ran
  have empty : s.holder = none := by unfold State.holder; rw [free]; rfl
  have noCall (other : Nat) (registration : Registration) (present : s.registrations[other]? = some registration)
      (persisting : registration.call.isPersisting = true) : False := by
    have held := locked.call other registration present persisting
    rw [empty] at held
    cases held
  have noWorker (other : Nat) (registration : Registration) (present : s.registrations[other]? = some registration)
      (persisting : registration.worker.isPersisting = true) : False := by
    have held := locked.worker other registration present persisting
    rw [empty] at held
    cases held
  cases taken with
  | registering at_ registration rest found stage =>
    refine ⟨fun other after present persisting => ?_,fun other after present persisting => ?_⟩
    all_goals
      change (s.setRegistration at_ _).registrations[other]? = some after at present
      rw [set_get other found] at present
      split at present
    · rename_i equal; subst equal; rfl
    · exact (noCall other after present persisting).elim
    · cases present; exact (noWorker at_ registration found persisting).elim
    · exact (noWorker other after present persisting).elim
  | worker at_ registration found stage =>
    refine ⟨fun other after present persisting => ?_,fun other after present persisting => ?_⟩
    all_goals
      change (s.setRegistration at_ _).registrations[other]? = some after at present
      rw [set_get other found] at present
      split at present
    · cases present; exact (noCall at_ registration found persisting).elim
    · exact (noCall other after present persisting).elim
    · rename_i equal; subst equal; rfl
    · exact (noWorker other after present persisting).elim
  | other at_ call found =>
    refine ⟨?_,?_⟩
    · intro other after present persisting; exact (noCall other after present persisting).elim
    · intro other after present persisting; exact (noWorker other after present persisting).elim

theorem resumed_calm (resumed : Resumed s written holder t)
    (call : ∀ at_ registration,s.registrations[at_]? = some registration → registration.call.isPersisting = true →
      holder = .registered at_)
    (worker : ∀ at_ registration,s.registrations[at_]? = some registration → registration.worker.isPersisting = true →
      holder = .recorded at_) {other : Nat} (present : t.registrations[other]? = some after) :
    after.call.isPersisting = false ∧ after.worker.isPersisting = false := by
  simp only [←Bool.not_eq_true]
  cases resumed with
  | registered at_ registration rest found stage _ =>
    rw [set_get other found] at present
    split at present
    · cases present
      refine ⟨Bool.false_ne_true,fun persisting => ?_⟩
      cases worker at_ registration found persisting
    · rename_i different
      refine ⟨fun persisting => ?_,fun persisting => ?_⟩
      · cases call other after present persisting; exact different rfl
      · cases worker other after present persisting
  | rolledBack at_ registration rest found stage _ =>
    change (s.setRegistration at_ _).registrations[other]? = some after at present
    rw [set_get other found] at present
    split at present
    · cases present
      exact ⟨Bool.false_ne_true,Bool.false_ne_true⟩
    · rename_i different
      refine ⟨fun persisting => ?_,fun persisting => ?_⟩
      · cases call other after present persisting; exact different rfl
      · cases worker other after present persisting
  | recorded at_ registration found stage =>
    rw [set_get other found] at present
    split at present
    · cases present
      refine ⟨fun persisting => ?_,Bool.false_ne_true⟩
      cases call at_ registration found persisting
    · rename_i different
      refine ⟨fun persisting => ?_,fun persisting => ?_⟩
      · cases call other after present persisting
      · cases worker other after present persisting; exact different rfl
  | nextSaved rest =>
    refine ⟨fun persisting => ?_,fun persisting => ?_⟩
    · cases call other after present persisting
    · cases worker other after present persisting
  | idle holder registered recorded =>
    refine ⟨fun persisting => ?_,fun persisting => ?_⟩
    · have here := registered other after (call other after present persisting) present
      rw [here] at persisting
      cases persisting
    · have here := recorded other after (worker other after present persisting) present
      rw [here] at persisting
      cases persisting

theorem write_locked {written : Bool} (locked : Locked s) (ran : write s written = some t) : Locked t := by
  obtain ⟨writing,held,resumed⟩ := write_cases ran
  have holds : s.holder = some writing.holder := by unfold State.holder; rw [held]; rfl
  have call (other : Nat) (registration : Registration) (present : s.registrations[other]? = some registration)
      (persisting : registration.call.isPersisting = true) : writing.holder = .registered other := by
    have same := locked.call other registration present persisting
    rw [holds] at same
    exact Option.some.inj same
  have worker (other : Nat) (registration : Registration) (present : s.registrations[other]? = some registration)
      (persisting : registration.worker.isPersisting = true) : writing.holder = .recorded other := by
    have same := locked.worker other registration present persisting
    rw [holds] at same
    exact Option.some.inj same
  have calm (other : Nat) (after : Registration) (present : t.registrations[other]? = some after) :
      after.call.isPersisting = false ∧ after.worker.isPersisting = false := by
    rcases resumed with ⟨_,resumed⟩ | ⟨_,resumed⟩
    · exact resumed_calm resumed call worker present
    · exact resumed_calm resumed call worker present
  refine ⟨?_,?_⟩
  · intro other after present persisting
    rw [(calm other after present).1] at persisting
    cases persisting
  · intro other after present persisting
    rw [(calm other after present).2] at persisting
    cases persisting

theorem act_locked (locked : Locked s) (ran : act host s action = some t) : Locked t := by
  cases action with
  | restore readable => cases ran; refine same_locked locked ?_ ?_ <;> cases readable <;> rfl
  | add directory => cases ran; exact same_locked locked rfl rfl
  | remove id =>
    cases ran
    refine same_locked locked ?_ ?_
    · unfold remove; split <;> rfl
    · unfold remove
      split
      · rfl
      · unfold State.holder
        cases s.writing <;> rfl
  | scheduleAll =>
    cases ran
    have stages (other : Nat) (registration : Registration) (present : (scheduleAll s).registrations[other]? = some registration) :
        ∃ old,s.registrations[other]? = some old ∧ registration.call = old.call ∧ registration.worker = old.worker := by
      unfold scheduleAll at present
      rw [List.getElem?_mapIdx] at present
      obtain ⟨old,was,rfl⟩ := Option.map_eq_some_iff.mp present
      refine ⟨old,was,?_⟩
      split
      · exact ⟨send_call old,send_worker old⟩
      · exact ⟨rfl,rfl⟩
    refine ⟨?_,?_⟩
    · intro other registration present persisting
      obtain ⟨old,was,same,_⟩ := stages other registration present
      exact locked.call other old was (same ▸ persisting)
    · intro other registration present persisting
      obtain ⟨old,was,_,same⟩ := stages other registration present
      exact locked.worker other old was (same ▸ persisting)
  | event at_ event =>
    obtain ⟨registration,found,_,rfl⟩ := event_cases ran
    obtain ⟨call,worker⟩ := notice_stage registration event
    exact set_locked locked found rfl rfl (fun persisting => call ▸ persisting) (fun persisting => worker ▸ persisting)
  | watchError at_ error =>
    obtain ⟨registration,found,rfl⟩ := watchError_cases ran
    exact same_locked locked (updateRecord_registrations _ _) (updateRecord_holder _ _)
  | crash =>
    cases ran
    refine ⟨?_,?_⟩ <;> intro other registration present <;> cases present
  | register files at_ =>
    obtain ⟨directory,previous,rest,_,rfl | ⟨opened,_,rfl⟩⟩ := register_cases ran
    · exact same_locked locked rfl rfl
    · refine ⟨?_,?_⟩
      · intro other after present persisting
        rcases append_get present with old | rfl
        · exact locked.call other after old persisting
        · cases persisting
      · intro other after present persisting
        rcases append_get present with old | rfl
        · exact locked.worker other after old persisting
        · cases persisting
  | insert at_ =>
    obtain ⟨registration,record,rest,found,_,rfl⟩ := insert_cases ran
    refine set_locked locked found rfl rfl ?_ (fun persisting => persisting)
    intro persisting; cases persisting
  | spawn at_ started =>
    obtain ⟨registration,rest,found,_,⟨_,rfl⟩ | ⟨_,rfl⟩⟩ := spawn_cases ran
    · refine set_locked locked found rfl rfl ?_ ?_ <;> (intro persisting; cases persisting)
    · refine set_locked locked found rfl rfl ?_ ?_ <;> (intro persisting; cases persisting)
  | start at_ =>
    obtain ⟨registration,rest,found,_,rfl⟩ := start_cases ran
    refine set_locked locked found rfl rfl ?_ ?_
    · intro persisting; cases persisting
    · intro persisting
      change registration.send.worker.isPersisting = true at persisting
      rw [send_worker] at persisting
      exact persisting
  | lock waiting => exact lock_locked locked ran
  | write written => exact write_locked locked ran
  | receive at_ =>
    obtain ⟨registration,queue,found,_,_,rfl⟩ := receive_cases ran
    refine set_locked locked found rfl rfl (fun persisting => persisting) ?_
    intro persisting; cases persisting
  | timeout at_ =>
    obtain ⟨registration,found,_,_,rfl⟩ := timeout_cases ran
    refine set_locked locked found rfl rfl (fun persisting => persisting) ?_
    intro persisting; cases persisting
  | disconnect at_ =>
    obtain ⟨registration,found,_,_,rfl⟩ := disconnect_cases ran
    refine set_locked locked found rfl rfl (fun persisting => persisting) ?_
    intro persisting; cases persisting
  | request at_ =>
    obtain ⟨registration,found,_,⟨_,rfl⟩ | ⟨input,watched,_,rfl⟩⟩ := request_cases ran
    · refine set_locked locked found rfl rfl (fun persisting => persisting) ?_
      intro persisting; cases persisting
    · refine set_locked locked found rfl rfl (fun persisting => persisting) ?_
      intro persisting; cases persisting
  | compile at_ created =>
    obtain ⟨registration,input,source,worker,found,_,next,rfl⟩ := compile_cases ran
    have marked := same_locked locked (updateRecord_registrations registration.id compiling)
      (updateRecord_holder registration.id compiling)
    rw [←updateRecord_registrations (s := s) registration.id compiling] at found
    refine set_locked marked found rfl rfl (fun persisting => persisting) ?_
    intro persisting
    rcases next with rfl | ⟨_,rfl⟩ <;> cases persisting
  | build at_ result =>
    obtain ⟨registration,input,source,found,_,rfl⟩ := build_cases ran
    refine set_locked locked found rfl rfl (fun persisting => persisting) ?_
    intro persisting; cases persisting
  | record at_ now =>
    obtain ⟨registration,result,source,update,found,_,rfl⟩ := record_cases ran
    have marked := same_locked locked (updateRecord_registrations registration.id update)
      (updateRecord_holder registration.id update)
    rw [←updateRecord_registrations (s := s) registration.id update] at found
    refine set_locked marked found rfl rfl (fun persisting => persisting) ?_
    intro persisting; cases persisting

end Locks

end HologramLive.Watch
