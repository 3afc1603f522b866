import HologramLive.Watch.Locks
namespace HologramLive.Watch
open Tables Runs List

def Action.isInternal : Action → Bool
  | .restore _ | .add _ | .remove _ | .scheduleAll | .event _ _ | .watchError _ _ | .crash => false
  | _ => true

def Settled (host : Host) (s : State) : Prop := ∀ action : Action,action.isInternal = true → act host s action = none

-- What the threads still have to do, at most. The weights fall along each path
-- through the code, and a message weighs more than a whole build.
def Registering.work : Registering → Nat
  | .insert _ rest => 50+70*rest.length
  | .persist rest => 40+70*rest.length
  | .persisting rest => 35+70*rest.length
  | .spawn rest => 30+70*rest.length
  | .start rest => 20+70*rest.length
  | .ended => 0

def Worker.work : Worker → Nat
  | .unstarted | .exited => 0
  | .waiting => 1
  | .persisting => 4
  | .recorded => 6
  | .finished _ _ => 7
  | .building _ _ => 8
  | .requested _ _ => 9
  | .armed => 10
  | .debouncing => 11

def Registration.work (registration : Registration) : Nat :=
  registration.call.work + registration.worker.work + if registration.worker.isExited then 0 else 12*registration.queue

def Call.work : Call → Nat
  | .register _ _ rest => 60+70*rest.length
  | .persistRolledBack rest => 2+70*rest.length
  | .persistRemoved _ | .persistMarked => 2

def Holder.work : Holder → Nat
  | .registered _ | .recorded _ => 1
  | .other call => call.work-1

def State.work (s : State) : Nat :=
  (s.registrations.map Registration.work).sum + (s.calls.map Call.work).sum + (s.holder.map Holder.work).getD 0

section Progress
variable {host : Host} {s t : State} {at_ : Nat} {before after : Registration}

theorem sum_set {α : Type} (weight : α → Nat) {items : List α} {at_ : Nat} {before after : α}
    (found : items[at_]? = some before) :
    ((items.set at_ after).map weight).sum + weight before = (items.map weight).sum + weight after := by
  induction items generalizing at_ with
  | nil => cases found
  | cons item rest ih =>
    cases at_ with
    | zero =>
      cases found
      simp only [set_cons_zero,map_cons,sum_cons]
      omega
    | succ at_ =>
      have tail := ih found
      simp only [set_cons_succ,map_cons,sum_cons]
      omega

theorem sum_eraseIdx {α : Type} (weight : α → Nat) {items : List α} {gone : α}
    (found : items[at_]? = some gone) : ((items.eraseIdx at_).map weight).sum + weight gone = (items.map weight).sum := by
  induction items generalizing at_ with
  | nil => cases found
  | cons item rest ih =>
    cases at_ with
    | zero =>
      cases found
      simp only [eraseIdx_cons_zero,map_cons,sum_cons]
      omega
    | succ at_ =>
      have tail := ih found
      simp only [eraseIdx_cons_succ,map_cons,sum_cons]
      omega

theorem nextSaved_work (rest : List WatchedHoloProject) : ((nextSaved rest).map Call.work).sum ≤ 70*rest.length := by
  cases rest with
  | nil => exact Nat.le_refl _
  | cons record rest =>
    simp only [nextSaved,map_cons,map_nil,sum_cons,sum_nil,Call.work,length_cons]
    omega

theorem set_work {calls : List Call} (found : s.registrations[at_]? = some before)
    (registrations : t.registrations = s.registrations.set at_ after) (called : t.calls = s.calls ++ calls)
    (holder : t.holder = s.holder) (less : after.work + (calls.map Call.work).sum < before.work) : t.work < s.work := by
  have moved := @sum_set _ Registration.work _ _ _ after found
  unfold State.work
  rw [registrations,called,holder,map_append,sum_append]
  omega

theorem worker_work (found : s.registrations[at_]? = some before)
    (registrations : t.registrations = s.registrations.set at_ after) (called : t.calls = s.calls)
    (holder : t.holder = s.holder) (less : after.work < before.work) : t.work < s.work := by
  refine @set_work s t at_ before after [] found registrations ?_ holder ?_
  · rw [called,append_nil]
  · simpa using less

open Worker

theorem register_work {files : Files} (ran : register host files s at_ = some t) : t.work < s.work := by
  obtain ⟨directory,previous,rest,found,rfl | ⟨opened,_,rfl⟩⟩ := register_cases ran
  · have erased := sum_eraseIdx Call.work found
    have next := nextSaved_work rest
    unfold State.work
    change (s.registrations.map Registration.work).sum + ((s.calls.eraseIdx at_ ++ nextSaved rest).map Call.work).sum + (s.holder.map Holder.work).getD 0 < _
    rw [map_append,sum_append]
    simp only [Call.work] at erased
    omega
  · have erased := sum_eraseIdx Call.work found
    unfold State.work
    change ((s.registrations ++ [_]).map Registration.work).sum + ((s.calls.eraseIdx at_ ++ []).map Call.work).sum +
      (s.holder.map Holder.work).getD 0 < _
    rw [map_append,sum_append,append_nil]
    simp only [Call.work] at erased
    simp only [map_cons,map_nil,sum_cons,sum_nil,Registration.work,Registering.work,work,
      isExited,Bool.false_eq_true,if_false,Nat.mul_zero]
    omega

theorem spawn_work (sound : Sound s) (ran : spawn s at_ started = some t) : t.work < s.work := by
  obtain ⟨registration,rest,found,stage,⟨_,rfl⟩ | ⟨_,rfl⟩⟩ := spawn_cases ran
  · have unstarted := (sound.sane at_ registration found).unstarted (by rw [stage]; rfl)
    refine worker_work found rfl rfl rfl ?_
    simp only [Registration.work,stage,unstarted,Registering.work,work,isExited,Bool.false_eq_true,if_false]
    omega
  · refine @set_work s _ at_ registration _ [.persistRolledBack rest] found rfl rfl rfl ?_
    simp only [Registration.work,stage,Registering.work,work,isExited,if_true,map_cons,map_nil,
      sum_cons,sum_nil,Call.work]
    omega

theorem start_work (ran : start s at_ = some t) : t.work < s.work := by
  obtain ⟨registration,rest,found,stage,rfl⟩ := start_cases ran
  have next := nextSaved_work rest
  refine set_work found rfl rfl rfl ?_
  unfold Registration.send
  split
  · simp only [Registration.work,stage,Registering.work]
    omega
  · rename_i runs
    simp only [Registration.work,stage,Registering.work,if_neg runs]
    omega

theorem lock_work {waiting : Waiting} (ran : lock s waiting = some t) : t.work < s.work := by
  obtain ⟨free,entered,holder,taken,rfl⟩ := lock_cases ran
  have empty : (s.holder.map Holder.work).getD 0 = 0 := by unfold State.holder; rw [free]; rfl
  have total : State.work {entered with writing := some ⟨s.list,s.list.map (·.directory),holder⟩} =
      (entered.registrations.map Registration.work).sum + (entered.calls.map Call.work).sum + holder.work := rfl
  rw [total]
  unfold State.work
  rw [empty]
  cases taken with
  | registering at_ registration rest found stage =>
    have moved := @sum_set _ Registration.work _ _ _ {registration with call := .persisting rest} found
    simp only [Registration.work,stage,Registering.work] at moved
    simp only [State.setRegistration,Holder.work]
    omega
  | worker at_ registration found stage =>
    have moved := @sum_set _ Registration.work _ _ _ {registration with worker := .persisting} found
    simp only [Registration.work,stage,work,isExited,Bool.false_eq_true,if_false] at moved
    simp only [State.setRegistration,Holder.work]
    omega
  | other at_ call found =>
    have erased := sum_eraseIdx Call.work found
    have some_ : 2 ≤ call.work := by cases call <;> simp only [Call.work] <;> omega
    simp only [State.finishCall,append_nil,Holder.work]
    omega

theorem resumed_work (resumed : Resumed s written holder t) (free : s.writing = none) :
    t.work < s.work + holder.work := by
  have empty : s.holder = none := by unfold State.holder; rw [free]; rfl
  cases resumed with
  | registered at_ registration rest found stage _ =>
    have less : State.work (s.setRegistration at_ {registration with call := .spawn rest}) < s.work := by
      refine worker_work found rfl rfl rfl ?_
      simp only [Registration.work,stage,Registering.work]
      omega
    omega
  | rolledBack at_ registration rest found stage _ =>
    have next := nextSaved_work rest
    refine Nat.lt_add_right _ (set_work found rfl rfl rfl ?_)
    simp only [Registration.work,stage,Registering.work,work,isExited,if_true]
    omega
  | recorded at_ registration found stage =>
    refine Nat.lt_add_right _ (worker_work found rfl rfl rfl ?_)
    simp only [Registration.work,stage,work,isExited,Bool.false_eq_true,if_false]
    omega
  | nextSaved rest =>
    have next := nextSaved_work rest
    unfold State.work
    change _ + ((s.calls ++ nextSaved rest).map Call.work).sum + (s.holder.map Holder.work).getD 0 < _
    rw [map_append,sum_append]
    simp only [Holder.work,Call.work]
    omega
  | idle holder _ _ =>
    have some_ : 0 < holder.work := by
      cases holder with
      | registered => exact Nat.one_pos
      | recorded => exact Nat.one_pos
      | other call => cases call <;> simp only [Holder.work,Call.work] <;> omega
    omega

theorem write_work (ran : write s written = some t) : t.work < s.work := by
  obtain ⟨writing,held,resumed⟩ := write_cases ran
  have holds : s.work = (s.registrations.map Registration.work).sum + (s.calls.map Call.work).sum + writing.holder.work := by
    unfold State.work State.holder
    rw [held]
    rfl
  rw [holds]
  rcases resumed with ⟨_,resumed⟩ | ⟨_,resumed⟩
  · exact resumed_work resumed rfl
  · exact resumed_work resumed rfl

theorem receive_work (ran : receive s at_ = some t) : t.work < s.work := by
  obtain ⟨registration,queue,found,stage,queued,rfl⟩ := receive_cases ran
  refine worker_work found rfl rfl rfl ?_
  rcases stage with stage | stage
  · simp only [Registration.work,stage,queued,work,isExited,Bool.false_eq_true,if_false]
    omega
  · simp only [Registration.work,stage,queued,work,isExited,Bool.false_eq_true,if_false]
    omega

theorem act_work (sound : Sound s) (internal : action.isInternal = true)
    (ran : act host s action = some t) : t.work < s.work := by
  cases action with
  | restore | add | remove | scheduleAll | event | watchError | crash => cases internal
  | register files at_ => exact register_work ran
  | insert at_ =>
    obtain ⟨registration,record,rest,found,stage,rfl⟩ := insert_cases ran
    refine worker_work found rfl rfl rfl ?_
    simp only [Registration.work,stage,Registering.work]
    omega
  | spawn at_ started => exact spawn_work sound ran
  | start at_ => exact start_work ran
  | lock waiting => exact lock_work ran
  | write written => exact write_work ran
  | receive at_ => exact receive_work ran
  | timeout at_ =>
    obtain ⟨registration,found,stage,_,rfl⟩ := timeout_cases ran
    refine worker_work found rfl rfl rfl ?_
    simp only [Registration.work,stage,work,isExited,Bool.false_eq_true,if_false]
    omega
  | disconnect at_ =>
    obtain ⟨registration,found,stage,_,rfl⟩ := disconnect_cases ran
    refine worker_work found rfl rfl rfl ?_
    rcases stage with stage | stage
    · simp only [Registration.work,stage,work,isExited,if_true,Bool.false_eq_true,if_false]
      omega
    · simp only [Registration.work,stage,work,isExited,if_true,Bool.false_eq_true,if_false]
      omega
  | request at_ =>
    obtain ⟨registration,found,stage,⟨_,rfl⟩ | ⟨input,watched,_,rfl⟩⟩ := request_cases ran
    · refine worker_work found rfl rfl rfl ?_
      simp only [Registration.work,stage,work,isExited,Bool.false_eq_true,if_false]
      omega
    · refine worker_work found rfl rfl rfl ?_
      simp only [Registration.work,stage,work,isExited,Bool.false_eq_true,if_false]
      omega
  | compile at_ created =>
    obtain ⟨registration,input,source,worker,found,stage,next,rfl⟩ := compile_cases ran
    refine worker_work found (updateRecord_set _ _ _ _) (updateRecord_calls _ _) (updateRecord_holder _ _) ?_
    rcases next with rfl | ⟨_,rfl⟩
    · simp only [Registration.work,stage,work,isExited,Bool.false_eq_true,if_false]
      omega
    · simp only [Registration.work,stage,work,isExited,Bool.false_eq_true,if_false]
      omega
  | build at_ result =>
    obtain ⟨registration,input,source,found,stage,rfl⟩ := build_cases ran
    refine worker_work found rfl rfl rfl ?_
    simp only [Registration.work,stage,work,isExited,Bool.false_eq_true,if_false]
    omega
  | record at_ now =>
    obtain ⟨registration,result,source,update,found,stage,rfl⟩ := record_cases ran
    refine worker_work found (updateRecord_set _ _ _ _) (updateRecord_calls _ _) (updateRecord_holder _ _) ?_
    simp only [Registration.work,stage,work,isExited,Bool.false_eq_true,if_false]
    omega

theorem write_settled (settled : Settled host s) : s.writing = none := by
  cases held : s.writing with
  | none => rfl
  | some writing =>
    have stuck := settled (.write false) rfl
    simp [act,write,held] at stuck

theorem lock_settled (settled : Settled host s) (waiting : Waiting) : waiting.enter s = none := by
  have stuck := settled (.lock waiting) rfl
  simpa [act,lock,write_settled settled] using stuck

-- Where no thread can go on, no registered project has an event without a build.
theorem served_when_settled (sound : Sound s) (locked : Locked s) (settled : Settled host s)
    (found : s.registrations[at_]? = some before) (registered : before.isRegistered at_ s.watches = true) :
    before.unserved = false := by
  by_contra missed
  have unserved : before.unserved = true := by simpa using missed
  have sane := sound.sane at_ before found
  have queued := sane.queued
  cases worker : before.worker with
  | unstarted =>
    have early := sane.early
    rw [worker] at early
    cases call : before.call with
    | insert record rest =>
      have placed := (sane.registered registered).1
      rw [call] at placed
      cases placed
    | persist rest =>
      have stuck := lock_settled settled (.registering at_)
      simp [Waiting.enter,found,call] at stuck
    | persisting rest =>
      have held := locked.call at_ before found (by rw [call]; rfl)
      unfold State.holder at held
      rw [write_settled settled] at held
      cases held
    | spawn rest =>
      have stuck := settled (.spawn at_ true) rfl
      simp [act,spawn,found,call] at stuck
    | start rest => rw [call] at early; cases early
    | ended => rw [call] at early; cases early
  | waiting =>
    have stuck := settled (.receive at_) rfl
    have some_ := queued (by simp [worker]) (by simp [worker]) registered unserved
    obtain ⟨queue,more⟩ := Nat.exists_eq_succ_of_ne_zero (Nat.ne_of_gt some_)
    simp [act,receive,found,worker,more] at stuck
  | debouncing =>
    cases more : before.queue with
    | zero =>
      have stuck := settled (.timeout at_) rfl
      have linked : s.connected at_ before = true := by unfold State.connected; rw [registered]; rfl
      simp [act,timeout,found,worker,more,linked] at stuck
    | succ queue =>
      have stuck := settled (.receive at_) rfl
      simp [act,receive,found,worker,more] at stuck
  | armed =>
    have stuck := settled (.request at_) rfl
    simp only [act,request,found,worker] at stuck
    split at stuck <;> cases stuck
  | requested input source =>
    have stuck := settled (.compile at_ (.ok ())) rfl
    simp [act,compile,found,worker] at stuck
  | building input source =>
    have stuck := settled (.build at_ (.error [])) rfl
    simp [act,buildProject,found,worker] at stuck
  | finished result source =>
    have stuck := settled (.record at_ 0) rfl
    simp [act,record,found,worker] at stuck
  | recorded =>
    have stuck := lock_settled settled (.worker at_)
    simp [Waiting.enter,found,worker] at stuck
  | persisting =>
    have held := locked.worker at_ before found (by rw [worker]; rfl)
    unfold State.holder at held
    rw [write_settled settled] at held
    cases held
  | exited =>
    have runs := (sane.registered registered).2
    rw [worker] at runs
    cases runs

end Progress

end HologramLive.Watch
