import HologramLive.Lib.Runs
import HologramLive.Sessions.Table
namespace HologramLive.Sessions
open Tables Runs

-- What each step did, from the fact that it was taken.
section Inversions
variable {max capacity : Nat} {s t : State} {at_ call : Nat}

theorem look_cases (ran : look s call artifact = some t) :
    s.spawning = none ∧ ∃ key,s.calls[call]? = some (.looking key) ∧
      ((∃ actor,s.table.actors[key]? = some actor ∧ s.alive actor = true ∧
          t = {s.finishCall call [.asking key actor] with table := s.table.touch key}) ∨
        ∃ table spawning,t = {s.finishCall call [] with table := table, spawning := spawning} ∧
          (spawning = none ∨ spawning = some ⟨key,.growing⟩) ∧
          (s.table.actors[key]? = none ∧ table = s.table ∨
            ∃ actor,s.table.actors[key]? = some actor ∧ s.alive actor = false ∧ table = s.table.remove key)) := by
  unfold look at ran
  split at ran
  · rename_i key free found
    refine ⟨free,key,found,?_⟩
    unfold SessionTable.get at ran
    cases present : s.table.actors[key]? with
    | none =>
      simp only [present] at ran
      refine .inr ?_
      cases artifact with
      | false => cases ran; exact ⟨s.table,none,by rw [←free]; rfl,.inl rfl,.inl ⟨rfl,rfl⟩⟩
      | true => cases ran; exact ⟨s.table,some ⟨key,.growing⟩,rfl,.inr rfl,.inl ⟨rfl,rfl⟩⟩
    | some actor =>
      simp only [present] at ran
      cases lives : s.alive actor with
      | true =>
        simp only [lives,if_true] at ran
        cases ran
        exact .inl ⟨actor,rfl,lives,rfl⟩
      | false =>
        simp only [lives,Bool.false_eq_true,if_false] at ran
        refine .inr ?_
        cases artifact with
        | false => cases ran; exact ⟨s.table.remove key,none,by rw [←free]; rfl,.inl rfl,.inr ⟨actor,rfl,lives,rfl⟩⟩
        | true => cases ran; exact ⟨s.table.remove key,some ⟨key,.growing⟩,rfl,.inr rfl,.inr ⟨actor,rfl,lives,rfl⟩⟩
  · cases ran

theorem grow_cases (ran : grow max s = some t) : ∃ key,s.spawning = some ⟨key,.growing⟩ ∧
      ((max ≤ s.table.actors.size ∧ ∃ actor table,SessionTable.popOldest s.table.actors s.table.recency = some (actor,table) ∧
          t = {s with table := table, spawning := some ⟨key,.evicting .ask actor⟩}) ∨
        s.table.actors.size < max ∧ t = {s with
          table := s.table.insert key s.actors.length
          actors := s.actors ++ [.new key]
          calls := s.calls ++ [.asking key s.actors.length]
          spawning := none}) := by
  unfold grow at ran
  split at ran
  · rename_i key held
    refine ⟨key,held,?_⟩
    split at ran
    · rename_i full
      obtain ⟨⟨actor,table⟩,popped,rfl⟩ := Option.map_eq_some_iff.mp ran
      exact .inl ⟨full,actor,table,popped,rfl⟩
    · rename_i room
      cases ran
      exact .inr ⟨Nat.lt_of_not_le room,rfl⟩
  · cases ran

theorem ask_cases (ran : ask capacity s call = some t) :
    ∃ key at_ actor,s.calls[call]? = some (.asking key at_) ∧ s.actors[at_]? = some actor ∧
      (actor.stopped = true ∧ t = s.finishCall call [.failed key at_] ∨
        actor.stopped = false ∧ t = (s.finishCall call []).setActor at_ (actor.send .turn)) := by
  unfold ask at ran
  split at ran
  · rename_i key at_ asked
    split at ran
    · rename_i actor found
      refine ⟨key,at_,actor,asked,found,?_⟩
      split at ran
      · rename_i stopped
        cases ran
        exact .inl ⟨stopped,rfl⟩
      · rename_i runs
        split at ran
        · cases ran; exact .inr ⟨by simpa using runs,rfl⟩
        · cases ran
    · cases ran
  · cases ran

theorem begin_cases (ran : begin s at_ spawned = some t) :
    ∃ actor rest,s.actors[at_]? = some actor ∧ actor.current = false ∧ actor.mailbox = .turn :: rest ∧
      (actor.child = none ∧ spawned = false ∧
          t = tearDown {s with begun := s.begun ++ [s.begins at_ actor]} at_ {actor with mailbox := rest} ∨
        ∃ running,t = State.setActor {s with begun := s.begun ++ [s.begins at_ actor]} at_
          {actor with child := some running, mailbox := rest, current := true}) := by
  unfold begin at ran
  split at ran
  · rename_i actor found
    split at ran
    · rename_i rest idle waiting
      refine ⟨actor,rest,found,idle,waiting,?_⟩
      dsimp only at ran
      split at ran
      · rename_i unspawned
        obtain ⟨childless,failed⟩ := Bool.and_eq_true_iff.mp unspawned
        cases ran
        exact .inl ⟨Option.isNone_iff_eq_none.mp childless,by simpa using failed,rfl⟩
      · cases ran; exact .inr ⟨_,rfl⟩
    · cases ran
  · cases ran

theorem finish_cases (ran : finish s at_ answer = some t) : ∃ actor,s.actors[at_]? = some actor ∧ actor.current = true ∧
      (answer.alive = true ∧ t = s.setActor at_ {actor with current := false} ∨
        answer.alive = false ∧ t = tearDown s at_ actor) := by
  unfold finish at ran
  split at ran
  · rename_i actor found
    split at ran
    · rename_i current
      refine ⟨actor,found,current,?_⟩
      split at ran
      · rename_i alive
        cases ran
        exact .inl ⟨alive,rfl⟩
      · rename_i broken
        cases ran
        exact .inr ⟨by simpa using broken,rfl⟩
    · cases ran
  · cases ran

theorem stopSession_cases (ran : stopSession s at_ = some t) :
    ∃ actor rest,s.actors[at_]? = some actor ∧ actor.current = false ∧ actor.mailbox = .stop :: rest ∧
      t = s.setActor at_ {actor with child := none, mailbox := rest, answered := true} := by
  unfold stopSession at ran
  split at ran
  · rename_i actor found
    split at ran
    · rename_i rest idle waiting
      cases ran
      exact ⟨actor,rest,found,idle,waiting,rfl⟩
    · cases ran
  · cases ran

theorem haltActor_cases (ran : haltActor s at_ = some t) :
    ∃ actor rest,s.actors[at_]? = some actor ∧ actor.current = false ∧ actor.mailbox = .halt :: rest ∧
      t = stopActor s at_ actor := by
  unfold haltActor at ran
  split at ran
  · rename_i actor found
    split at ran
    · rename_i rest idle waiting
      cases ran
      exact ⟨actor,rest,found,idle,waiting,rfl⟩
    · cases ran
  · cases ran

theorem removeFailed_cases (ran : removeFailed s call = some t) :
    s.spawning = none ∧ ∃ key at_,s.calls[call]? = some (.failed key at_) ∧ t = {s.finishCall call [] with
        table := s.table.remove key
        removals := s.removals ++ [⟨at_,s.table.actors[key]?⟩]} := by
  unfold removeFailed at ran
  split at ran
  · rename_i key at_ free failed
    cases ran
    exact ⟨free,key,at_,failed,rfl⟩
  · cases ran

-- A stop of an actor sends it a message or goes on without a change. It is past
-- the answer only with the answer, after the actor's end or after its timeout.
theorem step_cases {stopping : Stopping} (ran : stopping.step capacity step s at_ = some (next,t)) :
    ∃ actor,s.actors[at_]? = some actor ∧
      ((∃ message,message ≠ .turn ∧ t = s.setActor at_ (actor.send message)) ∨ t = s) ∧
      (stopping = .halt ∨ next = some .asked ∨ next = some .halt ∧
        (actor.answered = true ∨ actor.stopped = true ∨ step = .proceed true)) := by
  unfold Stopping.step at ran
  split at ran
  · rename_i actor found
    refine ⟨actor,found,?_⟩
    split at ran
    · split at ran
      · cases ran
        exact ⟨.inl ⟨.stop,by decide,rfl⟩,.inr (.inl rfl)⟩
      · cases ran
    · rename_i timedOut
      split at ran
      · rename_i finished
        cases ran
        refine ⟨.inr rfl,.inr (.inr ⟨rfl,?_⟩)⟩
        rcases Bool.or_eq_true_iff.mp finished with late | stopped
        · exact .inr (.inr (by rw [late]))
        · exact .inr (.inl stopped)
      · cases ran
    · rename_i timedOut
      split at ran
      · rename_i finished
        cases ran
        refine ⟨.inr rfl,.inr (.inr ⟨rfl,?_⟩)⟩
        rcases Bool.or_eq_true_iff.mp finished with early | stopped
        · rcases Bool.or_eq_true_iff.mp early with late | answered
          · exact .inr (.inr (by rw [late]))
          · exact .inl answered
        · exact .inr (.inl stopped)
      · cases ran
    · split at ran
      · cases ran
        exact ⟨.inl ⟨.halt,by decide,rfl⟩,.inl rfl⟩
      · cases ran
    · split at ran
      · cases ran
        exact ⟨.inr rfl,.inl rfl⟩
      · cases ran
    · cases ran
  · cases ran

theorem evict_cases (ran : evict capacity s step = some t) :
    ∃ key stopping at_ next u stage,s.spawning = some ⟨key,.evicting stopping at_⟩ ∧
      stopping.step capacity step s at_ = some (next,u) ∧ t = {u with spawning := some ⟨key,stage⟩} ∧
      (next = none ∧ stage = .leaving at_ ∨ ∃ later,next = some later ∧ stage = .evicting later at_) := by
  unfold evict at ran
  split at ran
  · rename_i key stopping at_ held
    obtain ⟨⟨next,u⟩,stepped,rfl⟩ := Option.map_eq_some_iff.mp ran
    cases next with
    | none => exact ⟨key,stopping,at_,none,u,.leaving at_,held,stepped,rfl,.inl ⟨rfl,rfl⟩⟩
    | some later => exact ⟨key,stopping,at_,some later,u,.evicting later at_,held,stepped,rfl,.inr ⟨later,rfl,rfl⟩⟩
  · cases ran

theorem leave_cases (ran : leave s = some t) :
    ∃ key at_,s.spawning = some ⟨key,.leaving at_⟩ ∧ t = {s with spawning := some ⟨key,.growing⟩} := by
  unfold leave at ran
  split at ran
  · rename_i key at_ held
    cases ran
    exact ⟨key,at_,held,rfl⟩
  · cases ran

theorem drain_cases (ran : drain s order = some t) : s.spawning = none ∧ order.Perm (s.table.actors.toList.map (·.2)) ∧
      t = {s with table := ⟨∅,[]⟩, calls := s.calls ++ nextStopped order} := by
  unfold drain at ran
  split at ran
  · rename_i free
    split at ran
    · rename_i all
      cases ran
      exact ⟨free,List.isPerm_iff.mp all,rfl⟩
    · cases ran
  · cases ran

theorem shutdown_cases (ran : shutdown capacity s call step = some t) :
    ∃ stopping at_ rest next u calls,s.calls[call]? = some (.shutdown stopping at_ rest) ∧
      stopping.step capacity step s at_ = some (next,u) ∧ t = u.finishCall call calls ∧
      (calls = nextStopped rest ∨ ∃ later,calls = [.shutdown later at_ rest]) := by
  unfold shutdown at ran
  split at ran
  · rename_i stopping at_ rest found
    obtain ⟨⟨next,u⟩,stepped,rfl⟩ := Option.map_eq_some_iff.mp ran
    cases next with
    | none => exact ⟨stopping,at_,rest,none,u,_,found,stepped,rfl,.inl rfl⟩
    | some later => exact ⟨stopping,at_,rest,some later,u,_,found,stepped,rfl,.inr ⟨later,rfl⟩⟩
  · cases ran

theorem childDies_cases (ran : childDies s at_ = some t) :
    ∃ actor running,s.actors[at_]? = some actor ∧ actor.child = some running ∧
      t = s.setActor at_ {actor with child := some false} := by
  unfold childDies at ran
  split at ran
  · rename_i actor found
    split at ran
    · rename_i running has
      cases ran
      exact ⟨actor,running,found,has,rfl⟩
    · cases ran
  · cases ran

theorem forgotten_cases (ran : forgotten s at_ = some t) :
    ∃ actor,s.actors[at_]? = some actor ∧ actor.mailbox = [] ∧ s.table.actors[actor.key]? ≠ some at_ ∧
      t = stopActor s at_ actor := by
  unfold forgotten at ran
  split at ran
  · rename_i actor found
    split at ran
    · cases ran
    · rename_i unused
      cases ran
      simp only [Bool.or_eq_true,not_or,Bool.not_eq_true,Bool.not_eq_true',beq_eq_false_iff_ne,
        List.isEmpty_eq_false_iff,ne_eq,Decidable.not_not] at unused
      exact ⟨actor,found,by simpa using unused.1.1.1.2,unused.1.1.2,rfl⟩
  · cases ran

end Inversions

end HologramLive.Sessions
