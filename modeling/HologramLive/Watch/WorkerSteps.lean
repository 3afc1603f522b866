import HologramLive.Watch.Workers
namespace HologramLive.Watch
open Tables Runs Registration State List

section Steps
variable {host : Host} {s t : State} {at_ : Nat} {before after : Registration}

theorem isRegistered_id (same : after.id = before.id) (watches : Table Str WatchHandle) :
    after.isRegistered at_ watches = before.isRegistered at_ watches := by
  unfold isRegistered
  rw [same]

theorem moves_of (sane : Sane s at_ before) (id : after.id = before.id)
    (insert : after.call.isInsert = before.call.isInsert) (finished : before.call.isOver = true → after.call.isOver = true)
    (early : after.call.isEarly = after.worker.isUnstarted)
    (committed : after.worker.isCommitted = true → s.connected at_ before = true ∨ before.worker.isCommitted = true)
    (exits : after.worker.isExited = true → before.worker.isExited = true ∨ before.isRegistered at_ s.watches = false)
    (source : ∀ source,after.worker.source = some source → source = at_)
    (due : before.isCurrent at_ s.watches = true → after.unserved = true → after.Pending) : Moves s at_ before after := by
  have same : after.isRegistered at_ s.watches = before.isRegistered at_ s.watches := isRegistered_id id s.watches
  refine ⟨id,fun stage => insert ▸ stage,?_,early,?_,source,?_⟩
  · unfold State.live connected at *
    grind
  · intro held
    rw [same] at held
    obtain ⟨placed,runs⟩ := sane.registered held
    refine ⟨insert.trans placed,?_⟩
    cases gone : after.worker.isExited with
    | false => rfl
    | true =>
      rcases exits gone with old | absent
      · rw [runs] at old; cases old
      · rw [held] at absent; cases absent
  · intro current
    refine due ?_
    unfold isCurrent at *
    rw [←same,←insert]
    exact current

theorem moves_worker {worker : Worker} {queue : Nat} {unserved : Bool} (sane : Sane s at_ before)
    (runs : before.worker.isUnstarted = false) (still : worker.isUnstarted = false)
    (committed : worker.isCommitted = true → s.connected at_ before = true ∨ before.worker.isCommitted = true)
    (exits : worker.isExited = true → before.isRegistered at_ s.watches = false)
    (source : ∀ source,worker.source = some source → source = at_)
    (due : before.isRegistered at_ s.watches = true → unserved = true →
      0 < queue ∨ worker = .debouncing ∨ worker = .armed) :
    Moves s at_ before {before with worker := worker, queue := queue, unserved := unserved} := by
  have placed := sane.inserted runs
  refine moves_of sane rfl rfl (fun finished => finished) ?_ committed (fun gone => .inr (exits gone)) source ?_
  · rw [sane.early,runs]
    exact still.symm
  · intro current
    refine due ?_
    unfold isCurrent at current
    rw [placed,Bool.or_false] at current
    exact current

-- A worker that neither debounces nor is about to build has its next build's
-- message in the queue.
theorem Sane.queued (sane : Sane s at_ before) (calm : before.worker ≠ .debouncing) (unarmed : before.worker ≠ .armed)
    (held : before.isRegistered at_ s.watches = true) (unserved : before.unserved = true) : 0 < before.queue := by
  have current : before.isCurrent at_ s.watches = true := by
    unfold isCurrent
    rw [held]
    rfl
  rcases sane.due current unserved with queued | debouncing | armed
  · exact queued
  · exact absurd debouncing calm
  · exact absurd armed unarmed

theorem send_worker (registration : Registration) : registration.send.worker = registration.worker := by
  unfold send; split <;> rfl
theorem send_call (registration : Registration) : registration.send.call = registration.call := by
  unfold send; split <;> rfl
theorem send_id (registration : Registration) : registration.send.id = registration.id := by
  unfold send; split <;> rfl
theorem send_unserved (registration : Registration) : registration.send.unserved = registration.unserved := by
  unfold send; split <;> rfl

variable {registration : Registration}

theorem send_queue (runs : registration.worker.isExited = false) :
    registration.send.queue = registration.queue + 1 := by
  unfold send; rw [if_neg (by simp [runs])]

theorem Sane.running (sane : Sane s at_ before) (current : before.isCurrent at_ s.watches = true) :
    before.worker.isExited = false := by
  rcases Bool.or_eq_true_iff.mp current with held | stage
  · exact (sane.registered held).2
  · have unstarted := sane.early
    rw [early_of_insert stage] at unstarted
    cases worker : before.worker with
    | exited => rw [worker] at unstarted; cases unstarted
    | _ => rfl

theorem moves_send (sane : Sane s at_ before) (call : Registering) (unserved : Bool)
    (insert : call.isInsert = before.call.isInsert) (finished : before.call.isOver = true → call.isOver = true)
    (early : call.isEarly = before.call.isEarly) :
    Moves s at_ before {before.send with call := call, unserved := unserved} := by
  refine moves_of sane (send_id before) insert finished ?_ ?_ ?_ ?_ ?_
  · change call.isEarly = before.send.worker.isUnstarted
    rw [early,send_worker]
    exact sane.early
  · intro committed
    change before.send.worker.isCommitted = true at committed
    rw [send_worker] at committed
    exact .inr committed
  · intro gone
    change before.send.worker.isExited = true at gone
    rw [send_worker] at gone
    exact .inl gone
  · intro source named
    change before.send.worker.source = some source at named
    rw [send_worker] at named
    exact sane.source source named
  · intro current _
    refine .inl ?_
    change 0 < before.send.queue
    rw [send_queue (sane.running current)]
    exact Nat.succ_pos _

theorem relevant_append {directory below : Path} (open_ : relevantPath directory = true) (relevant : relevantPath below = true) :
    relevantPath (directory ++ below) = true := by
  unfold relevantPath at *
  simp only [Bool.and_eq_true,Bool.not_eq_true',bne_iff_ne] at *
  refine ⟨?_,?_⟩
  · rw [any_append,open_.1,relevant.1]
    rfl
  · cases last : below.getLast? with
    | none =>
      rw [getLast?_eq_none_iff.mp last,append_nil]
      exact open_.2
    | some name =>
      rw [getLast?_append,last]
      rw [last] at relevant
      exact relevant.2

variable {event : Event}

theorem relevant_of_concerns {directory : Path} (open_ : relevantPath directory = true)
    (concerned : concerns directory event = true) : isRelevantEvent event = true := by
  obtain ⟨changed,among⟩ := Bool.and_eq_true_iff.mp concerned
  obtain ⟨path,member,below⟩ := any_eq_true.mp among
  obtain ⟨inside,relevant⟩ := Bool.and_eq_true_iff.mp below
  obtain ⟨rest,rfl⟩ := isPrefixOf_iff_prefix.mp inside
  rw [drop_left] at relevant
  exact Bool.and_eq_true_iff.mpr ⟨changed,any_eq_true.mpr ⟨_,member,relevant_append open_ relevant⟩⟩

theorem moves_notice (sane : Sane s at_ before) (open_ : relevantPath before.directory = true) :
    Moves s at_ before (before.notice event) := by
  unfold notice
  by_cases relevant : isRelevantEvent event = true
  · rw [if_pos relevant]
    have same : before.send.call = before.call := send_call before
    have moves := moves_send sane before.call (before.unserved || concerns before.directory event) rfl
      (fun finished => finished) rfl
    rw [←same] at moves
    exact moves
  · rw [if_neg relevant]
    have unconcerned : concerns before.directory event = false := by
      cases concerned : concerns before.directory event with
      | false => rfl
      | true => exact absurd (relevant_of_concerns open_ concerned) relevant
    rw [unconcerned,Bool.or_false]
    exact .refl sane

theorem event_sound (sound : Sound s)
    (open_ : ∀ registration ∈ s.registrations[at_]?,relevantPath registration.directory = true)
    (ran : watchEvent s at_ event = some t) : Sound t := by
  obtain ⟨registration,found,_,rfl⟩ := event_cases ran
  exact set_sound sound found (moves_notice (sound.sane at_ registration found) (open_ registration found))

theorem scheduleAll_sound (sound : Sound s) : Sound (scheduleAll s) := by
  refine moves_sound sound fun other => ?_
  rw [List.getElem?_mapIdx]
  cases found : s.registrations[other]? with
  | none => exact .none
  | some registration =>
    have sane := sound.sane other registration found
    refine .some ?_
    dsimp only
    split
    · have moves := moves_send sane registration.call registration.unserved rfl (fun finished => finished) rfl
      rw [←send_call,←send_unserved] at moves
      exact moves
    · exact .refl sane

theorem remove_sound (sound : Sound s) (id : Str) : Sound (remove s id) := by
  unfold remove
  split
  · exact sound
  · rename_i removed present
    refine Shrinks.sound (s := s) ⟨rfl,rfl,?_,?_⟩ sound
    · intro other watched held
      rw [get_erase] at held
      split at held
      · cases held
      · exact ⟨watched,held,rfl⟩
    · intro other registration found removing
      have kept : s.removing other = true ∨ removed.registration = other := by
        have own : (Call.persistRemoved removed.registration).removed = some removed.registration := rfl
        have rest : ∀ writing : Option Writing,(writing.map fun w => {w with
            live := forget removed.record.directory w.live}).any (·.holder.removed == some other) =
            writing.any (·.holder.removed == some other) := by rintro (_ | _) <;> rfl
        unfold State.removing at *
        simp only [any_append,any_cons,any_nil,Bool.or_false,own,rest] at removing
        grind
      rcases kept with old | rfl
      · unfold connected
        rw [old,Bool.or_true,Bool.true_or]
      · -- the handle that leaves the map stays with the call
        obtain ⟨owner,owned,named⟩ := sound.handles id removed present
        rw [found] at owned
        cases owned
        unfold connected
        rw [isRegistered_iff.mpr ⟨removed,named ▸ present,rfl⟩]
        rfl

theorem watchError_sound (sound : Sound s) (ran : watchError s at_ error = some t) : Sound t := by
  obtain ⟨registration,_,rfl⟩ := watchError_cases ran
  refine (shrinks_append ?_).sound ((shrinks_update _ _).sound sound)
  intro call member
  obtain rfl := mem_singleton.mp member
  rfl

theorem append_get {registrations : List Registration} {other : Nat}
    (found : (registrations ++ [after])[other]? = some registration) :
    registrations[other]? = some registration ∨ registration = after := by
  rw [List.getElem?_append] at found
  split at found
  · exact .inl found
  · exact .inr (mem_singleton.mp (mem_of_getElem? found))

theorem append_sound (sound : Sound s) (stage : after.call.isInsert = true) (worker : after.worker = .unstarted)
    (absent : s.watches[after.id]? = none) (served : after.unserved = false) :
    Sound {s with registrations := s.registrations ++ [after]} := by
  have still : ∀ other,s.live other after = false := by
    intro other
    unfold State.live
    rw [stage]
    rfl
  refine ⟨?_,?_,?_,sound.recorded⟩
  · intro id watched held
    obtain ⟨registration,found,named⟩ := sound.handles id watched held
    refine ⟨registration,?_,named⟩
    rw [List.getElem?_append_left (List.getElem?_eq_some_iff.mp found).1]
    exact found
  · intro other registration found
    rcases append_get found with old | rfl
    · obtain ⟨early,registered,source,due⟩ := sound.sane other registration old
      exact ⟨early,registered,source,due⟩
    · refine ⟨?_,?_,?_,?_⟩
      · rw [early_of_insert stage,worker]; rfl
      · intro held
        obtain ⟨watched,present,_⟩ := isRegistered_iff.mp held
        rw [absent] at present
        cases present
      · intro source named
        rw [worker] at named
        cases named
      · intro _ unserved
        rw [served] at unserved
        cases unserved
  · intro one first here alive two second there live same
    rcases append_get here with old | rfl
    · rcases append_get there with old' | rfl
      · exact sound.single one first old alive two second old' live same
      · change s.live two second = true at live
        rw [still] at live
        cases live
    · change s.live one first = true at alive
      rw [still] at alive
      cases alive

theorem register_sound (sound : Sound s) (ran : register host files s at_ = some t) : Sound t := by
  obtain ⟨directory,previous,rest,_,rfl | ⟨opened,absent,rfl⟩⟩ := register_cases ran
  · exact (shrinks_finishCall (nextSaved_quiet rest)).sound sound
  · have ended : Sound (s.finishCall at_ []) := (shrinks_finishCall (by intro _ member; cases member)).sound sound
    exact append_sound ended rfl rfl absent rfl

-- The condition on an insertion: no earlier registration of the project is
-- connected or at a build.
def Clear (s : State) (at_ : Nat) : Prop :=
  ∀ registration ∈ s.registrations[at_]?,∀ earlier ∈ s.registrations.zipIdx,
    earlier.1.id = registration.id → s.live earlier.2 earlier.1 = false

theorem insert_sound (sound : Sound s) (clear : Clear s at_) (ran : insert s at_ = some t) : Sound t := by
  obtain ⟨registration,record,rest,found,stage,rfl⟩ := insert_cases ran
  have own := sound.sane at_ registration found
  have get (other : Nat) := @set_get s at_ registration {registration with call := .persist rest} other found
  have fewer (other : Nat) (different : at_ ≠ other) (old : Registration)
      (held : old.isRegistered other (s.watches.insert registration.id ⟨record,at_⟩) = true) :
      old.isRegistered other s.watches = true := by
    obtain ⟨watched,present,named⟩ := isRegistered_iff.mp held
    rw [get_insert] at present
    split at present
    · cases present; exact absurd named different
    · exact isRegistered_iff.mpr ⟨watched,present,named⟩
  have split (other : Nat) (after : Registration)
      (present : (s.setRegistration at_ {registration with call := .persist rest}).registrations[other]? = some after) :
      at_ = other ∧ after = {registration with call := .persist rest} ∨ at_ ≠ other ∧ s.registrations[other]? = some after := by
    rw [get] at present
    split at present
    · rename_i equal; cases present; exact .inl ⟨equal,rfl⟩
    · rename_i different; exact .inr ⟨different,present⟩
  have cleared (other : Nat) (old : Registration) (there : s.registrations[other]? = some old)
      (same : old.id = registration.id) : s.live other old = false :=
    clear registration found (old,other) (mem_zipIdx_iff_getElem?.mpr there) same
  have older (other : Nat) (different : at_ ≠ other) (old : Registration)
      (alive : State.live {s.setRegistration at_ {registration with call := .persist rest} with
        watches := s.watches.insert registration.id ⟨record,at_⟩} other old = true) : s.live other old = true := by
    have before := fewer other different old
    have removing : State.removing {s.setRegistration at_ {registration with call := .persist rest} with
        watches := s.watches.insert registration.id ⟨record,at_⟩} other = s.removing other := rfl
    unfold State.live connected at *
    rw [removing] at alive
    dsimp only at alive
    grind
  refine ⟨?_,?_,?_,sound.recorded⟩
  · intro id watched held
    dsimp only at held ⊢
    rw [get_insert] at held
    split at held
    · rename_i same
      cases held
      exact ⟨{registration with call := .persist rest},by rw [get,if_pos rfl],same⟩
    · obtain ⟨owner,owned,named⟩ := sound.handles id watched held
      rw [get]
      split
      · rename_i equal
        rw [←equal,found] at owned
        cases owned
        exact ⟨_,rfl,named⟩
      · exact ⟨owner,owned,named⟩
  · intro other after present
    rcases split other after present with ⟨rfl,rfl⟩ | ⟨different,old⟩
    · refine ⟨?_,?_,own.source,?_⟩
      · rw [←own.early,stage]
        rfl
      · intro _
        refine ⟨rfl,own.running ?_⟩
        unfold isCurrent
        rw [stage]
        exact Bool.or_true _
      · intro _
        refine own.due ?_
        unfold isCurrent
        rw [stage]
        exact Bool.or_true _
    · obtain ⟨early,registered,source,due⟩ := sound.sane other after old
      refine ⟨early,fun held => registered (fewer other different after held),source,fun current => due ?_⟩
      unfold isCurrent at *
      rcases Bool.or_eq_true_iff.mp current with held | placing
      · rw [fewer other different after held]; rfl
      · rw [placing]; exact Bool.or_true _
  · intro one first here alive two second there live same
    rcases split one first here with ⟨rfl,rfl⟩ | ⟨different,old⟩
    · rcases split two second there with ⟨rfl,rfl⟩ | ⟨different',old'⟩
      · rfl
      · have dead := cleared two second old' same.symm
        rw [older two different' second live] at dead
        cases dead
    · rcases split two second there with ⟨rfl,rfl⟩ | ⟨different',old'⟩
      · have dead := cleared one first old same
        rw [older one different first alive] at dead
        cases dead
      · exact sound.single one first old (older one different first alive) two second old' (older two different' second live)
          same

theorem gone_erased (registration : Registration) (at_ : Nat) (watches : Table Str WatchHandle) :
    registration.isRegistered at_ (watches.erase registration.id) = false := by
  unfold isRegistered
  rw [get_erase,if_pos rfl]
  rfl

theorem moves_over {id : Str} (sane : Sane s at_ before) (named : before.id = id) (placed : before.call.isInsert = false) :
    Moves {s with watches := s.watches.erase id} at_ before {before with call := .ended, worker := .exited} := by
  subst named
  have absent := gone_erased before at_ s.watches
  have still : Sane {s with watches := s.watches.erase before.id} at_ before := by
    refine ⟨sane.early,?_,sane.source,?_⟩
    · intro held; rw [absent] at held; cases held
    · unfold isCurrent
      rw [absent,placed]
      intro current; cases current
  refine moves_of still rfl placed.symm (fun _ => rfl) rfl ?_ (fun _ => .inr absent) ?_ ?_
  · intro committed; cases committed
  · intro source named; cases named
  · unfold isCurrent
    rw [absent,placed]
    intro current; cases current

theorem spawn_sound {started : Bool} (sound : Sound s) (ran : spawn s at_ started = some t) : Sound t := by
  obtain ⟨registration,rest,found,stage,⟨_,rfl⟩ | ⟨_,rfl⟩⟩ := spawn_cases ran
  · have sane := sound.sane at_ registration found
    have unstarted := sane.unstarted (by rw [stage]; rfl)
    refine set_sound sound found (moves_of sane rfl (by rw [stage]; rfl) ?_ rfl ?_ ?_ ?_ ?_)
    · intro finished; rw [stage] at finished; cases finished
    · intro committed; cases committed
    · intro gone; cases gone
    · intro source named; cases named
    · intro current unserved
      rcases sane.due current unserved with waiting | stage | stage
      · exact .inl waiting
      · rw [unstarted] at stage; cases stage
      · rw [unstarted] at stage; cases stage
  · have erased := (shrinks_erase registration.id).sound sound
    have moves := moves_over (sound.sane at_ registration found) rfl (by rw [stage]; rfl)
    have quiet : ∀ call ∈ [Call.persistRolledBack rest],call.removed = none := by
      intro call member
      obtain rfl := mem_singleton.mp member
      rfl
    exact (shrinks_append quiet).sound (set_sound erased found moves)

theorem start_sound (sound : Sound s) (ran : start s at_ = some t) : Sound t := by
  obtain ⟨registration,rest,found,stage,rfl⟩ := start_cases ran
  have sane := sound.sane at_ registration found
  have moves := moves_send sane .ended registration.unserved (by rw [stage]; rfl) (fun _ => rfl)
    (by rw [stage]; rfl)
  rw [←send_unserved] at moves
  exact (shrinks_append (nextSaved_quiet rest)).sound (set_sound sound found moves)

theorem shrinks_hold {writing : Writing} (quiet : writing.holder.removed = none) :
    Shrinks s {s with writing := some writing} := by
  refine ⟨rfl,rfl,fun id watched held => ⟨watched,held,rfl⟩,fun at_ registration _ removing => ?_⟩
  unfold connected State.removing at *
  simp [quiet] at removing
  simp [removing]

theorem lock_sound {waiting : Waiting} (sound : Sound s) (ran : lock s waiting = some t) : Sound t := by
  obtain ⟨free,entered,holder,taken,rfl⟩ := lock_cases ran
  cases taken with
  | registering at_ registration rest found stage =>
    have sane := sound.sane at_ registration found
    have moves : Moves s at_ registration {registration with call := .persisting rest} := by
      refine moves_of sane rfl (by rw [stage]; rfl) ?_ ?_ ?_ ?_ ?_ ?_
      · intro finished; rw [stage] at finished; cases finished
      · rw [←sane.early,stage]; rfl
      · intro committed; exact .inr committed
      · intro gone; exact .inl gone
      · exact sane.source
      · exact sane.due
    exact Shrinks.sound (shrinks_hold (by rfl)) (set_sound sound found moves)
  | worker at_ registration found stage =>
    have sane := sound.sane at_ registration found
    have runs : registration.worker.isUnstarted = false := by rw [stage]; rfl
    have moves : Moves s at_ registration {registration with worker := .persisting} := by
      refine moves_worker sane runs rfl ?_ ?_ ?_ ?_
      · intro committed; cases committed
      · intro gone; cases gone
      · intro source named; cases named
      · intro held unserved
        exact .inl (sane.queued (by simp [stage]) (by simp [stage]) held unserved)
    exact Shrinks.sound (shrinks_hold (by rfl)) (set_sound sound found moves)
  | other at_ call found =>
    refine Shrinks.sound (s := s) ⟨rfl,rfl,fun id watched held => ⟨watched,held,rfl⟩,?_⟩ sound
    intro other registration _ removing
    have held : s.removing other = true := by
      unfold State.removing at *
      rcases Bool.or_eq_true_iff.mp removing with listed | holds
      · have left : s.calls.any (·.removed == some other) = true := by
          obtain ⟨item,member,names⟩ := any_eq_true.mp listed
          have kept : item ∈ s.calls.eraseIdx at_ := by
            rcases mem_append.mp member with kept | none_
            · exact kept
            · cases none_
          exact any_eq_true.mpr ⟨item,mem_of_mem_eraseIdx kept,names⟩
        rw [left]; rfl
      · have left : s.calls.any (·.removed == some other) = true :=
          any_eq_true.mpr ⟨call,mem_of_getElem? found,holds⟩
        rw [left]; rfl
    unfold connected
    rw [held,Bool.or_true,Bool.true_or]

theorem resumed_sound (sound : Sound s) (resumed : Resumed s written holder t) : Sound t := by
  cases resumed with
  | registered at_ registration rest found stage _ =>
    have sane := sound.sane at_ registration found
    refine set_sound sound found (moves_of sane rfl (by rw [stage]; rfl) ?_ ?_ ?_ ?_ ?_ ?_)
    · intro finished; rw [stage] at finished; cases finished
    · rw [←sane.early,stage]; rfl
    · intro committed; exact .inr committed
    · intro gone; exact .inl gone
    · exact sane.source
    · exact sane.due
  | rolledBack at_ registration rest found stage _ =>
    have erased := (shrinks_erase registration.id).sound sound
    have moves := moves_over (sound.sane at_ registration found) rfl (by rw [stage]; rfl)
    exact (shrinks_append (nextSaved_quiet rest)).sound (set_sound erased found moves)
  | recorded at_ registration found stage =>
    have sane := sound.sane at_ registration found
    refine set_sound sound found (moves_worker sane (by rw [stage]; rfl) rfl ?_ ?_ ?_ ?_)
    · intro committed; cases committed
    · intro gone; cases gone
    · intro source named; cases named
    · intro held unserved
      exact .inl (sane.queued (by simp [stage]) (by simp [stage]) held unserved)
  | nextSaved rest => exact (shrinks_append (nextSaved_quiet rest)).sound sound
  | idle => exact sound

theorem write_sound (sound : Sound s) (ran : write s written = some t) : Sound t := by
  obtain ⟨writing,_,⟨_,resumed⟩ | ⟨_,resumed⟩⟩ := write_cases ran
  · exact resumed_sound ((shrinks_release rfl).sound sound) resumed
  · have released : Shrinks s {s with writing := none} := shrinks_release rfl
    exact resumed_sound (released.sound sound) resumed

theorem receive_sound (sound : Sound s) (ran : receive s at_ = some t) : Sound t := by
  obtain ⟨registration,queue,found,stage,_,rfl⟩ := receive_cases ran
  have sane := sound.sane at_ registration found
  have runs : registration.worker.isUnstarted = false := by rcases stage with at_ | at_ <;> rw [at_] <;> rfl
  refine set_sound sound found (moves_worker sane runs rfl ?_ ?_ ?_ ?_)
  · intro committed; cases committed
  · intro gone; cases gone
  · intro source named; cases named
  · intro _ _; exact .inr (.inl rfl)

theorem timeout_sound (sound : Sound s) (ran : timeout s at_ = some t) : Sound t := by
  obtain ⟨registration,found,stage,linked,rfl⟩ := timeout_cases ran
  have sane := sound.sane at_ registration found
  refine set_sound sound found (moves_worker sane (by rw [stage]; rfl) rfl ?_ ?_ ?_ ?_)
  · intro _; exact .inl linked
  · intro gone; cases gone
  · intro source named; cases named
  · intro _ _; exact .inr (.inr rfl)

theorem disconnect_sound (sound : Sound s) (ran : disconnect s at_ = some t) : Sound t := by
  obtain ⟨registration,found,stage,lost,rfl⟩ := disconnect_cases ran
  have sane := sound.sane at_ registration found
  have runs : registration.worker.isUnstarted = false := by rcases stage with at_ | at_ <;> rw [at_] <;> rfl
  have absent : registration.isRegistered at_ s.watches = false := by
    unfold connected at lost
    simp only [Bool.or_eq_false_iff] at lost
    exact lost.1.1
  refine set_sound sound found (moves_worker sane runs rfl ?_ ?_ ?_ ?_)
  · intro committed; cases committed
  · intro _; exact absent
  · intro source named; cases named
  · intro held; rw [absent] at held; cases held

-- The handle that a committed worker finds under its project is its own.
theorem Sound.own {watched : WatchHandle} (sound : Sound s) (found : s.registrations[at_]? = some before)
    (committed : before.worker.isCommitted = true) (present : s.watches[before.id]? = some watched) :
    watched.registration = at_ := by
  obtain ⟨registration,owned,named⟩ := sound.handles before.id watched present
  have held : registration.isRegistered watched.registration s.watches = true :=
    isRegistered_iff.mpr ⟨watched,named ▸ present,rfl⟩
  have placed := (sound.sane _ registration owned).registered held
  have runs : before.worker.isUnstarted = false := by
    cases worker : before.worker with
    | unstarted => rw [worker] at committed; cases committed
    | _ => rfl
  have inserted := (sound.sane at_ before found).inserted runs
  refine sound.single _ registration owned ?_ at_ before found ?_ named
  · unfold State.live connected
    rw [placed.1,held]
    rfl
  · unfold State.live
    rw [inserted,committed,Bool.or_true]
    rfl

theorem request_sound (sound : Sound s) (ran : request host s at_ = some t) : Sound t := by
  obtain ⟨registration,found,stage,⟨absent,rfl⟩ | ⟨input,watched,present,rfl⟩⟩ := request_cases ran
  · have sane := sound.sane at_ registration found
    refine set_sound sound found (moves_worker sane (by rw [stage]; rfl) rfl ?_ ?_ ?_ ?_)
    · intro committed; cases committed
    · intro gone; cases gone
    · intro source named; cases named
    · intro held
      obtain ⟨watched,present,_⟩ := isRegistered_iff.mp held
      rw [absent] at present
      cases present
  · have sane := sound.sane at_ registration found
    have own := sound.own found (by rw [stage]; rfl) present
    refine set_sound sound found (moves_worker sane (by rw [stage]; rfl) rfl ?_ ?_ ?_ ?_)
    · intro _; exact .inr (by rw [stage]; rfl)
    · intro gone; cases gone
    · intro source named; cases named; exact own
    · intro _ unserved; cases unserved

theorem updateRecord_registrations (id : Str) (update : WatchedHoloProject → WatchedHoloProject) :
    (s.updateRecord id update).registrations = s.registrations := by
  unfold updateRecord
  split <;> rfl

theorem compile_sound {created : Except Str Unit} (sound : Sound s) (ran : compile s at_ created = some t) : Sound t := by
  obtain ⟨registration,input,source,worker,found,stage,next,rfl⟩ := compile_cases ran
  have marked := (shrinks_update registration.id compiling).sound sound
  rw [←updateRecord_registrations (s := s) registration.id compiling] at found
  have sane := marked.sane at_ registration found
  refine set_sound marked found (moves_worker sane (by rw [stage]; rfl) ?_ ?_ ?_ ?_ ?_)
  · rcases next with rfl | ⟨_,rfl⟩ <;> rfl
  · intro _; exact .inr (by rw [stage]; rfl)
  · intro gone; rcases next with rfl | ⟨_,rfl⟩ <;> cases gone
  · intro other named
    refine sane.source other ?_
    rw [stage]
    rcases next with rfl | ⟨_,rfl⟩ <;> exact named
  · intro held unserved
    exact .inl (sane.queued (by simp [stage]) (by simp [stage]) held unserved)

theorem build_sound (sound : Sound s) (ran : buildProject s at_ result = some t) : Sound t := by
  obtain ⟨registration,input,source,found,stage,rfl⟩ := build_cases ran
  have sane := sound.sane at_ registration found
  refine set_sound sound found (moves_worker sane (by rw [stage]; rfl) rfl ?_ ?_ ?_ ?_)
  · intro _; exact .inr (by rw [stage]; rfl)
  · intro gone; cases gone
  · intro other named
    refine sane.source other ?_
    rw [stage]
    exact named
  · intro held unserved
    exact .inl (sane.queued (by simp [stage]) (by simp [stage]) held unserved)

theorem record_sound (sound : Sound s) (ran : record s at_ now = some t) : Sound t := by
  obtain ⟨registration,result,source,update,found,stage,rfl⟩ := record_cases ran
  have own : ∀ recording ∈ s.recordingsOf registration.id at_ source,
      recording.worker = recording.source ∧ recording.source = recording.target := by
    intro recording member
    have from_ : source = at_ := (sound.sane at_ registration found).source source (by rw [stage]; rfl)
    unfold recordingsOf at member
    split at member
    · cases member
    · rename_i watched present
      obtain rfl := mem_singleton.mp member
      have to_ := sound.own found (by rw [stage]; rfl) present
      exact ⟨from_.symm,from_.trans to_.symm⟩
  have marked := (shrinks_update registration.id update).sound sound
  rw [←updateRecord_registrations (s := s) registration.id update] at found
  have sane := marked.sane at_ registration found
  have recorded : Sound ((s.updateRecord registration.id update).setRegistration at_ {registration with worker := .recorded}) := by
    refine set_sound marked found (moves_worker sane (by rw [stage]; rfl) rfl ?_ ?_ ?_ ?_)
    · intro committed; cases committed
    · intro gone; cases gone
    · intro source named; cases named
    · intro held unserved
      exact .inl (sane.queued (by simp [stage]) (by simp [stage]) held unserved)
  refine ⟨recorded.handles,fun other after present => ?_,recorded.single,?_⟩
  · obtain ⟨early,registered,source,due⟩ := recorded.sane other after present
    exact ⟨early,registered,source,due⟩
  · intro recording member
    rcases mem_append.mp member with old | new
    · exact sound.recorded recording old
    · exact own recording new

theorem started_sound (file : Option (List WatchedHoloProject)) : Sound (.started file) := by
  refine ⟨?_,?_,?_,?_⟩
  · intro id watched held
    exact absurd held (by simp [State.started])
  · intro other registration found; cases found
  · intro one first found; cases found
  · intro recording member; cases member

end Steps

-- The condition on a step: an insertion is clear, and the watched directory's
-- own path passes the filter of events.
def Orderly (s : State) : Action → Prop
  | .insert at_ => Clear s at_
  | .event at_ _ => ∀ registration ∈ s.registrations[at_]?,relevantPath registration.directory = true
  | _ => True

theorem act_sound (sound : Sound s) (orderly : Orderly s action) (ran : act host s action = some t) : Sound t := by
  cases action with
  | restore readable =>
    cases ran
    cases readable
    · exact sound
    · exact (shrinks_append (nextSaved_quiet s.saved)).sound sound
  | add directory =>
    cases ran
    refine (shrinks_append ?_).sound sound
    intro call member
    obtain rfl := mem_singleton.mp member
    rfl
  | remove id => cases ran; exact remove_sound sound id
  | scheduleAll => cases ran; exact scheduleAll_sound sound
  | event at_ event => exact event_sound sound orderly ran
  | watchError at_ error => exact watchError_sound sound ran
  | crash =>
    cases ran
    exact (shrinks_release rfl).sound (started_sound s.file)
  | register files at_ => exact register_sound sound ran
  | insert at_ => exact insert_sound sound orderly ran
  | spawn at_ started => exact spawn_sound sound ran
  | start at_ => exact start_sound sound ran
  | lock waiting => exact lock_sound sound ran
  | write written => exact write_sound sound ran
  | receive at_ => exact receive_sound sound ran
  | timeout at_ => exact timeout_sound sound ran
  | disconnect at_ => exact disconnect_sound sound ran
  | request at_ => exact request_sound sound ran
  | compile at_ created => exact compile_sound sound ran
  | build at_ result => exact build_sound sound ran
  | record at_ now => exact record_sound sound ran

end HologramLive.Watch
