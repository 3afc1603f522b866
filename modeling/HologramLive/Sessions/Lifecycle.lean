import HologramLive.Sessions.Residents
namespace HologramLive.Sessions
open Tables Runs Actor List

def State.held (s : State) (at_ : Nat) : Bool := s.calls.any fun call => call.asks at_ || call.fails at_

def State.idle (s : State) (at_ : Nat) : Bool := !s.held at_ && s.actors[at_]?.all fun actor => !actor.hasTurn

-- The condition on a step: an actor that a call takes from the table has not
-- broken; a turn breaks only when no other call has its actor; what eviction and
-- shutdown take out of the table is idle; and no child outlives the answer that
-- an eviction waits for, nor stands when the table is drained.
def fine (max : Nat) (s : State) : Action → Bool
  | .look call _ => match s.calls[call]? with
    | some (.looking key) => (s.table.actors[key]?).all fun at_ => s.actors[at_]?.all fun actor => !actor.broken
    | _ => true
  | .begin at_ spawned => spawned || s.actors[at_]?.all fun actor =>
      actor.child.isSome || !(s.held at_ || actor.mailbox.tail.contains .turn)
  | .finish at_ answer => answer.alive || s.actors[at_]?.all fun actor => !(s.held at_ || actor.mailbox.contains .turn)
  | .grow => decide (s.table.actors.size < max) ||
      (SessionTable.popOldest s.table.actors s.table.recency).all fun popped => s.idle popped.1
  | .evict (.proceed true) => s.spawning.all fun spawning => match spawning.stage with
    | .evicting _ at_ => s.actors[at_]?.all fun actor => actor.child.isNone
    | _ => true
  | .drain _ => s.table.actors.toList.all fun row => s.idle row.2 && s.actors[row.2]?.all fun actor => actor.child.isNone
  | _ => true

section Steps
variable {max capacity : Nat} {s t : State} {at_ call : Nat} {before after : Actor}

theorem enters_looking (key : Str) : Enters s (.looking key) := by
  refine ⟨trivial,?_,?_,?_,?_⟩
  · intro at_ actor names; cases names
  · intro at_ actor names; cases names
  · intro at_ names; cases names
  · intro at_ names; cases names

theorem enters_asking {key : Str} (found : s.actors[at_]? = some before) (named : before.key = key)
    (registered : s.table.actors[key]? = some at_) (unbroken : before.broken = false) : Enters s (.asking key at_) := by
  refine ⟨⟨before,found,named⟩,?_,?_,?_,?_⟩
  · intro other actor names present
    have same : at_ = other := by simpa [Call.asks] using names
    subst same
    rw [found] at present
    cases present
    exact ⟨named ▸ registered,unbroken⟩
  · intro other actor names; cases names
  · intro other names; cases names
  · intro other names; cases names

theorem held_iff : s.held at_ = false ↔ ∀ item ∈ s.calls,item.asks at_ = false ∧ item.fails at_ = false := by
  unfold State.held
  rw [any_eq_false]
  refine forall₂_congr fun item _ => ?_
  simp

theorem enters_failed {key : Str} (found : s.actors[at_]? = some before) (named : before.key = key)
    (registered : s.table.actors[key]? = some at_) (broken : before.broken = true) (unheld : s.held at_ = false) :
    Enters s (.failed key at_) := by
  refine ⟨⟨before,found,named⟩,?_,?_,?_,?_⟩
  · intro other actor names; cases names
  · intro other actor names present
    have same : at_ = other := by simpa [Call.fails] using names
    subst same
    rw [found] at present
    cases present
    exact ⟨named ▸ registered,broken⟩
  · intro other names item member
    have same : at_ = other := by simpa [Call.fails] using names
    subst same
    exact (held_iff.mp unheld item member).2
  · intro other names; cases names

theorem enters_nextStopped (gone : ∀ at_ ∈ order,at_ < s.actors.length ∧ ∀ key : Str,s.table.actors[key]? ≠ some at_) :
    ∀ item ∈ nextStopped order,Enters s item := by
  intro item member
  cases order with
  | nil => cases member
  | cons actor rest =>
    obtain rfl := mem_singleton.mp member
    refine ⟨trivial,?_,?_,?_,?_⟩
    · intro at_ actor names; cases names
    · intro at_ actor names; cases names
    · intro at_ names; cases names
    · intro at_ names
      refine gone at_ ?_
      simp only [Call.stops,Bool.or_eq_true,beq_iff_eq,contains_iff_mem] at names
      rcases names with rfl | later
      · exact mem_cons_self
      · exact mem_cons_of_mem _ later

theorem appends_resident (resident : Resident s) (short : calls.length ≤ 1)
    (enters : ∀ item ∈ calls,Enters s item) : Resident {s with calls := s.calls ++ calls} := by
  cases calls with
  | nil =>
    rw [append_nil]
    exact resident
  | cons item rest =>
    cases rest with
    | nil => exact append_resident resident (enters item mem_cons_self)
    | cons => exact absurd short (by simp)

theorem finished_resident (resident : Resident s) (call : Nat) : Resident (s.finishCall call []) := by
  unfold State.finishCall
  rw [append_nil]
  exact fewer_resident resident (eraseIdx_sublist _ _)

theorem finishCall_append (call : Nat) (item : Call) :
    s.finishCall call [item] = {s.finishCall call [] with calls := (s.finishCall call []).calls ++ [item]} := by
  unfold State.finishCall
  simp

variable {spawning : Option Spawning}

-- The queue of recency says nothing about the actors, and nobody else waits for a stage without an actor.
theorem rewrite_resident (resident : Resident s)
    (free : ∀ at_,s.spawning.any (·.stage.names at_) = false) (same : table.actors = s.table.actors)
    (still : ∀ held at_,spawning = some held → held.stage.names at_ = false) :
    Resident {s with table := table, spawning := spawning} := by
  refine unregister_resident resident free ?_ ?_ ?_
  · intro key other now; rw [same] at now; exact now
  · intro other actor _ was lost; rw [same] at lost; exact absurd was lost
  · intro held other now names
    rw [still held other now] at names
    cases names

theorem look_resident (resident : Resident s) (ok : fine max s (.look call artifact) = true)
    (ran : look s call artifact = some t) : Resident t := by
  obtain ⟨free,key,found,⟨actor,present,_,rfl⟩ | ⟨table,spawning,rfl,held,kept | ⟨actor,present,dead,_⟩⟩⟩ := look_cases ran
  · obtain ⟨owner,owned,named⟩ := resident.table key actor present
    have unbroken : owner.broken = false := by
      unfold fine at ok
      simp only [found,present,owned,Option.all_some,Bool.not_eq_true'] at ok
      exact ok
    have taken : Resident (s.finishCall call [.asking key actor]) := by
      rw [finishCall_append]
      exact append_resident (finished_resident resident call) (enters_asking owned named present unbroken)
    have nobody : ∀ at_,(s.finishCall call [.asking key actor]).spawning.any (·.stage.names at_) = false := by
      intro at_
      change s.spawning.any _ = false
      rw [free]
      rfl
    refine rewrite_resident taken nobody rfl ?_
    intro held other now
    change s.spawning = some held at now
    rw [free] at now
    cases now
  · obtain ⟨_,rfl⟩ := kept
    refine rewrite_resident (finished_resident resident call) ?_ rfl ?_
    · intro at_
      change s.spawning.any _ = false
      rw [free]
      rfl
    · intro later other now
      rcases held with none_ | some_
      · rw [none_] at now; cases now
      · rw [some_] at now; cases now; rfl
  · obtain ⟨owner,owned,named⟩ := resident.table key actor present
    have runs := ((resident.fits actor owner owned).registered (named ▸ present)).1
    unfold State.alive at dead
    rw [owned] at dead
    simp [runs] at dead

theorem idle_iff : s.idle at_ = true ↔ s.held at_ = false ∧ ∀ actor,s.actors[at_]? = some actor → actor.hasTurn = false := by
  unfold State.idle
  cases found : s.actors[at_]? with
  | none => simp
  | some actor => simp

theorem grow_resident (listed : s.table.Listed) (resident : Resident s) (absent : ∀ spawning,s.spawning = some spawning →
    s.table.actors[spawning.key]? = none) (ok : fine max s .grow = true) (ran : grow max s = some t) : Resident t := by
  obtain ⟨key,held,⟨full,actor,table,popped,rfl⟩ | ⟨_,rfl⟩⟩ := grow_cases ran
  · obtain ⟨oldest,present,erased,_⟩ := popOldest_cases listed popped
    obtain ⟨owner,owned,named⟩ := resident.table oldest actor present
    have idle : s.idle actor = true := by
      unfold fine at ok
      rw [popped] at ok
      simpa [Nat.not_lt.mpr full] using ok
    obtain ⟨unheld,quiet⟩ := idle_iff.mp idle
    refine unregister_resident resident ?_ ?_ ?_ ?_
    · intro other; rw [held]; rfl
    · intro name other now
      rw [erased,get_erase] at now
      split at now
      · cases now
      · exact now
    · intro other loser found was lost
      rw [erased,get_erase] at lost
      split at lost
      · rename_i same
        rw [←same,present] at was
        cases was
        exact ⟨quiet loser found,held_iff.mp unheld,.inr ⟨_,rfl,beq_self_eq_true _⟩⟩
      · exact absurd was lost
    · intro holder other now names
      cases now
      have same : actor = other := by simpa [Stage.names] using names
      subst same
      have vacant (name : Str) : table.actors[name]? ≠ some actor := by
        rw [erased,get_erase]
        split
        · exact fun none_ => nomatch none_
        · rename_i different; intro now
          obtain ⟨again,here,spelled⟩ := resident.table name actor now
          rw [owned] at here; cases here
          exact different (named.symm.trans spelled)
      refine ⟨(List.getElem?_eq_some_iff.mp owned).1,vacant,fun again here => ?_⟩
      rw [owned] at here
      cases here
      rw [erased,get_erase,if_pos named.symm]
  · have missing := absent _ held
    have joined := register_resident resident missing (by intro other; rw [held]; rfl)
    refine append_resident joined (@enters_asking _ _ (.new key) key ?_ rfl ?_ rfl)
    · simp
    · change (s.table.actors.insert key s.actors.length)[key]? = _
      rw [get_insert,if_pos rfl]

theorem send_resident (resident : Resident s) (found : s.actors[at_]? = some before)
    (gone : ∀ key : Str,s.table.actors[key]? ≠ some at_) (other : message ≠ .turn) :
    Resident (s.setActor at_ (before.send message)) := by
  obtain ⟨_,busy,child,childless,asked,failed⟩ := resident.fits at_ before found
  refine set_resident resident found rfl ⟨fun now => absurd now (gone _),fun turn => busy ?_,child,childless,asked,failed⟩
  unfold hasTurn send at *
  simpa [contains_iff_mem,Ne.symm other] using turn

variable {step : StopStep}

theorem step_resident {next : Option Stopping} {stopping : Stopping} (resident : Resident s)
    (gone : ∀ key : Str,s.table.actors[key]? ≠ some at_) (ran : stopping.step capacity step s at_ = some (next,t)) :
    Resident t ∧ t.table = s.table ∧ t.calls = s.calls ∧ t.spawning = s.spawning ∧ t.actors.length = s.actors.length := by
  obtain ⟨actor,found,⟨message,other,rfl⟩ | rfl,_⟩ := step_cases ran
  · exact ⟨send_resident resident found gone other,rfl,rfl,rfl,length_set ..⟩
  · exact ⟨resident,rfl,rfl,rfl,rfl⟩

theorem respawn_resident (resident : Resident s)
    (names : ∀ held at_,spawning = some held → held.stage.names at_ = true →
      ∃ old,s.spawning = some old ∧ old.stage.names at_ = true)
    (evicts : ∀ old at_ actor,s.spawning = some old → old.evicts at_ = true → s.actors[at_]? = some actor →
      actor.child = none ∨ ∃ held,spawning = some held ∧ held.evicts at_ = true) :
    Resident {s with spawning := spawning} := by
  refine ⟨?_,resident.table,resident.known,resident.single,?_,?_,resident.begun,resident.removals⟩
  · intro other actor present
    obtain ⟨registered,busy,child,childless,asked,failed⟩ := resident.fits other actor present
    refine ⟨registered,busy,fun has => ?_,childless,asked,failed⟩
    rcases child has with here | ⟨old,was,evicting⟩
    · exact .inl here
    · rcases evicts old other actor was evicting present with none_ | later
      · rw [none_] at has; cases has
      · exact .inr later
  · intro other named
    rcases named with now | stops
    · cases spawning with
      | none => cases now
      | some held =>
        obtain ⟨old,was,named⟩ := names held other rfl now
        exact resident.gone other (.inl (by rw [was]; exact named))
    · exact resident.gone other (.inr stops)
  · intro held other actor now named present
    obtain ⟨old,was,same⟩ := names held other now named
    exact resident.vacated old other actor was same present

theorem leave_resident (resident : Resident s) (ran : leave s = some t) : Resident t := by
  obtain ⟨key,at_,held,rfl⟩ := leave_cases ran
  refine respawn_resident resident ?_ ?_
  · intro later other now names; cases now; cases names
  · intro old other actor was evicting
    rw [held] at was
    cases was
    cases evicting

theorem evict_resident (resident : Resident s) (ok : fine max s (.evict step) = true)
    (ran : evict capacity s step = some t) : Resident t := by
  obtain ⟨key,stopping,at_,next,u,stage,held,stepped,rfl,later⟩ := evict_cases ran
  have named : s.spawning.any (·.stage.names at_) = true := by rw [held]; exact beq_self_eq_true _
  obtain ⟨_,gone⟩ := resident.gone at_ (.inl named)
  obtain ⟨moved,_,_,spawning,_⟩ := step_resident resident gone stepped
  refine respawn_resident moved ?_ ?_
  · intro after other now names
    cases now
    refine ⟨_,spawning.trans held,?_⟩
    rcases later with ⟨_,rfl⟩ | ⟨_,_,rfl⟩ <;> exact names
  · intro old other actor was evicting present
    rw [spawning,held] at was
    cases was
    have same : at_ = other := by
      have names := evicts_names evicting
      simpa [Stage.names] using names
    subst same
    obtain ⟨first,found,sent,past⟩ := step_cases stepped
    have child : actor.child = first.child := by
      rcases sent with ⟨message,_,rfl⟩ | rfl
      · rw [setActor_get _ found,if_pos rfl] at present
        cases present
        rfl
      · rw [found] at present
        cases present
        rfl
    rcases past with rfl | rfl | ⟨rfl,finished⟩
    · cases evicting
    · rcases later with ⟨none_,_⟩ | ⟨after,some_,rfl⟩
      · cases none_
      · cases some_
        exact .inr ⟨_,rfl,beq_self_eq_true _⟩
    · refine .inl (child.trans ?_)
      rcases finished with answered | stopped | rfl
      · exact (resident.fits at_ first found).childless (.inl answered)
      · exact (resident.fits at_ first found).childless (.inr (.inl stopped))
      · unfold fine at ok
        rw [held] at ok
        simpa [found] using ok

theorem ask_resident (resident : Resident s) (ran : ask capacity s call = some t) : Resident t := by
  obtain ⟨key,at_,actor,asking,found,alive⟩ := ask_cases ran
  have asks : ∃ item ∈ s.calls,item.asks at_ = true := ⟨_,mem_of_getElem? asking,beq_self_eq_true _⟩
  have fits := resident.fits at_ actor found
  obtain ⟨registered,unbroken⟩ := fits.asked asks
  obtain ⟨runs,unanswered,noStop,noHalt⟩ := fits.registered registered
  rcases alive with ⟨stopped,_⟩ | ⟨_,rfl⟩
  · rw [runs] at stopped; cases stopped
  · have sent : Resident (s.setActor at_ (actor.send .turn)) := by
      refine set_resident resident found rfl ⟨fun _ => ⟨runs,unanswered,?_,?_⟩,fun _ => ⟨registered,unbroken⟩,fits.child,
        fits.childless,fits.asked,fits.failed⟩
      · simpa [send] using noStop
      · simpa [send] using noHalt
    exact finished_resident sent call

theorem tearDown_resident (resident : Resident s) (found : s.actors[at_]? = some before) (turn : before.hasTurn = true)
    (key : after.key = before.key) (answered : after.answered = before.answered) (stopped : after.stopped = before.stopped)
    (mail : ∀ message ∈ after.mailbox,message ∈ before.mailbox) (quiet : after.mailbox.contains .turn = false)
    (unheld : s.held at_ = false) : Resident (tearDown s at_ after) := by
  have fits := resident.fits at_ before found
  obtain ⟨registered,_⟩ := fits.busy turn
  obtain ⟨runs,unanswered,noStop,noHalt⟩ := fits.registered registered
  have torn : Resident (s.setActor at_ {after with child := none, current := false, broken := true}) := by
    refine set_resident resident found key ⟨fun _ => ⟨stopped.trans runs,answered.trans unanswered,?_,?_⟩,?_,?_,fun _ => rfl,?_,?_⟩
    · exact fun member => noStop (mail _ member)
    · exact fun member => noHalt (mail _ member)
    · intro busy
      unfold hasTurn at busy
      rw [quiet] at busy
      cases busy
    · intro has; cases has
    · rintro ⟨item,member,asks⟩
      rw [(held_iff.mp unheld item member).1] at asks
      cases asks
    · rintro ⟨item,member,fails⟩
      rw [(held_iff.mp unheld item member).2] at fails
      cases fails
  have registered' : (s.setActor at_ {after with child := none, current := false, broken := true}).table.actors[after.key]? = some at_ := by
    rw [key]
    exact registered
  have failed := append_resident torn (@enters_failed _ at_ {after with child := none, current := false, broken := true} after.key
    (by rw [setActor_get _ found,if_pos rfl]) rfl registered' rfl unheld)
  exact ⟨fun other actor present => by
      obtain ⟨registered,busy,child,childless,asked,failed⟩ := failed.fits other actor present
      exact ⟨registered,busy,child,childless,asked,failed⟩,
    failed.table,failed.known,failed.single,failed.gone,failed.vacated,failed.begun,failed.removals⟩

theorem pairwise_erased {calls : List Call} (single : calls.Pairwise fun one two =>
      ∀ at_,¬(one.fails at_ = true ∧ two.fails at_ = true)) (found : calls[call]? = some item) :
    ∀ other ∈ calls.eraseIdx call,∀ at_,¬(item.fails at_ = true ∧ other.fails at_ = true) := by
  induction calls generalizing call with
  | nil => cases found
  | cons first rest ih =>
    obtain ⟨ahead,later⟩ := pairwise_cons.mp single
    intro other member at_ both
    cases call with
    | zero => cases found; exact ahead other member at_ both
    | succ call =>
      rcases mem_cons.mp member with rfl | among
      · exact ahead item (mem_of_getElem? found) at_ both.symm
      · exact ih later found other among at_ both

theorem log_resident (resident : Resident s) (fresh : ∀ turn ∈ begun,turn.fresh = true ∧ turn.registered = true) :
    Resident {s with begun := s.begun ++ begun} := by
  refine ⟨fun other actor present => ?_,resident.table,resident.known,resident.single,resident.gone,resident.vacated,?_,
    resident.removals⟩
  · obtain ⟨registered,busy,child,childless,asked,failed⟩ := resident.fits other actor present
    exact ⟨registered,busy,child,childless,asked,failed⟩
  · intro turn member
    rcases mem_append.mp member with old | new
    · exact resident.begun turn old
    · exact fresh turn new

theorem begin_resident (resident : Resident s) (ok : fine max s (.begin at_ spawned) = true)
    (ran : begin s at_ spawned = some t) : Resident t := by
  obtain ⟨actor,rest,found,idle,mail,broke⟩ := begin_cases ran
  have turn : actor.hasTurn = true := by
    unfold hasTurn
    rw [mail,idle]
    rfl
  have fits := resident.fits at_ actor found
  obtain ⟨registered,unbroken⟩ := fits.busy turn
  obtain ⟨runs,unanswered,noStop,noHalt⟩ := fits.registered registered
  rw [mail] at noStop noHalt
  have logged : Resident {s with begun := s.begun ++ [s.begins at_ actor]} := by
    refine log_resident resident fun entry member => ?_
    obtain rfl := mem_singleton.mp member
    refine ⟨?_,?_⟩
    · change (!actor.broken) = true
      rw [unbroken]
      rfl
    · change (s.table.actors[actor.key]? == some at_) = true
      rw [registered]
      exact beq_self_eq_true _
  rcases broke with ⟨childless,unspawned,rfl⟩ | ⟨running,rfl⟩
  · simp only [fine,unspawned,found,childless,mail,Bool.false_or,Option.all_some,Option.isSome_none,Bool.not_or,
      Bool.and_eq_true,Bool.not_eq_true',tail_cons] at ok
    refine tearDown_resident logged found turn rfl rfl rfl ?_ ok.2 ok.1
    intro message member
    rw [mail]
    exact mem_cons_of_mem _ member
  · refine set_resident logged found rfl ⟨fun _ => ⟨runs,unanswered,?_,?_⟩,fun _ => ⟨registered,unbroken⟩,fun _ => .inl registered,
      ?_,fits.asked,fits.failed⟩
    · exact fun member => noStop (mem_cons_of_mem _ member)
    · exact fun member => noHalt (mem_cons_of_mem _ member)
    · rintro (answered | stopped | broken)
      · exact absurd answered (by simp [unanswered])
      · exact absurd stopped (by simp [runs])
      · exact absurd broken (by simp [unbroken])

theorem finish_resident (resident : Resident s) (ok : fine max s (.finish at_ answer) = true)
    (ran : finish s at_ answer = some t) : Resident t := by
  obtain ⟨actor,found,current,⟨_,rfl⟩ | ⟨broke,rfl⟩⟩ := finish_cases ran
  · have turn : actor.hasTurn = true := by unfold hasTurn; rw [current]; rfl
    have fits := resident.fits at_ actor found
    refine set_resident resident found rfl ⟨fits.registered,fun _ => fits.busy turn,fits.child,fits.childless,fits.asked,fits.failed⟩
  · have turn : actor.hasTurn = true := by unfold hasTurn; rw [current]; rfl
    simp only [fine,broke,found,Bool.false_or,Option.all_some,Bool.not_or,Bool.and_eq_true,Bool.not_eq_true'] at ok
    exact tearDown_resident resident found turn rfl rfl rfl (fun _ member => member) ok.2 ok.1

-- An actor with a message that only shutdown or eviction sends is out of the table.
theorem stopSession_resident (resident : Resident s) (ran : stopSession s at_ = some t) : Resident t := by
  obtain ⟨actor,rest,found,idle,mail,rfl⟩ := stopSession_cases ran
  have fits := resident.fits at_ actor found
  have unregistered : s.table.actors[actor.key]? ≠ some at_ := by
    intro now
    exact (fits.registered now).2.2.1 (by rw [mail]; exact mem_cons_self)
  refine set_resident resident found rfl ⟨fun now => absurd now unregistered,fun turn => ?_,?_,fun _ => rfl,fits.asked,fits.failed⟩
  · refine fits.busy ?_
    unfold hasTurn at *
    rw [mail]
    simp only [idle,Bool.false_or,contains_iff_mem] at turn ⊢
    exact mem_cons_of_mem _ turn
  · intro has; cases has

theorem stopActor_resident (resident : Resident s) (found : s.actors[at_]? = some before)
    (unregistered : s.table.actors[before.key]? ≠ some at_) : Resident (stopActor s at_ before) := by
  have fits := resident.fits at_ before found
  have turnless : before.hasTurn = false := by
    cases turn : before.hasTurn with
    | false => rfl
    | true => exact absurd (fits.busy turn).1 unregistered
  have nobody : (before.mailbox.filter (· == .turn)).map (fun _ => Call.failed before.key at_) = [] := by
    rw [map_eq_nil_iff,filter_eq_nil_iff]
    intro message member
    unfold hasTurn at turnless
    rw [Bool.or_eq_false_iff] at turnless
    intro same
    have turn : message = .turn := by simpa using same
    subst turn
    rw [contains_iff_mem.mpr member] at turnless
    cases turnless.2
  unfold stopActor
  rw [nobody,append_nil]
  refine set_resident resident found rfl ⟨fun now => absurd now unregistered,?_,?_,fun _ => rfl,fits.asked,fits.failed⟩
  · intro turn
    unfold hasTurn at turn turnless
    rw [Bool.or_eq_false_iff] at turnless
    change (before.current || false) = true at turn
    rw [turnless.1] at turn
    cases turn
  · intro has; cases has

theorem haltActor_resident (resident : Resident s) (ran : haltActor s at_ = some t) : Resident t := by
  obtain ⟨actor,rest,found,_,mail,rfl⟩ := haltActor_cases ran
  refine stopActor_resident resident found fun now => ?_
  exact ((resident.fits at_ actor found).registered now).2.2.2 (by rw [mail]; exact mem_cons_self)

theorem forgotten_resident (resident : Resident s) (ran : forgotten s at_ = some t) : Resident t := by
  obtain ⟨actor,found,_,unregistered,rfl⟩ := forgotten_cases ran
  exact stopActor_resident resident found unregistered

theorem childDies_resident (resident : Resident s) (ran : childDies s at_ = some t) : Resident t := by
  obtain ⟨actor,running,found,has,rfl⟩ := childDies_cases ran
  have fits := resident.fits at_ actor found
  refine set_resident resident found rfl ⟨fits.registered,fits.busy,fun _ => fits.child (by rw [has]; rfl),?_,fits.asked,fits.failed⟩
  intro finished
  rw [fits.childless finished] at has
  cases has

-- The call whose turn broke the actor is the only one that names it, so it takes
-- its own actor out of the table and leaves nobody behind.
theorem removeFailed_resident (resident : Resident s) (ran : removeFailed s call = some t) : Resident t := by
  obtain ⟨free,key,at_,failing,rfl⟩ := removeFailed_cases ran
  have member := mem_of_getElem? failing
  obtain ⟨actor,found,named⟩ : ∃ actor,s.actors[at_]? = some actor ∧ actor.key = key := resident.known _ member
  have fits := resident.fits at_ actor found
  obtain ⟨registered,broken⟩ := fits.failed ⟨_,member,beq_self_eq_true _⟩
  rw [named] at registered
  have unheld : ∀ item ∈ s.calls.eraseIdx call,item.asks at_ = false ∧ item.fails at_ = false := by
    intro item rest
    refine ⟨?_,?_⟩
    · cases asks : item.asks at_ with
      | false => rfl
      | true =>
        have unbroken := (fits.asked ⟨item,mem_of_mem_eraseIdx rest,asks⟩).2
        rw [broken] at unbroken
        cases unbroken
    · cases fails : item.fails at_ with
      | false => rfl
      | true => exact absurd ⟨beq_self_eq_true _,fails⟩ (pairwise_erased resident.single failing item rest at_)
  have taken : Resident {s.finishCall call [] with table := s.table.remove key} := by
    refine @unregister_resident _ _ s.spawning (finished_resident resident call) ?_ ?_ ?_ ?_
    · intro other
      change s.spawning.any _ = false
      rw [free]
      rfl
    · intro name other now
      change (s.table.actors.erase key)[name]? = some other at now
      rw [get_erase] at now
      split at now
      · cases now
      · exact now
    · intro other loser present was lost
      change (s.table.actors.erase key)[loser.key]? ≠ some other at lost
      change s.table.actors[loser.key]? = some other at was
      rw [get_erase] at lost
      split at lost
      · rename_i same
        rw [←same,registered] at was
        cases was
        change s.actors[at_]? = some loser at present
        rw [found] at present
        cases present
        refine ⟨?_,?_,.inl (fits.childless (.inr (.inr broken)))⟩
        · cases turn : actor.hasTurn with
          | false => rfl
          | true =>
            have unbroken := (fits.busy turn).2
            rw [broken] at unbroken; cases unbroken
        · intro item rest
          refine unheld item ?_
          change item ∈ s.calls.eraseIdx call ++ [] at rest
          rw [append_nil] at rest; exact rest
      · exact absurd was lost
    · intro held other now
      rw [free] at now
      cases now
  refine ⟨fun other owner present => ?_,taken.table,taken.known,taken.single,taken.gone,taken.vacated,taken.begun,?_⟩
  · obtain ⟨registered,busy,child,childless,asked,failed⟩ := taken.fits other owner present
    exact ⟨registered,busy,child,childless,asked,failed⟩
  · intro removal logged
    rcases mem_append.mp logged with old | new
    · exact resident.removals removal old
    · obtain rfl := mem_singleton.mp new
      exact registered

theorem drain_resident (resident : Resident s) (ok : fine max s (.drain order) = true)
    (ran : drain s order = some t) : Resident t := by
  obtain ⟨free,all,rfl⟩ := drain_cases ran
  have quiet (key : Str) (actor : Nat) (present : s.table.actors[key]? = some actor) :
      s.idle actor = true ∧ ∀ owner,s.actors[actor]? = some owner → owner.child = none := by
    simp only [fine,all_eq_true,Bool.and_eq_true] at ok
    obtain ⟨idle,childless⟩ := ok (key,actor) (mem_rows.mpr present)
    refine ⟨idle,fun owner found => ?_⟩
    rw [found] at childless
    exact Option.isNone_iff_eq_none.mp childless
  have emptied : Resident {s with table := ⟨∅,[]⟩} := by
    refine @unregister_resident _ _ s.spawning resident ?_ ?_ ?_ ?_
    · intro other
      rw [free]
      rfl
    · intro key other now
      exact absurd now (by simp)
    · intro other owner present was _
      obtain ⟨idle,childless⟩ := quiet owner.key other was
      obtain ⟨unheld,turnless⟩ := idle_iff.mp idle
      exact ⟨turnless owner present,held_iff.mp unheld,.inl (childless owner present)⟩
    · intro held other now
      rw [free] at now
      cases now
  refine appends_resident emptied ?_ (enters_nextStopped ?_)
  · cases order <;> simp [nextStopped]
  · intro actor member
    refine ⟨?_,fun key now => absurd now (by simp)⟩
    obtain ⟨⟨key,value⟩,row,rfl⟩ := mem_map.mp (all.mem_iff.mp member)
    obtain ⟨owner,owned,_⟩ := resident.table key value (mem_rows.mp row)
    exact (List.getElem?_eq_some_iff.mp owned).1

theorem shutdown_resident (resident : Resident s) (ran : shutdown capacity s call step = some t) : Resident t := by
  obtain ⟨stopping,at_,rest,next,u,calls,found,stepped,rfl,later⟩ := shutdown_cases ran
  have member := mem_of_getElem? found
  have gone (other : Nat) (named : other = at_ ∨ other ∈ rest) :
      other < s.actors.length ∧ ∀ key : Str,s.table.actors[key]? ≠ some other := by
    refine resident.gone other (.inr ⟨_,member,?_⟩)
    simp only [Call.stops,Bool.or_eq_true,beq_iff_eq,contains_iff_mem]
    exact named.imp_left Eq.symm
  obtain ⟨moved,table,_,_,length⟩ := step_resident resident (gone at_ (.inl rfl)).2 stepped
  have ended := finished_resident moved call
  have split : u.finishCall call calls = {u.finishCall call [] with calls := (u.finishCall call []).calls ++ calls} := by
    unfold State.finishCall
    simp
  rw [split]
  have left (other : Nat) (named : other = at_ ∨ other ∈ rest) :
      other < (u.finishCall call []).actors.length ∧ ∀ key : Str,(u.finishCall call []).table.actors[key]? ≠ some other := by
    change other < u.actors.length ∧ ∀ key : Str,u.table.actors[key]? ≠ some other
    rw [length,table]
    exact gone other named
  rcases later with rfl | ⟨stopped,rfl⟩
  · refine appends_resident ended ?_ (enters_nextStopped fun other among => left other (.inr among))
    cases rest <;> simp [nextStopped]
  · refine append_resident ended ⟨trivial,?_,?_,?_,?_⟩
    · intro other actor names; cases names
    · intro other actor names; cases names
    · intro other names; cases names
    · intro other names
      refine left other ?_
      simp only [Call.stops,Bool.or_eq_true,beq_iff_eq,contains_iff_mem] at names
      exact names.imp_left Eq.symm

theorem act_resident (bounded : Bounded max s) (resident : Resident s) (ok : fine max s action = true)
    (ran : act max capacity s action = some t) : Resident t := by
  cases action with
  | complete key => cases ran; exact append_resident resident (enters_looking key)
  | look call artifact => exact look_resident resident ok ran
  | grow => exact grow_resident bounded.listed resident bounded.absent ok ran
  | evict step => exact evict_resident resident ok ran
  | leave => exact leave_resident resident ran
  | ask call => exact ask_resident resident ran
  | begin at_ spawned => exact begin_resident resident ok ran
  | finish at_ answer => exact finish_resident resident ok ran
  | stopSession at_ => exact stopSession_resident resident ran
  | halt at_ => exact haltActor_resident resident ran
  | remove call => exact removeFailed_resident resident ran
  | drain order => exact drain_resident resident ok ran
  | shutdown call step => exact shutdown_resident resident ran
  | childDies at_ => exact childDies_resident resident ran
  | forgotten at_ => exact forgotten_resident resident ran

end Steps

end HologramLive.Sessions

namespace HologramLive.Sessions
open Tables Runs

variable (s : State)

-- Every live child belongs to the actor registered under its key, or to the one
-- that the lock's holder is about to stop.
def State.Owned : Prop :=
  ∀ (at_ : Nat) actor,s.actors[at_]? = some actor → actor.child = some true →
    s.table.actors[actor.key]? = some at_ ∨ ∃ spawning,s.spawning = some spawning ∧ spawning.evicts at_ = true

def State.OneChild : Prop :=
  ∀ (one two : Nat) (first second : Actor),s.actors[one]? = some first → s.actors[two]? = some second →
    first.key = second.key → first.child = some true → second.child = some true → one = two

-- After a break of a session of its key, a turn begins in an actor that has not
-- broken and is registered.
def State.StartsOver : Prop :=
  ∀ turn ∈ s.begun,turn.afterBreak = true → turn.fresh = true ∧ turn.registered = true

-- The outcome of an actor that broke or was stopped removes nobody else.
def State.RemovesOwn : Prop :=
  ∀ removal ∈ s.removals,∀ actor ∈ removal.removed,actor = removal.failed

theorem evicts_same {spawning : Spawning} (first : spawning.evicts one = true) (second : spawning.evicts two = true) :
    one = two := by
  have here := evicts_names first
  have there := evicts_names second
  obtain ⟨key,stage⟩ := spawning
  cases stage with
  | growing => cases first
  | leaving actor => cases first
  | evicting stopping actor =>
    have same : actor = one := by simpa [Stage.names] using here
    have same' : actor = two := by simpa [Stage.names] using there
    exact same.symm.trans same'

theorem empty_resident : Resident .empty := by
  refine ⟨?_,?_,?_,.nil,?_,?_,?_,?_⟩
  · intro at_ actor found; cases found
  · intro key at_ held
    exact absurd held (by simp [State.empty])
  · intro call member; cases member
  · rintro at_ (held | ⟨call,member,_⟩)
    · cases held
    · cases member
  · intro spawning at_ actor held; cases held
  · intro turn member; cases member
  · intro removal member; cases member

structure State.Residing (s : State) : Prop where
  owned : s.Owned
  oneChild : s.OneChild
  startsOver : s.StartsOver
  removesOwn : s.RemovesOwn

theorem Resident.residing {s : State} (resident : Resident s) : s.Residing := by
  have owned : s.Owned := by
    intro at_ actor found alive
    exact (resident.fits at_ actor found).child (by rw [alive]; rfl)
  refine ⟨owned,?_,?_,?_⟩
  · intro one two first second here there same alive alive'
    rcases owned one first here alive with registered | ⟨spawning,held,evicts⟩
    · rcases owned two second there alive' with registered' | ⟨spawning,held,evicts⟩
      · rw [same,registered'] at registered
        exact (Option.some.inj registered).symm
      · have vacant := resident.vacated spawning two second held (evicts_names evicts) there
        rw [same,vacant] at registered
        cases registered
    · have vacant := resident.vacated spawning one first held (evicts_names evicts) here
      rcases owned two second there alive' with registered' | ⟨spawning',held',evicts'⟩
      · rw [←same,vacant] at registered'
        cases registered'
      · rw [held] at held'
        cases held'
        exact evicts_same evicts evicts'
  · intro turn member _
    exact resident.begun turn member
  · intro removal member actor removed
    have own := resident.removals removal member
    rw [own] at removed
    exact (Option.some.inj removed).symm

def Begins : Prop := s = .empty

-- The table is bounded and its queue lists its keys in every run; the sessions
-- reside in it in the runs whose steps meet the condition.
theorem sessions_reside (max capacity : Nat) : (∀ s,Reached Begins (Taken (act max capacity) fun _ _ => True) s →
      s.table.actors.size ≤ max ∧ s.table.recency.Perm s.table.actors.keys) ∧
    ∀ s,Reached Begins (Taken (act max capacity) fun s action => fine max s action = true) s → s.Residing := by
  refine ⟨fun s reached => ?_,fun s reached => ?_⟩
  · have bounded : Bounded max s := by
      refine reached.invariant (Bounded max) ?_ ?_
      · rintro s rfl; exact empty_bounded max
      · rintro s t _ held ⟨action,_,ran⟩; exact act_bounded held ran
    exact ⟨bounded.size,bounded.listed.perm⟩
  · have both : Bounded max s ∧ Resident s := by
      refine reached.invariant (fun s => Bounded max s ∧ Resident s) ?_ ?_
      · rintro s rfl; exact ⟨empty_bounded max,empty_resident⟩
      · rintro s t _ ⟨bounded,resident⟩ ⟨action,ok,ran⟩
        exact ⟨act_bounded bounded ran,act_resident bounded resident ok ran⟩
    exact both.2.residing

def firstKey : Str := "c1".toList
def secondKey : Str := "c2".toList
def receipt : Answer := .line (some ⟨some "session:hi".toList,none,none,none⟩)

def opens (key : Str) (at_ : Nat) : List Action := [.complete key,.look 0 true,.grow,.ask 0,.begin at_ true]

-- With room for one session, the second key evicts the first one's.
theorem evicted_session_resides : ∃ s,
    Reached Begins (Taken (act 1 8) fun s action => fine 1 s action = true) s ∧ s.actors.map (·.child) = [none,some true] ∧
      s.Residing ∧ s.table.actors.size ≤ 1 := by
  let actions := opens firstKey 0 ++ [.finish 0 receipt,.complete secondKey,.look 0 true,.grow,.evict .send,.stopSession 0,
    .evict (.proceed false),.evict .send,.halt 0,.leave,.grow,.ask 0,.begin 1 true]
  have ends : (play (act 1 8) (fun s action => fine 1 s action = true) .empty actions).any fun s =>
      s.actors.map (·.child) = [none,some true] := by decide
  have begins : Begins .empty := rfl
  obtain ⟨s,reached,left⟩ := play_shows begins ends
  have all : Reached Begins (Taken (act 1 8) fun _ _ => True) s := by
    refine reached.mono ?_
    rintro s t ⟨action,_,ran⟩
    exact ⟨action,trivial,ran⟩
  exact ⟨s,reached,by simpa using left,(sessions_reside 1 8).2 s reached,((sessions_reside 1 8).1 s all).1⟩

-- Two turns on one actor, and the first one breaks it: the second still runs on
-- the broken actor and starts its child again, the first one's outcome takes that
-- actor out of the table, and a third call starts a second child for the key.
theorem queued_turn_outlives_break : (¬∀ s,Reached Begins (Taken (act 4 8) fun _ _ => True) s → s.OneChild) ∧
      (¬∀ s,Reached Begins (Taken (act 4 8) fun _ _ => True) s → s.StartsOver) ∧
      ¬∀ s,Reached Begins (Taken (act 4 8) fun _ _ => True) s → s.RemovesOwn := by
  have begins : Begins .empty := rfl
  let respawned := opens firstKey 0 ++ [.complete firstKey,.look 0 true,.ask 0,.finish 0 .exited,.begin 0 true]
  let renewed := respawned ++ [.remove 0] ++ opens firstKey 1
  refine ⟨fun always => ?_,fun always => ?_,fun always => ?_⟩
  · have ends : (play (act 4 8) (fun _ _ => True) .empty renewed).any fun s =>
        s.actors.map (fun actor => (actor.key,actor.child)) = [(firstKey,some true),(firstKey,some true)] := by decide
    obtain ⟨s,reached,left⟩ := play_shows begins ends
    have both : s.actors.map (fun actor => (actor.key,actor.child)) = [(firstKey,some true),(firstKey,some true)] := by
      simpa using left
    have living (at_ : Nat) (bound : at_ < 2) : ∃ actor,s.actors[at_]? = some actor ∧ (actor.key,actor.child) = (firstKey,some true) := by
      refine Option.map_eq_some_iff.mp ?_
      rw [←List.getElem?_map,both]
      interval_cases at_ <;> rfl
    obtain ⟨first,here,spelled⟩ := living 0 (by decide)
    obtain ⟨second,there,spelled'⟩ := living 1 (by decide)
    obtain ⟨key,child⟩ := Prod.mk.inj spelled
    obtain ⟨key',child'⟩ := Prod.mk.inj spelled'
    exact Nat.zero_ne_one (always s reached 0 1 first second here there (key.trans key'.symm) child child')
  · have ends : (play (act 4 8) (fun _ _ => True) .empty respawned).any fun s =>
        s.begun.any fun turn => turn.afterBreak && !turn.fresh := by decide
    obtain ⟨s,reached,left⟩ := play_shows begins ends
    obtain ⟨turn,member,stale⟩ := List.any_eq_true.mp left
    obtain ⟨after,used⟩ := Bool.and_eq_true_iff.mp stale
    have fresh := (always s reached turn member after).1
    rw [fresh] at used
    cases used
  · have ends : (play (act 4 8) (fun _ _ => True) .empty (renewed ++ [.finish 0 .timedOut,.remove 0])).any fun s =>
        s.removals.any fun removal => removal.removed == some 1 && removal.failed == 0 := by decide
    obtain ⟨s,reached,left⟩ := play_shows begins ends
    obtain ⟨removal,member,other⟩ := List.any_eq_true.mp left
    obtain ⟨removed,failed⟩ := Bool.and_eq_true_iff.mp other
    have own := always s reached removal member 1 (by simpa using removed)
    rw [show removal.failed = 0 by simpa using failed] at own
    exact Nat.one_ne_zero own

end HologramLive.Sessions
