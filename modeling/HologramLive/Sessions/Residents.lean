import HologramLive.Sessions.Steps
namespace HologramLive.Sessions
open Tables Runs List

-- The queue lists each key of the map once.
structure SessionTable.Listed (table : SessionTable) : Prop where
  distinct : table.recency.Nodup
  same : ∀ key : Str,key ∈ table.recency ↔ (table.actors[key]?).isSome = true

structure Bounded (max : Nat) (s : State) : Prop where
  listed : s.table.Listed
  size : s.table.actors.size ≤ max
  absent : ∀ spawning,s.spawning = some spawning → s.table.actors[spawning.key]? = none

section Tables
variable {table : SessionTable} {key : Str} {actor : Nat}

theorem SessionTable.Listed.perm (listed : table.Listed) : table.recency.Perm table.actors.keys := by
  refine (perm_ext_iff_of_nodup listed.distinct Std.ExtTreeMap.nodup_keys).mpr fun key => ?_
  rw [Std.ExtTreeMap.mem_keys,listed.same,Std.ExtTreeMap.isSome_getElem?_iff_mem]

theorem listed_touch (listed : table.Listed) (present : table.actors[key]? = some actor) : (table.touch key).Listed := by
  refine ⟨?_,fun other => ?_⟩
  · refine nodup_append.mpr ⟨listed.distinct.filter _,nodup_singleton _,?_⟩
    intro one among two only same
    obtain rfl := List.mem_singleton.mp only
    simp [same] at among
  · change other ∈ table.recency.filter (· != key) ++ [key] ↔ (table.actors[other]?).isSome = true
    by_cases same : other = key
    · subst same
      simp [present]
    · simp [same,listed.same other]

theorem listed_remove (listed : table.Listed) (key : Str) : (table.remove key).Listed := by
  refine ⟨listed.distinct.filter _,fun other => ?_⟩
  change other ∈ table.recency.filter (· != key) ↔ ((table.actors.erase key)[other]?).isSome = true
  rw [get_erase]
  by_cases same : key = other
  · subst same
    simp
  · have different : other ≠ key := fun equal => same equal.symm
    simp [same,different,listed.same other]

theorem listed_insert (listed : table.Listed) (absent : table.actors[key]? = none) (actor : Nat) :
    (table.insert key actor).Listed := by
  have missing : key ∉ table.recency := by
    intro among
    have found := (listed.same key).mp among
    rw [absent] at found
    cases found
  refine ⟨?_,fun other => ?_⟩
  · refine nodup_append.mpr ⟨listed.distinct,nodup_singleton _,?_⟩
    intro one among two only same
    obtain rfl := List.mem_singleton.mp only
    exact missing (same ▸ among)
  · change other ∈ table.recency ++ [key] ↔ ((table.actors.insert key actor)[other]?).isSome = true
    rw [get_insert]
    by_cases same : key = other
    · subst same
      simp
    · have different : other ≠ key := fun equal => same equal.symm
      simp [same,different,listed.same other]

theorem popOldest_cases (listed : table.Listed)
    (ran : SessionTable.popOldest table.actors table.recency = some (actor,popped)) :
    ∃ oldest,table.actors[oldest]? = some actor ∧ popped.actors = table.actors.erase oldest ∧ popped.Listed := by
  obtain ⟨actors,recency⟩ := table
  cases recency with
  | nil => cases ran
  | cons oldest rest =>
    obtain ⟨unlisted,distinct⟩ := nodup_cons.mp listed.distinct
    have here : (actors[oldest]?).isSome = true := (listed.same oldest).mp mem_cons_self
    obtain ⟨first,found⟩ := Option.isSome_iff_exists.mp here
    simp only [SessionTable.popOldest,found,Option.some.injEq,Prod.mk.injEq] at ran
    obtain ⟨rfl,rfl⟩ := ran
    refine ⟨oldest,found,rfl,distinct,fun other => ?_⟩
    change other ∈ rest ↔ ((actors.erase oldest)[other]?).isSome = true
    rw [get_erase]
    by_cases same : oldest = other
    · subst same
      simp [unlisted]
    · have among := listed.same other
      have different : other ≠ oldest := fun equal => same equal.symm
      simp only [mem_cons,different,false_or] at among
      simp [same,among]

end Tables

section Bounds
variable {max capacity : Nat} {s t : State}

theorem same_bounded (bounded : Bounded max s) (table : t.table = s.table)
    (spawning : ∀ held,t.spawning = some held → ∃ before,s.spawning = some before ∧ before.key = held.key) : Bounded max t := by
  refine ⟨table ▸ bounded.listed,table ▸ bounded.size,fun held now => ?_⟩
  obtain ⟨before,was,same⟩ := spawning held now
  rw [table,←same]
  exact bounded.absent before was

theorem step_table {next : Option Stopping} {stopping : Stopping}
    (ran : stopping.step capacity step s at_ = some (next,t)) : t.table = s.table ∧ t.spawning = s.spawning := by
  obtain ⟨actor,_,⟨message,_,rfl⟩ | rfl,_⟩ := step_cases ran <;> exact ⟨rfl,rfl⟩

theorem look_bounded (bounded : Bounded max s) (ran : look s call artifact = some t) : Bounded max t := by
  obtain ⟨free,key,_,⟨actor,present,_,rfl⟩ | ⟨table,spawning,rfl,held,kept | ⟨actor,present,_,removed⟩⟩⟩ := look_cases ran
  · refine ⟨listed_touch bounded.listed present,bounded.size,?_⟩
    intro held now
    change s.spawning = some held at now
    rw [free] at now
    cases now
  · obtain ⟨absent,rfl⟩ := kept
    refine ⟨bounded.listed,bounded.size,?_⟩
    intro later now
    change spawning = some later at now
    rcases held with none_ | some_
    · rw [none_] at now; cases now
    · rw [some_] at now; cases now; exact absent
  · subst removed
    refine ⟨listed_remove bounded.listed key,?_,?_⟩
    · exact Nat.le_trans Std.ExtTreeMap.size_erase_le bounded.size
    · intro later now
      change spawning = some later at now
      rcases held with none_ | some_
      · rw [none_] at now; cases now
      · rw [some_] at now
        cases now
        change (s.table.actors.erase key)[key]? = none
        rw [get_erase,if_pos rfl]

theorem grow_bounded (bounded : Bounded max s) (ran : grow max s = some t) : Bounded max t := by
  obtain ⟨key,held,⟨_,actor,table,popped,rfl⟩ | ⟨room,rfl⟩⟩ := grow_cases ran
  · obtain ⟨oldest,_,erased,listed⟩ := popOldest_cases bounded.listed popped
    refine ⟨listed,?_,?_⟩
    · change table.actors.size ≤ max
      rw [erased]
      exact Nat.le_trans Std.ExtTreeMap.size_erase_le bounded.size
    · intro later now
      cases now
      change table.actors[key]? = none
      rw [erased,get_erase]
      split
      · rfl
      · exact bounded.absent _ held
  · refine ⟨listed_insert bounded.listed (bounded.absent _ held) _,?_,?_⟩
    · exact Nat.le_trans Std.ExtTreeMap.size_insert_le room
    · intro later now; cases now

theorem act_bounded {action : Action} (bounded : Bounded max s) (ran : act max capacity s action = some t) : Bounded max t := by
  cases action with
  | complete key => cases ran; exact same_bounded bounded rfl fun held now => ⟨held,now,rfl⟩
  | look call artifact => exact look_bounded bounded ran
  | grow => exact grow_bounded bounded ran
  | evict step =>
    obtain ⟨key,stopping,at_,next,u,stage,held,stepped,rfl,_⟩ := evict_cases ran
    refine same_bounded bounded (step_table stepped).1 ?_
    intro later now
    cases now
    exact ⟨_,held,rfl⟩
  | leave =>
    obtain ⟨key,at_,held,rfl⟩ := leave_cases ran
    refine same_bounded bounded rfl ?_
    intro later now
    cases now
    exact ⟨_,held,rfl⟩
  | ask call =>
    obtain ⟨key,at_,actor,_,_,⟨_,rfl⟩ | ⟨_,rfl⟩⟩ := ask_cases ran <;>
      exact same_bounded bounded rfl fun held now => ⟨held,now,rfl⟩
  | begin at_ spawned =>
    obtain ⟨actor,rest,_,_,_,⟨_,_,rfl⟩ | ⟨running,rfl⟩⟩ := begin_cases ran <;>
      exact same_bounded bounded rfl fun held now => ⟨held,now,rfl⟩
  | finish at_ answer =>
    obtain ⟨actor,_,_,⟨_,rfl⟩ | ⟨_,rfl⟩⟩ := finish_cases ran <;>
      exact same_bounded bounded rfl fun held now => ⟨held,now,rfl⟩
  | stopSession at_ =>
    obtain ⟨actor,rest,_,_,_,rfl⟩ := stopSession_cases ran
    exact same_bounded bounded rfl fun held now => ⟨held,now,rfl⟩
  | halt at_ =>
    obtain ⟨actor,rest,_,_,_,rfl⟩ := haltActor_cases ran
    exact same_bounded bounded rfl fun held now => ⟨held,now,rfl⟩
  | remove call =>
    obtain ⟨free,key,at_,_,rfl⟩ := removeFailed_cases ran
    refine ⟨listed_remove bounded.listed key,?_,?_⟩
    · exact Nat.le_trans Std.ExtTreeMap.size_erase_le bounded.size
    · intro held now
      change s.spawning = some held at now
      rw [free] at now
      cases now
  | drain order =>
    obtain ⟨free,_,rfl⟩ := drain_cases ran
    refine ⟨⟨nodup_nil,fun key => ?_⟩,?_,?_⟩
    · simp
    · exact Nat.zero_le max
    · intro held now
      change s.spawning = some held at now
      rw [free] at now
      cases now
  | shutdown call step =>
    obtain ⟨stopping,at_,rest,next,u,calls,_,stepped,rfl,_⟩ := shutdown_cases ran
    obtain ⟨table,spawning⟩ := step_table stepped
    refine same_bounded bounded table fun held now => ?_
    change u.spawning = some held at now
    rw [spawning] at now
    exact ⟨held,now,rfl⟩
  | childDies at_ =>
    obtain ⟨actor,running,_,_,rfl⟩ := childDies_cases ran
    exact same_bounded bounded rfl fun held now => ⟨held,now,rfl⟩
  | forgotten at_ =>
    obtain ⟨actor,_,_,_,rfl⟩ := forgotten_cases ran
    exact same_bounded bounded rfl fun held now => ⟨held,now,rfl⟩

theorem empty_bounded (max : Nat) : Bounded max .empty := by
  refine ⟨⟨nodup_nil,fun key => ?_⟩,Nat.zero_le max,?_⟩
  · simp [State.empty]
  · intro held now; cases now

end Bounds

end HologramLive.Sessions

namespace HologramLive.Sessions
open Tables Runs

def Call.asks (at_ : Nat) : Call → Bool
  | .asking _ actor => actor == at_
  | _ => false

def Call.fails (at_ : Nat) : Call → Bool
  | .failed _ actor => actor == at_
  | _ => false

def Call.stops (at_ : Nat) : Call → Bool
  | .shutdown _ actor rest => actor == at_ || rest.contains at_
  | _ => false

def Spawning.evicts (spawning : Spawning) (at_ : Nat) : Bool :=
  match spawning.stage with
  | .evicting .halt _ => false
  | .evicting _ actor => actor == at_
  | _ => false

structure Fits (s : State) (at_ : Nat) (actor : Actor) : Prop where
  registered : s.table.actors[actor.key]? = some at_ →
    actor.stopped = false ∧ actor.answered = false ∧ Message.stop ∉ actor.mailbox ∧ Message.halt ∉ actor.mailbox
  busy : actor.hasTurn = true → s.table.actors[actor.key]? = some at_ ∧ actor.broken = false
  child : actor.child.isSome = true → s.table.actors[actor.key]? = some at_ ∨
    ∃ spawning,s.spawning = some spawning ∧ spawning.evicts at_ = true
  childless : actor.answered = true ∨ actor.stopped = true ∨ actor.broken = true → actor.child = none
  asked : (∃ call ∈ s.calls,call.asks at_ = true) → s.table.actors[actor.key]? = some at_ ∧ actor.broken = false
  failed : (∃ call ∈ s.calls,call.fails at_ = true) → s.table.actors[actor.key]? = some at_ ∧ actor.broken = true

def Call.Known (actors : List Actor) : Call → Prop
  | .asking key at_ | .failed key at_ => ∃ actor,actors[at_]? = some actor ∧ actor.key = key
  | _ => True

structure Resident (s : State) : Prop where
  fits : ∀ (at_ : Nat) actor,s.actors[at_]? = some actor → Fits s at_ actor
  table : ∀ (key : Str) at_,s.table.actors[key]? = some at_ → ∃ actor,s.actors[at_]? = some actor ∧ actor.key = key
  known : ∀ call ∈ s.calls,call.Known s.actors
  single : s.calls.Pairwise fun one two => ∀ at_,¬(one.fails at_ = true ∧ two.fails at_ = true)
  gone : ∀ at_,s.spawning.any (·.stage.names at_) = true ∨ (∃ call ∈ s.calls,call.stops at_ = true) →
    at_ < s.actors.length ∧ ∀ key : Str,s.table.actors[key]? ≠ some at_
  vacated : ∀ spawning at_ actor,s.spawning = some spawning → spawning.stage.names at_ = true →
    s.actors[at_]? = some actor → s.table.actors[actor.key]? = none
  begun : ∀ turn ∈ s.begun,turn.fresh = true ∧ turn.registered = true
  removals : ∀ removal ∈ s.removals,removal.removed = some removal.failed

theorem evicts_names {spawning : Spawning} (evicts : spawning.evicts at_ = true) : spawning.stage.names at_ = true := by
  obtain ⟨key,stage⟩ := spawning
  cases stage with
  | growing => cases evicts
  | leaving actor => cases evicts
  | evicting stopping actor => cases stopping <;> first | exact evicts | cases evicts

section Changes
variable {s t : State} {at_ : Nat} {before after : Actor}

theorem setActor_get (other : Nat) (found : s.actors[at_]? = some before) :
    (s.setActor at_ after).actors[other]? = if at_ = other then some after else s.actors[other]? := by
  have bound : at_ < s.actors.length := (List.getElem?_eq_some_iff.mp found).1
  simp [State.setActor,List.getElem?_set,bound]

theorem setActor_known (found : s.actors[at_]? = some before) (key : after.key = before.key) {call : Call}
    (known : call.Known s.actors) : call.Known (s.setActor at_ after).actors := by
  have moved (name : Str) (other : Nat) (old : ∃ actor,s.actors[other]? = some actor ∧ actor.key = name) :
      ∃ actor,(s.setActor at_ after).actors[other]? = some actor ∧ actor.key = name := by
    obtain ⟨actor,was,named⟩ := old
    rw [setActor_get other found]
    split
    · rename_i equal
      subst equal
      rw [found] at was
      cases was
      exact ⟨after,rfl,key.trans named⟩
    · exact ⟨actor,was,named⟩
  cases call with
  | asking name other => exact moved name other known
  | failed name other => exact moved name other known
  | _ => trivial

-- One actor changes, and what it must be for the table and the calls still holds.
theorem set_resident (resident : Resident s) (found : s.actors[at_]? = some before) (key : after.key = before.key)
    (fits : Fits s at_ after) : Resident (s.setActor at_ after) := by
  refine ⟨?_,?_,?_,resident.single,?_,?_,resident.begun,resident.removals⟩
  · intro other actor present
    rw [setActor_get other found] at present
    have here : Fits s other actor := by
      split at present
      · rename_i equal; cases present; exact equal ▸ fits
      · exact resident.fits other actor present
    exact ⟨here.registered,here.busy,here.child,here.childless,here.asked,here.failed⟩
  · intro name other held
    obtain ⟨actor,was,named⟩ := resident.table name other held
    rw [setActor_get other found]
    split
    · rename_i equal
      subst equal
      rw [found] at was
      cases was
      exact ⟨after,rfl,key.trans named⟩
    · exact ⟨actor,was,named⟩
  · intro call member
    exact setActor_known found key (resident.known call member)
  · intro other named
    obtain ⟨bound,absent⟩ := resident.gone other named
    refine ⟨?_,absent⟩
    change other < (s.actors.set at_ after).length
    rw [List.length_set]
    exact bound
  · intro spawning other actor held names present
    rw [setActor_get other found] at present
    split at present
    · rename_i equal
      subst equal
      cases present
      rw [key]
      exact resident.vacated spawning at_ before held names found
    · exact resident.vacated spawning other actor held names present

theorem fewer_resident (resident : Resident s) (fewer : calls.Sublist s.calls) : Resident {s with calls := calls} := by
  refine ⟨?_,resident.table,?_,resident.single.sublist fewer,?_,resident.vacated,resident.begun,resident.removals⟩
  · intro other actor present
    obtain ⟨registered,busy,child,childless,asked,failed⟩ := resident.fits other actor present
    refine ⟨registered,busy,child,childless,?_,?_⟩
    · rintro ⟨call,member,names⟩; exact asked ⟨call,fewer.subset member,names⟩
    · rintro ⟨call,member,names⟩; exact failed ⟨call,fewer.subset member,names⟩
  · intro call member; exact resident.known call (fewer.subset member)
  · intro other named
    refine resident.gone other ?_
    rcases named with held | ⟨call,member,names⟩
    · exact .inl held
    · exact .inr ⟨call,fewer.subset member,names⟩

structure Enters (s : State) (call : Call) : Prop where
  known : call.Known s.actors
  asked : ∀ at_ actor,call.asks at_ = true → s.actors[at_]? = some actor →
    s.table.actors[actor.key]? = some at_ ∧ actor.broken = false
  failed : ∀ at_ actor,call.fails at_ = true → s.actors[at_]? = some actor →
    s.table.actors[actor.key]? = some at_ ∧ actor.broken = true
  alone : ∀ at_,call.fails at_ = true → ∀ other ∈ s.calls,other.fails at_ = false
  gone : ∀ at_,call.stops at_ = true → at_ < s.actors.length ∧ ∀ key : Str,s.table.actors[key]? ≠ some at_

theorem append_resident (resident : Resident s) (enters : Enters s call) :
    Resident {s with calls := s.calls ++ [call]} := by
  refine ⟨?_,resident.table,?_,?_,?_,resident.vacated,resident.begun,resident.removals⟩
  · intro other actor present
    obtain ⟨registered,busy,child,childless,asked,failed⟩ := resident.fits other actor present
    refine ⟨registered,busy,child,childless,?_,?_⟩
    · rintro ⟨item,member,names⟩
      rcases List.mem_append.mp member with old | new
      · exact asked ⟨item,old,names⟩
      · obtain rfl := List.mem_singleton.mp new
        exact enters.asked other actor names present
    · rintro ⟨item,member,names⟩
      rcases List.mem_append.mp member with old | new
      · exact failed ⟨item,old,names⟩
      · obtain rfl := List.mem_singleton.mp new
        exact enters.failed other actor names present
  · intro item member
    rcases List.mem_append.mp member with old | new
    · exact resident.known item old
    · obtain rfl := List.mem_singleton.mp new
      exact enters.known
  · refine List.pairwise_append.mpr ⟨resident.single,List.pairwise_singleton _ _,?_⟩
    intro old member new only other both
    obtain rfl := List.mem_singleton.mp only
    have alone := enters.alone other both.2 old member
    rw [both.1] at alone
    cases alone
  · intro other named
    rcases named with held | ⟨item,member,names⟩
    · exact resident.gone other (.inl held)
    · rcases List.mem_append.mp member with old | new
      · exact resident.gone other (.inr ⟨item,old,names⟩)
      · obtain rfl := List.mem_singleton.mp new
        exact enters.gone other names

-- Entries leave the map. Nobody holds an actor that leaves, and its child is gone
-- or with the lock's holder.
theorem unregister_resident {table : SessionTable} {spawning : Option Spawning} (resident : Resident s)
    (free : ∀ at_,s.spawning.any (·.stage.names at_) = false)
    (kept : ∀ (key : Str) at_,table.actors[key]? = some at_ → s.table.actors[key]? = some at_)
    (left : ∀ at_ actor,s.actors[at_]? = some actor → s.table.actors[actor.key]? = some at_ →
      table.actors[actor.key]? ≠ some at_ → actor.hasTurn = false ∧ (∀ call ∈ s.calls,call.asks at_ = false ∧ call.fails at_ = false) ∧
        (actor.child = none ∨ ∃ held,spawning = some held ∧ held.evicts at_ = true))
    (gone : ∀ held at_,spawning = some held → held.stage.names at_ = true →
      at_ < s.actors.length ∧ (∀ key : Str,table.actors[key]? ≠ some at_) ∧
        ∀ actor,s.actors[at_]? = some actor → table.actors[actor.key]? = none) :
    Resident {s with table := table, spawning := spawning} := by
  have stays (other : Nat) (actor : Actor) (present : s.actors[other]? = some actor)
      (was : s.table.actors[actor.key]? = some other) (held : actor.hasTurn = true ∨
        ∃ call ∈ s.calls,call.asks other = true ∨ call.fails other = true) : table.actors[actor.key]? = some other := by
    by_contra lost
    obtain ⟨idle,unheld,_⟩ := left other actor present was lost
    rcases held with turn | ⟨call,member,asks | fails⟩
    · rw [idle] at turn; cases turn
    · rw [(unheld call member).1] at asks; cases asks
    · rw [(unheld call member).2] at fails; cases fails
  refine ⟨?_,?_,resident.known,resident.single,?_,?_,resident.begun,resident.removals⟩
  · intro other actor present
    obtain ⟨registered,busy,child,childless,asked,failed⟩ := resident.fits other actor present
    refine ⟨fun now => registered (kept _ _ now),?_,?_,childless,?_,?_⟩
    · intro turn
      obtain ⟨was,unbroken⟩ := busy turn
      exact ⟨stays other actor present was (.inl turn),unbroken⟩
    · intro has
      rcases child has with was | ⟨held,now,evicts⟩
      · by_cases lost : table.actors[actor.key]? = some other
        · exact .inl lost
        · obtain ⟨_,_,childless | evicted⟩ := left other actor present was lost
          · rw [childless] at has; cases has
          · exact .inr evicted
      · have names := free other
        rw [now] at names
        exact absurd (evicts_names evicts) (by simpa using names)
    · intro asks
      obtain ⟨was,unbroken⟩ := asked asks
      obtain ⟨call,member,names⟩ := asks
      exact ⟨stays other actor present was (.inr ⟨call,member,.inl names⟩),unbroken⟩
    · intro fails
      obtain ⟨was,broken⟩ := failed fails
      obtain ⟨call,member,names⟩ := fails
      exact ⟨stays other actor present was (.inr ⟨call,member,.inr names⟩),broken⟩
  · intro key other now; exact resident.table key other (kept key other now)
  · intro other named
    rcases named with held | stops
    · obtain ⟨holder,now,names⟩ : ∃ holder,spawning = some holder ∧ holder.stage.names other = true := by
        cases spawning with
        | none => cases held
        | some holder => exact ⟨holder,rfl,held⟩
      obtain ⟨bound,absent,_⟩ := gone holder other now names
      exact ⟨bound,absent⟩
    · obtain ⟨bound,absent⟩ := resident.gone other (.inr stops)
      exact ⟨bound,fun key now => absent key (kept key other now)⟩
  · intro holder other actor now names present
    exact (gone holder other now names).2.2 actor present

theorem known_of_asks {call : Call} (known : call.Known actors)
    (names : call.asks at_ = true ∨ call.fails at_ = true) : ∃ key,∃ actor,actors[at_]? = some actor ∧ actor.key = key := by
  cases call with
  | asking key other =>
    rcases names with names | names
    · have same : other = at_ := by simpa [Call.asks] using names
      exact ⟨key,same ▸ known⟩
    · cases names
  | failed key other =>
    rcases names with names | names
    · cases names
    · have same : other = at_ := by simpa [Call.fails] using names
      exact ⟨key,same ▸ known⟩
  | looking => rcases names with names | names <;> cases names
  | shutdown => rcases names with names | names <;> cases names

theorem register_resident {key : Str} (resident : Resident s) (absent : s.table.actors[key]? = none)
    (free : ∀ at_,s.spawning.any (·.stage.names at_) = false) : Resident {s with
      table := s.table.insert key s.actors.length
      actors := s.actors ++ [.new key]
      spawning := none} := by
  have inserted (name : Str) : (s.table.insert key s.actors.length).actors[name]? =
      if key = name then some s.actors.length else s.table.actors[name]? := get_insert _ _ _ _
  have appended (other : Nat) (actor : Actor) (present : (s.actors ++ [Actor.new key])[other]? = some actor) :
      s.actors[other]? = some actor ∨ other = s.actors.length ∧ actor = .new key := by
    rw [List.getElem?_append] at present
    split at present
    · exact .inl present
    · rename_i beyond
      have bound := (List.getElem?_eq_some_iff.mp present).1
      exact .inr ⟨by simp at bound; omega,List.mem_singleton.mp (List.mem_of_getElem? present)⟩
  have older (other : Nat) (actor : Actor) (present : s.actors[other]? = some actor) (was : s.table.actors[actor.key]? = some other) :
      (s.table.insert key s.actors.length).actors[actor.key]? = some other := by
    rw [inserted]
    split
    · rename_i same; rw [←same,absent] at was; cases was
    · exact was
  have fresh (other : Nat) (named : ∃ key,∃ actor,s.actors[other]? = some actor ∧ actor.key = key) :
      other < s.actors.length := by
    obtain ⟨_,actor,present,_⟩ := named
    exact (List.getElem?_eq_some_iff.mp present).1
  refine ⟨?_,?_,?_,resident.single,?_,?_,resident.begun,resident.removals⟩
  · intro other actor present
    rcases appended other actor present with old | ⟨rfl,rfl⟩
    · have bound := (List.getElem?_eq_some_iff.mp old).1
      obtain ⟨registered,busy,child,childless,asked,failed⟩ := resident.fits other actor old
      refine ⟨?_,?_,?_,childless,?_,?_⟩
      · intro now
        rw [inserted] at now
        split at now
        · cases now; exact absurd bound (Nat.lt_irrefl _)
        · exact registered now
      · intro turn
        obtain ⟨was,unbroken⟩ := busy turn
        exact ⟨older other actor old was,unbroken⟩
      · intro has
        rcases child has with was | ⟨held,now,evicts⟩
        · exact .inl (older other actor old was)
        · have names := free other
          rw [now] at names; exact absurd (evicts_names evicts) (by simpa using names)
      · intro asks
        obtain ⟨was,unbroken⟩ := asked asks
        exact ⟨older other actor old was,unbroken⟩
      · intro fails
        obtain ⟨was,broken⟩ := failed fails
        exact ⟨older other actor old was,broken⟩
    · refine ⟨fun _ => ⟨rfl,rfl,List.not_mem_nil,List.not_mem_nil⟩,?_,?_,fun _ => rfl,?_,?_⟩
      · intro turn; cases turn
      · intro has; cases has
      · rintro ⟨call,member,names⟩
        exact absurd (fresh _ (known_of_asks (resident.known call member) (.inl names))) (Nat.lt_irrefl _)
      · rintro ⟨call,member,names⟩
        exact absurd (fresh _ (known_of_asks (resident.known call member) (.inr names))) (Nat.lt_irrefl _)
  · intro name other now
    dsimp only at now ⊢
    rw [inserted] at now
    split at now
    · rename_i same
      cases now
      exact ⟨.new key,by simp,same⟩
    · obtain ⟨actor,was,named⟩ := resident.table name other now
      exact ⟨actor,by rw [List.getElem?_append_left (List.getElem?_eq_some_iff.mp was).1]; exact was,named⟩
  · intro call member
    have known := resident.known call member
    cases call with
    | asking name other =>
      obtain ⟨actor,was,named⟩ := known
      exact ⟨actor,by rw [List.getElem?_append_left (List.getElem?_eq_some_iff.mp was).1]; exact was,named⟩
    | failed name other =>
      obtain ⟨actor,was,named⟩ := known
      exact ⟨actor,by rw [List.getElem?_append_left (List.getElem?_eq_some_iff.mp was).1]; exact was,named⟩
    | _ => trivial
  · intro other named
    rcases named with none_ | stops
    · cases none_
    · obtain ⟨bound,absent⟩ := resident.gone other (.inr stops)
      refine ⟨?_,fun name now => ?_⟩
      · change other < (s.actors ++ [Actor.new key]).length
        rw [List.length_append]
        exact Nat.lt_add_right 1 bound
      · dsimp only at now
        rw [inserted] at now
        split at now
        · cases now; exact Nat.lt_irrefl _ bound
        · exact absent name now
  · intro holder other actor now; cases now

end Changes
end HologramLive.Sessions
