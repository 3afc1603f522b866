import HologramLive.Rpc.Protocol
namespace HologramLive.Modules
open Tables Std Rpc List

structure OperationDescriptor where
  id : Str
  kind : OperationKind
  fallbackSafeBeforeDispatch : Bool
deriving DecidableEq, Repr

structure ModuleDescriptor where
  id : Str
  name : Str
  version : Str
  dependencies : List Str
  operations : List OperationDescriptor
deriving DecidableEq, Repr

structure Resolving where
  visiting : KeySet Str
  visited : KeySet Str
  ordered : List ModuleDescriptor

structure ModuleRegistry where
  modules : List ModuleDescriptor
  operations : Table Str OperationDescriptor

def each (turn : Str → Resolving → Option (Except LiveError Resolving)) : List Str → Resolving → Option (Except LiveError Resolving)
  | [],state => some (.ok state)
  | id :: rest,state =>
    match turn id state with
    | some (.ok state) => each turn rest state
    | stopped => stopped

-- `depth` bounds the nesting of the calls.
def visit (enabled : KeySet Str) (available : Table Str ModuleDescriptor) : Nat → Str → Resolving → Option (Except LiveError Resolving)
  | 0,_,_ => none
  | depth+1,id,state =>
    if state.visited.contains id then some (.ok state)
    else if state.visiting.contains id then some (.error (.conflict ("module dependency cycle includes ".toList ++ id)))
    else match available[id]? with
      | none => some (.error (.capability ("unknown module ".toList ++ id)))
      | some module =>
        let required := fun dependency state =>
          if !enabled.contains dependency then some (.error (.capability ("module ".toList ++ id ++
            " requires disabled module ".toList ++ dependency)))
          else visit enabled available depth dependency state
        match each required module.dependencies {state with visiting := state.visiting.insert id} with
        | some (.ok state) => some (.ok ⟨state.visiting.erase id,state.visited.insert id,state.ordered ++ [module]⟩)
        | stopped => stopped

def provide (operations : Table Str OperationDescriptor) : List OperationDescriptor → Except LiveError (Table Str OperationDescriptor)
  | [] => .ok operations
  | operation :: rest =>
    if operations[operation.id]?.isSome then
      .error (.conflict ("operation ".toList ++ operation.id ++ " is provided by more than one module".toList))
    else provide (operations.insert operation.id operation) rest

variable (builtins : List ModuleDescriptor)

def availableModules : Table Str ModuleDescriptor :=
  builtins.foldl (fun available (module : ModuleDescriptor) => available.insert module.id module) ∅

def build (enabled : List Str) : Option (Except LiveError ModuleRegistry) :=
  let available := availableModules builtins
  let enabled : KeySet Str := ExtTreeSet.ofList enabled compare
  match each (visit enabled available (enabled.toList.length+1)) enabled.toList ⟨∅,∅,[]⟩ with
  | some (.ok state) => some ((provide ∅ (state.ordered.flatMap (·.operations))).map fun operations => ⟨state.ordered,operations⟩)
  | some (.error e) => some (.error e)
  | none => none

section Graph
variable (enabled : KeySet Str) (available : Table Str ModuleDescriptor)

-- The dependency graph, restricted to the enabled modules.
def Requires (id dependency : Str) : Prop :=
  id ∈ enabled ∧ dependency ∈ enabled ∧ ∃ module,available[id]? = some module ∧ dependency ∈ module.dependencies

structure Resolvable : Prop where
  present : ∀ id ∈ enabled,∃ module,available[id]? = some module
  closed : ∀ id ∈ enabled,∀ module,available[id]? = some module → ∀ dependency ∈ module.dependencies,dependency ∈ enabled
  acyclic : ∀ id,¬Relation.TransGen (Requires enabled available) id id

def Keyed : Prop := ∀ (id : Str) (module : ModuleDescriptor),available[id]? = some module → module.id = id

end Graph

-- Modules of which each comes after all that it depends on.
inductive InOrder : List ModuleDescriptor → Prop
  | nil : InOrder []
  | last {modules module} : InOrder modules → (∀ dependency ∈ module.dependencies,dependency ∈ modules.map (·.id)) →
    InOrder (modules ++ [module])

structure Sound (enabled : KeySet Str) (available : Table Str ModuleDescriptor) (state : Resolving) : Prop where
  visited : ∀ id,id ∈ state.visited ↔ id ∈ state.ordered.map (·.id)
  single : (state.ordered.map (·.id)).Nodup
  known : ∀ module ∈ state.ordered,available[module.id]? = some module ∧ module.id ∈ enabled
  inOrder : InOrder state.ordered
  apart : ∀ id ∈ state.visiting,id ∉ state.visited

structure Kept (state after : Resolving) : Prop where
  visiting : after.visiting = state.visiting
  visited : ∀ id ∈ state.visited,id ∈ after.visited

theorem mem_insert {set : KeySet Str} : b ∈ set.insert a ↔ a = b ∨ b ∈ set := by
  rw [ExtTreeSet.mem_insert,Std.compare_eq_iff_eq]

theorem mem_erase {set : KeySet Str} : b ∈ set.erase a ↔ a ≠ b ∧ b ∈ set := by
  rw [ExtTreeSet.mem_erase,ne_eq,Std.compare_eq_iff_eq]

section Visits
variable {enabled : KeySet Str} {available : Table Str ModuleDescriptor} {state : Resolving} {id : Str}

def fresh (enabled visiting : KeySet Str) : Nat := (enabled.toList.filter fun id => id ∉ visiting).length

theorem fresh_insert (member : id ∈ enabled) {visiting : KeySet Str} (absent : id ∉ visiting) :
    fresh enabled (visiting.insert id) < fresh enabled visiting := by
  unfold fresh
  have fewer : (enabled.toList.filter fun other => other ∉ visiting.insert id) =
      (enabled.toList.filter fun other => other ∉ visiting).filter fun other => id ≠ other := by
    rw [filter_filter]
    refine filter_congr fun other _ => ?_
    simp only [mem_insert,not_or,ne_eq,Bool.decide_and]
  rw [fewer]
  refine length_filter_lt_length_iff_exists.mpr ⟨id,mem_filter.mpr ⟨ExtTreeSet.mem_toList.mpr member,?_⟩,by simp⟩
  simpa using absent

theorem Kept.refl (state : Resolving) : Kept state state := ⟨rfl,fun _ visited => visited⟩

theorem Kept.trans {middle after : Resolving} (first : Kept state middle) (later : Kept middle after) : Kept state after :=
  ⟨later.visiting.trans first.visiting,fun id visited => later.visited id (first.visited id visited)⟩

-- What a call comes to: it ends with the id visited, or it finds what no graph that can
-- be resolved has.
inductive Ends (enabled : KeySet Str) (available : Table Str ModuleDescriptor) (state : Resolving) (ids : List Str) :
    Option (Except LiveError Resolving) → Prop
  | done {after} : Sound enabled available after → Kept state after → (∀ id ∈ ids,id ∈ after.visited) →
    Ends enabled available state ids (some (.ok after))
  | failed {e} : ¬Resolvable enabled available → Ends enabled available state ids (some (.error e))

theorem each_ends {turn : Str → Resolving → Option (Except LiveError Resolving)} {ids : List Str} (sound : Sound enabled available state)
    (step : ∀ id ∈ ids,∀ other,Sound enabled available other → other.visiting = state.visiting →
      Ends enabled available other [id] (turn id other)) : Ends enabled available state ids (each turn ids state) := by
  induction ids generalizing state with
  | nil => exact .done sound (.refl state) fun id none => by cases none
  | cons id rest ih =>
    have first := step id mem_cons_self state sound rfl
    unfold each
    cases ended : turn id state with
    | none => rw [ended] at first; cases first
    | some result =>
      rw [ended] at first
      cases first with
      | failed unresolvable => exact .failed unresolvable
      | @done middle fine kept visited =>
        have later := ih fine fun other among s sound same =>
          step other (mem_cons_of_mem _ among) s sound (same.trans kept.visiting)
        dsimp only
        generalize each turn rest middle = ran at later
        cases later with
        | failed unresolvable => exact .failed unresolvable
        | done fine' kept' visited' =>
          refine .done fine' (kept.trans kept') fun other among => ?_
          rcases mem_cons.mp among with rfl | behind
          · exact kept'.visited _ (visited _ mem_cons_self)
          · exact visited' other behind

theorem Sound.push {module : ModuleDescriptor} (sound : Sound enabled available state) (keyed : Keyed available)
    (found : available[id]? = some module) (member : id ∈ enabled) (absent : id ∉ state.visited)
    (required : ∀ dependency ∈ module.dependencies,dependency ∈ state.visited) :
    Sound enabled available ⟨state.visiting.erase id,state.visited.insert id,state.ordered ++ [module]⟩ := by
  have own := keyed id module found
  refine ⟨fun other => ?_,?_,fun other among => ?_,.last sound.inOrder fun dependency among => ?_,fun other visiting visited => ?_⟩
  · rw [mem_insert,sound.visited,map_append,mem_append,map_singleton,mem_singleton,own,or_comm,eq_comm]
  · rw [map_append,map_singleton,own,nodup_append]
    refine ⟨sound.single,nodup_singleton _,fun one first two second same => ?_⟩
    rw [mem_singleton.mp second] at same
    exact absent ((sound.visited id).mpr (same ▸ first))
  · rcases mem_append.mp among with before | last
    · exact sound.known other before
    · rw [mem_singleton.mp last,own]
      exact ⟨found,member⟩
  · exact (sound.visited dependency).mp (required dependency among)
  · obtain ⟨apart,inside⟩ := mem_erase.mp visiting
    rcases mem_insert.mp visited with same | before
    · exact apart same
    · exact sound.apart other inside before

theorem Sound.enter (sound : Sound enabled available state) (absent : id ∉ state.visited) :
    Sound enabled available {state with visiting := state.visiting.insert id} := by
  refine ⟨sound.visited,sound.single,sound.known,sound.inOrder,fun other visiting => ?_⟩
  rcases mem_insert.mp visiting with rfl | before
  · exact absent
  · exact sound.apart other before

-- By induction on the depth that is left. Every id being visited depends on the one at
-- hand, so that an id met again closes a cycle; and each nested call has one id less to
-- visit, so that the depth is enough.
theorem visit_ends (keyed : Keyed available) (depth : Nat) (member : id ∈ enabled) (sound : Sound enabled available state)
    (path : ∀ other ∈ state.visiting,Relation.TransGen (Requires enabled available) other id)
    (room : fresh enabled state.visiting < depth) : Ends enabled available state [id] (visit enabled available depth id state) := by
  induction depth generalizing id state with
  | zero => omega
  | succ depth ih =>
    unfold visit
    by_cases before : id ∈ state.visited
    · rw [if_pos (ExtTreeSet.contains_iff_mem.mpr before)]
      refine .done sound (.refl state) fun other among => ?_
      rw [mem_singleton.mp among]
      exact before
    · rw [if_neg fun again => before (ExtTreeSet.contains_iff_mem.mp again)]
      by_cases open_ : id ∈ state.visiting
      · rw [if_pos (ExtTreeSet.contains_iff_mem.mpr open_)]
        exact .failed fun resolvable => resolvable.acyclic id (path id open_)
      · rw [if_neg fun again => open_ (ExtTreeSet.contains_iff_mem.mp again)]
        cases found : available[id]? with
        | none =>
          refine .failed fun resolvable => ?_
          obtain ⟨module,present⟩ := resolvable.present id member
          rw [found] at present; cases present
        | some module =>
          have fewer := fresh_insert member open_
          have nested := @each_ends enabled available {state with visiting := state.visiting.insert id}
            (fun dependency state => if !enabled.contains dependency then some (.error (.capability ("module ".toList ++ id ++
              " requires disabled module ".toList ++ dependency))) else visit enabled available depth dependency state)
            module.dependencies (sound.enter before) fun dependency among other fine same => by
              by_cases wanted : dependency ∈ enabled
              · have edge : Requires enabled available id dependency := ⟨member,wanted,module,found,among⟩
                rw [ExtTreeSet.contains_iff_mem.mpr wanted,if_neg (by decide)]
                refine ih wanted fine (fun earlier visiting => ?_) (by rw [same]; dsimp only; omega)
                rw [same] at visiting
                rcases mem_insert.mp visiting with rfl | inside
                · exact .single edge
                · exact (path earlier inside).tail edge
              · rw [eq_false_of_ne_true fun inside => wanted (ExtTreeSet.contains_iff_mem.mp inside),if_pos Bool.not_false]
                exact .failed fun resolvable => wanted (resolvable.closed id member module found dependency among)
          dsimp only
          generalize each _ module.dependencies _ = ran at nested ⊢
          cases nested with
          | failed unresolvable => exact .failed unresolvable
          | @done after fine kept required =>
            have waiting : id ∈ after.visiting := by
              rw [kept.visiting]; exact mem_insert.mpr (.inl rfl)
            refine .done (fine.push keyed found member (fine.apart id waiting) required) ⟨?_,fun other visited => ?_⟩ ?_
            · refine ExtTreeSet.ext_mem fun other => ?_
              rw [mem_erase,kept.visiting,mem_insert]
              constructor
              · rintro ⟨apart,same | inside⟩
                · exact absurd same apart
                · exact inside
              · intro inside; exact ⟨fun same => open_ (same ▸ inside),.inr inside⟩
            · exact mem_insert.mpr (.inr (kept.visited other visited))
            · intro other among; rw [mem_singleton.mp among]
              exact mem_insert.mpr (.inl rfl)

end Visits

section Orders
variable {enabled : KeySet Str} {available : Table Str ModuleDescriptor} {modules : List ModuleDescriptor}

theorem InOrder.split (inOrder : InOrder modules)
    (split : modules = before ++ module :: rest) : ∀ dependency ∈ module.dependencies,dependency ∈ before.map (·.id) := by
  induction inOrder generalizing rest with
  | nil =>
    have := congrArg length split
    simp at this
  | @last first last inOrder required ih =>
    rcases eq_nil_or_concat rest with rfl | ⟨rest',final,rfl⟩
    · obtain ⟨rfl,same⟩ := append_inj' split rfl
      cases same
      exact required
    · rw [concat_eq_append,←cons_append,←append_assoc] at split
      exact ih (append_inj' split rfl).1

-- Where each enabled module is in an order, what it depends on is in front of it.
theorem requires_before (inOrder : InOrder modules) (single : (modules.map (·.id)).Nodup)
    (whole : ∀ id ∈ enabled,∀ module,available[id]? = some module → module ∈ modules ∧ module.id = id) {id dependency : Str}
    (requires : Requires enabled available id dependency) :
    (modules.map (·.id)).idxOf dependency < (modules.map (·.id)).idxOf id := by
  obtain ⟨member,-,module,found,among⟩ := requires
  obtain ⟨listed,own⟩ := whole id member module found
  obtain ⟨before,rest,split⟩ := append_of_mem listed
  have earlier := inOrder.split split dependency among
  rw [split,map_append,map_cons,own] at single ⊢
  have absent : id ∉ before.map (·.id) := fun inside => (nodup_append.mp single).2.2 id inside id mem_cons_self rfl
  rw [idxOf_append_of_mem earlier,idxOf_append_of_notMem absent,idxOf_cons_self,Nat.add_zero]
  exact idxOf_lt_length_of_mem earlier

theorem acyclic_of_before {rank : Str → Nat} (before : ∀ id dependency,Requires enabled available id dependency →
    rank dependency < rank id) (id : Str) : ¬Relation.TransGen (Requires enabled available) id id := by
  have lower : ∀ last,Relation.TransGen (Requires enabled available) id last → rank last < rank id := by
    intro last path
    induction path with
    | single edge => exact before _ _ edge
    | tail _ edge ih => exact Nat.lt_trans (before _ _ edge) ih
  exact fun cycle => Nat.lt_irrefl _ (lower id cycle)

end Orders

theorem provide_iff {operations : List OperationDescriptor} {provided : Table Str OperationDescriptor} :
    (∃ table,provide provided operations = .ok table) ↔
      (operations.map (·.id)).Nodup ∧ ∀ operation ∈ operations,provided[operation.id]? = none := by
  induction operations generalizing provided with
  | nil => simp [provide]
  | cons operation rest ih =>
    unfold provide
    split
    · rename_i twice
      constructor
      · rintro ⟨table,failed⟩
        cases failed
      · rintro ⟨-,free⟩
        rw [free operation mem_cons_self] at twice; cases twice
    · rename_i free
      rw [ih,map_cons,nodup_cons,mem_map]
      simp only [get_insert,mem_cons,forall_eq_or_imp]
      grind

theorem availableModules_keyed : Keyed (availableModules builtins) := by
  have folded (available : Table Str ModuleDescriptor) (keyed : Keyed available) :
      Keyed (builtins.foldl (fun available (module : ModuleDescriptor) => available.insert module.id module) available) := by
    induction builtins generalizing available with
    | nil => exact keyed
    | cons module rest ih =>
      refine ih _ fun id other found => ?_
      rw [get_insert] at found
      split at found
      · rename_i same; cases found
        exact same
      · exact keyed id other found
  exact folded ∅ fun id module found => by simp at found

def modulesOf (enabled : KeySet Str) (available : Table Str ModuleDescriptor) : List ModuleDescriptor :=
  enabled.toList.filterMap fun id => available[id]?

section Build
variable {enabled : KeySet Str} {available : Table Str ModuleDescriptor} {state : Resolving}

theorem Sound.resolvable (sound : Sound enabled available state) (keyed : Keyed available) (all : ∀ id ∈ enabled,id ∈ state.visited) :
    Resolvable enabled available ∧ state.ordered.Perm (modulesOf enabled available) := by
  have listed : ∀ id ∈ enabled,∀ module,available[id]? = some module → module ∈ state.ordered ∧ module.id = id := by
    intro id member module found
    obtain ⟨other,among,same⟩ := mem_map.mp ((sound.visited id).mp (all id member))
    have known := (sound.known other among).1
    rw [same,found] at known
    cases known
    exact ⟨among,same⟩
  refine ⟨⟨fun id member => ?_,fun id member module found dependency among => ?_,?_⟩,?_⟩
  · obtain ⟨module,among,same⟩ := mem_map.mp ((sound.visited id).mp (all id member))
    exact ⟨module,same ▸ (sound.known module among).1⟩
  · obtain ⟨before,rest,split⟩ := append_of_mem (listed id member module found).1
    obtain ⟨other,earlier,same⟩ := mem_map.mp (sound.inOrder.split split dependency among)
    have within : other ∈ state.ordered := by
      rw [split]
      exact mem_append_left _ earlier
    exact same ▸ (sound.known other within).2
  · exact acyclic_of_before fun id dependency => requires_before sound.inOrder sound.single listed
  · have once : (modulesOf enabled available).Nodup := by
      refine List.Nodup.filterMap (fun a b module first second => ?_) ?_
      · rw [←keyed a module first,←keyed b module second]
      · exact ExtTreeSet.distinct_toList.imp fun apart same => apart (Std.compare_eq_iff_eq.mpr same)
    refine (perm_ext_iff_of_nodup sound.single.of_map once).mpr fun module => ?_
    unfold modulesOf
    rw [mem_filterMap]
    constructor
    · intro among
      obtain ⟨found,member⟩ := sound.known module among
      exact ⟨module.id,ExtTreeSet.mem_toList.mpr member,found⟩
    · rintro ⟨id,member,found⟩
      exact (listed id (ExtTreeSet.mem_toList.mp member) module found).1

end Build

-- A registry is built exactly where every enabled module is there, what it depends on
-- is enabled, no enabled module depends on itself and no operation is provided twice; it
-- has each enabled module once, behind those that it depends on.
theorem build_resolves (builtins : List ModuleDescriptor) (ids : List Str) :
    let available := availableModules builtins
    let enabled : KeySet Str := ExtTreeSet.ofList ids compare
    (∃ result,build builtins ids = some result) ∧
    ((∃ registry,build builtins ids = some (.ok registry)) ↔ Resolvable enabled available ∧
      (((modulesOf enabled available).flatMap (·.operations)).map (·.id)).Nodup) ∧
    ∀ registry,build builtins ids = some (.ok registry) → (registry.modules.map (·.id)).Nodup ∧
      (∀ id,id ∈ registry.modules.map (·.id) ↔ id ∈ ids) ∧ (∀ module ∈ registry.modules,available[module.id]? = some module) ∧
      ∀ before module rest,registry.modules = before ++ module :: rest →
        ∀ dependency ∈ module.dependencies,dependency ∈ before.map (·.id) := by
  intro available enabled
  have keyed := availableModules_keyed builtins
  have start : Sound enabled available ⟨∅,∅,[]⟩ :=
    ⟨fun id => (by simp),nodup_nil,fun _ among => (by cases among),.nil,fun id among => (by simp at among)⟩
  have ended : Ends enabled available ⟨∅,∅,[]⟩ enabled.toList
      (each (visit enabled available (enabled.toList.length+1)) enabled.toList ⟨∅,∅,[]⟩) := by
    refine each_ends start fun id among other sound same => ?_
    refine visit_ends keyed _ (ExtTreeSet.mem_toList.mp among) sound (fun earlier visiting => ?_) ?_
    · rw [same] at visiting
      simp at visiting
    · exact Nat.lt_succ_of_le (length_filter_le _ _)
  have built : build builtins ids = match each (visit enabled available (enabled.toList.length+1)) enabled.toList ⟨∅,∅,[]⟩ with
    | some (.ok state) => some ((provide ∅ (state.ordered.flatMap (·.operations))).map fun operations => ⟨state.ordered,operations⟩)
    | some (.error e) => some (.error e)
    | none => none := rfl
  rw [built]
  generalize each _ enabled.toList _ = ran at ended
  cases ended with
  | failed unresolvable =>
    refine ⟨⟨_,rfl⟩,⟨?_,fun resolvable => absurd resolvable.1 unresolvable⟩,?_⟩
    · rintro ⟨registry,same⟩
      cases same
    · intro registry same
      cases same
  | @done state sound kept visited =>
    obtain ⟨resolvable,permuted⟩ := sound.resolvable keyed fun id member => visited id (ExtTreeSet.mem_toList.mpr member)
    have provided := @provide_iff (state.ordered.flatMap (·.operations)) ∅
    have names := ((permuted.flatMap_right (·.operations)).map (·.id)).nodup_iff
    dsimp only
    refine ⟨⟨_,rfl⟩,?_,?_⟩
    · rw [←names]
      constructor
      · rintro ⟨registry,same⟩
        refine ⟨resolvable,?_⟩
        cases given : provide ∅ (state.ordered.flatMap (·.operations)) with
        | error e => rw [given] at same; cases same
        | ok table => exact (provided.mp ⟨table,given⟩).1
      · rintro ⟨-,once⟩
        obtain ⟨table,given⟩ := provided.mpr ⟨once,fun operation _ => by simp⟩
        exact ⟨⟨state.ordered,table⟩,by rw [given]; rfl⟩
    · intro registry same
      have modules : registry.modules = state.ordered := by
        cases given : provide ∅ (state.ordered.flatMap (·.operations)) with
        | error e => rw [given] at same; cases same
        | ok table =>
          rw [given] at same; cases same
          rfl
      rw [modules]
      refine ⟨sound.single,fun id => ?_,fun module among => (sound.known module among).1,fun _ _ _ split => sound.inOrder.split split⟩
      have member : id ∈ enabled ↔ id ∈ ids := by simp [enabled,ExtTreeSet.mem_ofList]
      rw [←member,←sound.visited]
      constructor
      · intro inside
        obtain ⟨module,among,same⟩ := mem_map.mp ((sound.visited id).mp inside)
        exact same ▸ (sound.known module among).2
      · exact fun inside => visited id (ExtTreeSet.mem_toList.mpr inside)

end HologramLive.Modules
