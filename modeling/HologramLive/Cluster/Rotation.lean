import HologramLive.Cluster.Evictions
namespace HologramLive.Cluster
open Tables Std Rpc List ExtTreeMap

def PeerAction.isDue : PeerAction → Bool
  | .due .. => true
  | _ => false

-- The actions that record how a call of one peer went.
def PeerAction.about (endpoint : Str) : PeerAction → Bool
  | .recordSuccess named | .recordFailure named _ _ | .recordReplication named _ => decide (named = endpoint)
  | _ => false

namespace PeerTable

-- The table at each contact round: between two rounds anything happens but another
-- round.
def atRound (config : LoopConfig) (fanout : Nat) (now : Nat → Nat) (between : Nat → List PeerAction) (table : PeerTable) : Nat → PeerTable
  | 0 => table
  | k + 1 => (between k).foldl (act config) ((atRound config fanout now between table k).due (now k) fanout).2

variable (table : PeerTable)

def DueAt (nowMillis : Nat) (endpoint : Str) : Prop :=
  ∃ state : PeerState,table.peers[endpoint]? = some state ∧ state.nextAttemptMillis ≤ nowMillis

@[simp] theorem insert_cursor (endpoint : Str) (now : Nat) : (table.insert endpoint now).cursor = table.cursor := by
  unfold insert
  split <;> rfl

@[simp] theorem modify_cursor (endpoint : Str) (change : PeerState → PeerState) :
    (table.modify endpoint change).cursor = table.cursor := by
  unfold modify
  split <;> rfl

@[simp] theorem evict_cursor (endpoint : Str) : (table.evict endpoint).cursor = table.cursor := by
  unfold evict
  split
  · split <;> rfl
  · rfl

@[simp] theorem seedOne_cursor (endpoint own : Str) (most now : Nat) :
    (table.seedOne endpoint own most now).2.cursor = table.cursor := by
  unfold seedOne
  split
  · rfl
  · simp only
    split <;> simp

@[simp] theorem seedFromEndpoints_cursor (own : Str) (most now : Nat) (endpoints : List Str) (table : PeerTable) :
    (seedFromEndpoints own most now endpoints table).cursor = table.cursor := by
  induction endpoints generalizing table with
  | nil => rfl
  | cons endpoint rest ih =>
    have one := seedOne_cursor table endpoint own most now
    unfold seedFromEndpoints
    split
    · simp_all
    · simp_all

@[simp] theorem seedFromDirectory_cursor (own : Str) (most now : Nat) (nodes : List NodeRecord) (table : PeerTable) :
    (seedFromDirectory own most now nodes table).cursor = table.cursor := by
  induction nodes generalizing table with
  | nil => rfl
  | cons node rest ih =>
    have one := seedOne_cursor table node.endpoint own most now
    unfold seedFromDirectory
    split
    · exact ih table
    · split
      · simp_all
      · simp_all

@[simp] theorem learn_cursor (config : LoopConfig) (now : Nat) (peers : List NodeRecord) (table : PeerTable) :
    (Cluster.learn config now peers table).cursor = table.cursor := by
  induction peers generalizing table with
  | nil => rfl
  | cons peer rest ih =>
    unfold Cluster.learn
    split
    · rfl
    · split
      · exact ih table
      · split
        · exact ih table
        · simp only [ih]
          split <;> simp

@[simp] theorem evictPruned_cursor (before after : List NodeRecord) (table : PeerTable) (dialled : KeySet Str) :
    (Cluster.evictPruned before after table dialled).1.cursor = table.cursor := by
  unfold Cluster.evictPruned
  generalize pruneEvictions before after = gone
  generalize false = changed
  induction gone generalizing table dialled changed with
  | nil => rfl
  | cons first rest ih => exact (ih ..).trans (evict_cursor table first)

theorem act_cursor {action : PeerAction} (config : LoopConfig) (table : PeerTable) (other : action.isDue = false) :
    (table.act config action).cursor = table.cursor := by
  cases action with
  | due => cases other
  | evictNeverJoined => rfl
  | _ => simp [act,recordSuccess,recordFailure,recordReplication]

def scanned : List (Str × PeerState) := table.peers.toList.rotate (table.cursor % table.len)

theorem due_scanned {table : PeerTable} (positive : 0 < fanout) (some : 0 < table.len) :
    table.due now fanout = (((table.scanned.filter fun row => row.2.nextAttemptMillis ≤ now).map (·.1)).take fanout,
      {table with cursor := (table.cursor % table.len + min table.len fanout) % table.len}) := by
  have sized : table.peers.toList.length = table.len := length_toList
  have filled : table.peers.toList ≠ [] := fun empty => by
    rw [empty] at sized
    exact absurd some (sized ▸ Nat.lt_irrefl 0)
  unfold due scanned
  rw [rotate_eq_drop_append_take (sized.symm ▸ (Nat.mod_lt _ some).le)]
  simp only [sized,filled,Nat.ne_of_gt positive,or_self,if_false]

theorem scanned_keys : table.scanned.map (·.1) = table.peers.keys.rotate (table.cursor % table.len) := by
  rw [scanned,map_rotate]
  exact congrArg (rotate · _) map_fst_toList_eq_keys

theorem scanned_nodup : (table.scanned.map (·.1)).Nodup := by
  rw [scanned_keys,nodup_rotate]
  exact nodup_keys

theorem mem_take_filter {α : Type} {p : α → Bool} {item : α} (passes : p item = true) (rows : List α) (most : Nat)
    (early : item ∈ rows.take most) : item ∈ (rows.filter p).take most := by
  induction rows generalizing most with
  | nil => simp at early
  | cons first rest ih =>
    cases most with
    | zero => simp at early
    | succ most =>
      rcases mem_cons.mp early with rfl | later
      · simp [passes]
      · by_cases kept : p first = true
        · simp [kept,ih most later]
        · simp only [filter_cons,kept]
          exact take_subset_take_left _ (Nat.le_succ most) (ih most later)

-- Where the cursor is after so many rounds, by the size of the table.
theorem round_cursor {config : LoopConfig} {fanout : Nat} {now : Nat → Nat} {between : Nat → List PeerAction} {table : PeerTable}
    (positive : 0 < fanout) (some : 0 < table.len) (others : ∀ k,∀ action ∈ between k,action.isDue = false)
    (fixed : ∀ k,(atRound config fanout now between table k).peers.keys = table.peers.keys) (s j : Nat) :
    (atRound config fanout now between table (s + j)).cursor % table.len =
      ((atRound config fanout now between table s).cursor + j * min table.len fanout) % table.len := by
  have sized (k : Nat) : (atRound config fanout now between table k).len = table.len := by
    simp only [len,←length_keys,fixed]
  induction j with
  | zero => simp
  | succ j ih =>
    have still (actions : List PeerAction) (other : PeerTable) (all : ∀ action ∈ actions,action.isDue = false) :
        (actions.foldl (act config) other).cursor = other.cursor := by
      induction actions generalizing other with
      | nil => rfl
      | cons action rest step =>
        exact (step _ fun _ among => all _ (.tail _ among)).trans (act_cursor config other (all action (.head _)))
    rw [←Nat.add_assoc,atRound,still _ _ (others _),due_scanned positive ((sized _).symm ▸ some)]
    simp only [sized,ih,Nat.mod_mod,Nat.mod_add_mod,Nat.add_one_mul,Nat.add_assoc]

-- Every round returns at most `fanout` endpoints, each once, and no endpoint that
-- stays due waits longer than one turn around the table.
theorem rotation_fair (config : LoopConfig) (fanout : Nat) (now : Nat → Nat) (between : Nat → List PeerAction) (table : PeerTable)
    (positive : 0 < fanout) (others : ∀ k,∀ action ∈ between k,action.isDue = false)
    (fixed : ∀ k,(atRound config fanout now between table k).peers.keys = table.peers.keys) :
    (∀ k,((atRound config fanout now between table k).due (now k) fanout).1.Nodup ∧
      ((atRound config fanout now between table k).due (now k) fanout).1.length ≤ fanout) ∧
    ∀ (s : Nat) (endpoint : Str),endpoint ∈ table.peers →
      (∀ k,s ≤ k → k < s + (table.len + fanout - 1) / fanout → (atRound config fanout now between table k).DueAt (now k) endpoint) →
      ∃ k,s ≤ k ∧ k < s + (table.len + fanout - 1) / fanout ∧
        endpoint ∈ ((atRound config fanout now between table k).due (now k) fanout).1 := by
  have sized (k : Nat) : (atRound config fanout now between table k).len = table.len := by
    simp only [len,←length_keys,fixed]
  refine ⟨fun k => ?_,fun s endpoint present always => ?_⟩
  · rcases Nat.eq_zero_or_pos table.len with empty | some
    · have none : (atRound config fanout now between table k).peers.toList = [] :=
        eq_nil_of_length_eq_zero (length_toList.trans ((sized k).trans empty))
      simp [due,none]
    · rw [due_scanned positive ((sized k).symm ▸ some)]
      exact ⟨(((filter_sublist).map _).nodup (scanned_nodup _)).sublist (take_sublist ..),length_take_le ..⟩
  · have listed : endpoint ∈ table.peers.keys := mem_keys.mpr present
    have spot := idxOf_lt_length_of_mem listed
    rw [length_keys,show table.peers.size = table.len from rfl] at spot
    generalize place : table.peers.keys.idxOf endpoint = p at spot
    have some : 0 < table.len := Nat.zero_lt_of_lt spot
    -- `d` rows lie between the cursor of the first round and the endpoint
    generalize start : (atRound config fanout now between table s).cursor % table.len = c
    have behind : c < table.len := start ▸ Nat.mod_lt _ some
    generalize stride : min table.len fanout = g
    have moves : 0 < g := by omega
    obtain ⟨d,near,reach⟩ : ∃ d < table.len,(c + d) % table.len = p := by
      refine ⟨(p + table.len - c) % table.len,Nat.mod_lt _ some,?_⟩
      rw [Nat.add_mod_mod,show c + (p + table.len - c) = p + table.len by omega,Nat.add_mod_right,Nat.mod_eq_of_lt spot]
    have soon : d / g < (table.len + fanout - 1) / fanout := by
      rw [Nat.div_lt_iff_lt_mul moves]
      have turns := Nat.div_add_mod (table.len + fanout - 1) fanout
      have short := Nat.mod_lt (table.len + fanout - 1) positive
      rcases Nat.le_total table.len fanout with small | large
      · rw [Nat.min_eq_left small] at stride
        have one : 1 ≤ (table.len + fanout - 1) / fanout := (Nat.one_le_div_iff positive).mpr (by omega)
        exact near.trans_le (stride ▸ Nat.le_mul_of_pos_left _ one)
      · rw [Nat.min_eq_right large] at stride; rw [←stride,Nat.mul_comm]
        omega
    refine ⟨s + d / g,Nat.le_add_right ..,Nat.add_lt_add_left soon s,?_⟩
    obtain ⟨state,found,ready⟩ := always _ (Nat.le_add_right ..) (Nat.add_lt_add_left soon s)
    have same := sized (s + d / g)
    have keys := fixed (s + d / g)
    have cursor := @round_cursor config fanout now between table positive some others fixed s (d / g)
    generalize atRound config fanout now between table (s + d / g) = there at found cursor same keys ⊢
    rw [stride,Nat.add_mod,start] at cursor
    have rest := Nat.mod_lt d moves
    have row : (there.scanned.map (·.1))[d % g]? = Option.some endpoint := by
      rw [scanned_keys,keys,getElem?_rotate (by rw [length_keys]; exact show d % g < table.len by omega),
        length_keys,show table.peers.size = table.len from rfl,same,cursor,Nat.add_mod_mod,Nat.add_comm,
        Nat.add_assoc,←Nat.add_mod_mod,Nat.mod_add_mod,Nat.add_mod_mod,Nat.mul_comm,Nat.div_add_mod,reach,←place]
      exact getElem?_idxOf listed
    rw [due_scanned positive (same.symm ▸ some),←map_take]
    rw [getElem?_map,Option.map_eq_some_iff] at row
    obtain ⟨⟨_,held⟩,here,rfl⟩ := row
    have row := mem_rows.mp (mem_rotate.mp (mem_of_getElem? here))
    rw [found] at row
    cases row
    refine mem_map.mpr ⟨_,mem_take_filter (by simpa using ready) _ _ ?_,rfl⟩
    exact mem_of_getElem? ((getElem?_take_of_lt (by omega)).trans here)

def threeSeeds : LoopConfig := ⟨Sample.crates,false,['d'],['d'],8,[['a'],['b'],['c']]⟩

theorem seeds_contacted : ∃ k,0 ≤ k ∧ k < 0 + ((new threeSeeds.seeds).len + 2 - 1) / 2 ∧
    ['c'] ∈ ((atRound threeSeeds 2 (fun _ => 0) (fun _ => []) (new threeSeeds.seeds) k).due 0 2).1 := by
  have still (k : Nat) : (atRound threeSeeds 2 (fun _ => 0) (fun _ => []) (new threeSeeds.seeds) k).peers = (new threeSeeds.seeds).peers := by
    induction k with
    | zero => rfl
    | succ k ih =>
      rw [atRound,foldl_nil,due]
      split <;> exact ih
  have listed : ['c'] ∈ threeSeeds.seeds := by decide
  apply (rotation_fair threeSeeds 2 _ _ _ (by decide) (fun _ _ none => absurd none not_mem_nil)
    fun k => congrArg ExtTreeMap.keys (still k)).2 0 ['c'] (new_mem.mpr listed)
  intro k _ _
  exact ⟨_,(congrArg (·[['c']]?) (still k)).trans ((new_get _ _).trans (if_pos listed)),Nat.le_refl 0⟩

section Outcomes
variable {config : LoopConfig} {table other : PeerTable} {endpoint : Str} {action : PeerAction} {actions : List PeerAction}

theorem modify_get (table : PeerTable) (named endpoint : Str) (change : PeerState → PeerState) :
    (table.modify named change).peers[endpoint]? =
      if named = endpoint then (table.peers[endpoint]?).map change else table.peers[endpoint]? := by
  unfold modify
  split
  · rename_i state present
    rw [get_insert]
    split
    · rename_i same
      rw [←same,present,Option.map_some]
    · rfl
  · rename_i absent
    split
    · rename_i same
      rw [←same,absent,Option.map_none]
    · rfl

-- What another peer's outcome, or a change of the table, leaves of an entry that stays.
theorem act_apart (apart : action.about endpoint = false) (was : endpoint ∈ table.peers) (stays : endpoint ∈ (table.act config action).peers) :
    (table.act config action).peers[endpoint]? = table.peers[endpoint]? := by
  obtain ⟨state,found⟩ := Option.isSome_iff_exists.mp (mem_iff_isSome_getElem?.mp was)
  obtain ⟨after,left⟩ := Option.isSome_iff_exists.mp (mem_iff_isSome_getElem?.mp stays)
  rcases act_cases config table action with ⟨-,moved⟩ | ⟨shrinks,-⟩
  · exact (moved.kept endpoint state found).trans found.symm
  cases action with
  | seedFromDirectory | seedFromEndpoints | learn => cases shrinks
  | due now fanout =>
    simp only [act,due]
    split <;> rfl
  | recordSuccess named | recordFailure named now ceiling | recordReplication named now =>
    exact (table.modify_get named endpoint _).trans (if_neg (of_decide_eq_false apart))
  | evictPruned before after dialled =>
    have held := (evictPruned_get before after table dialled endpoint).1
    simp only [act] at left ⊢
    rw [left] at held ⊢
    split at held
    · exact ((Option.filter_eq_some_iff.mp held.symm).1).symm
    · exact held
  | evictNeverJoined nodes now ttl dialled =>
    simp only [act,Cluster.evictNeverJoined,evictNeverJoined,get_eraseKeys] at left ⊢
    split at left
    · cases left
    · rename_i kept
      exact if_neg kept

theorem act_about (own : action.about endpoint = true) (same : table.peers[endpoint]? = other.peers[endpoint]?) :
    (table.act config action).peers[endpoint]? = (other.act config action).peers[endpoint]? := by
  cases action with
  | recordSuccess named | recordFailure named now ceiling | recordReplication named now =>
    refine (table.modify_get named endpoint _).trans (Eq.trans ?_ (other.modify_get named endpoint _).symm)
    rw [same]
  | seedFromDirectory | seedFromEndpoints | learn | due | evictPruned | evictNeverJoined => cases own

theorem outcomes_same (same : table.peers[endpoint]? = other.peers[endpoint]?)
    (stays : ∀ early,early <+: actions → endpoint ∈ (early.foldl (act config) table).peers) :
    (actions.foldl (act config) table).peers[endpoint]? = ((actions.filter (·.about endpoint)).foldl (act config) other).peers[endpoint]? := by
  induction actions generalizing table other with
  | nil => exact same
  | cons action rest ih =>
    have later (early : List PeerAction) (first : early <+: rest) :
        endpoint ∈ (early.foldl (act config) (table.act config action)).peers :=
      stays (action :: early) ((prefix_cons_inj action).mpr first)
    rw [foldl_cons,filter_cons]
    split
    · rename_i own
      exact ih (act_about own same) later
    · rename_i apart
      exact ih ((act_apart (Bool.eq_false_iff.mpr apart) (stays [] nil_prefix) (later [] nil_prefix)).trans same) later

-- While a peer stays in the table, its entry (with that its backoff and its next
-- mirror) is what its own outcomes make of it, whatever the loop does between them.
theorem outcomes_alone (stays : ∀ early,early <+: actions → endpoint ∈ (early.foldl (act config) table).peers) :
    (actions.foldl (act config) table).peers[endpoint]? = ((actions.filter (·.about endpoint)).foldl (act config) table).peers[endpoint]? :=
  outcomes_same rfl stays

theorem seed_alone : (run threeSeeds [.recordFailure ['a'] 10 60000,.recordFailure ['b'] 20 60000,.evictPruned [] [] ∅,
    .recordSuccess ['a']]).peers[(['b'] : Str)]? = (run threeSeeds [.recordFailure ['b'] 20 60000]).peers[(['b'] : Str)]? :=
  outcomes_alone fun early _ => by
    obtain ⟨state,found,-⟩ := (table_sound threeSeeds early).1.seeds_kept ['b'] (by decide)
    exact mem_iff_isSome_getElem?.mpr (Option.isSome_of_mem found)

end Outcomes

end PeerTable
end HologramLive.Cluster
