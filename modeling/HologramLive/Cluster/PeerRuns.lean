import HologramLive.Cluster.Membership
namespace HologramLive.Cluster
open Tables Std Rpc List ExtTreeMap

inductive PeerAction where
  | seedFromDirectory (nodes : List NodeRecord) (nowMillis : Nat)
  | seedFromEndpoints (endpoints : List Str) (nowMillis : Nat)
  | learn (peers : List NodeRecord) (nowMillis : Nat)
  | due (nowMillis fanout : Nat)
  | recordSuccess (endpoint : Str)
  | recordFailure (endpoint : Str) (nowMillis ceilingMillis : Nat)
  | recordReplication (endpoint : Str) (nowMillis : Nat)
  | evictPruned (before after : List NodeRecord) (dialled : KeySet Str)
  | evictNeverJoined (nodes : List NodeRecord) (nowMillis ttlMillis : Nat) (dialled : KeySet Str)

def PeerAction.seeds : PeerAction → Bool
  | .seedFromDirectory .. | .seedFromEndpoints .. | .learn .. => true
  | _ => false

namespace PeerTable

def act (config : LoopConfig) (table : PeerTable) : PeerAction → PeerTable
  | .seedFromDirectory nodes now => seedFromDirectory config.selfEndpoint config.maxPeers now nodes table
  | .seedFromEndpoints endpoints now => seedFromEndpoints config.selfEndpoint config.maxPeers now endpoints table
  | .learn peers now => Cluster.learn config now peers table
  | .due now fanout => (table.due now fanout).2
  | .recordSuccess endpoint => table.recordSuccess endpoint
  | .recordFailure endpoint now ceiling => table.recordFailure endpoint now ceiling
  | .recordReplication endpoint now => table.recordReplication endpoint now
  | .evictPruned before after dialled => (Cluster.evictPruned before after table dialled).1
  | .evictNeverJoined nodes now ttl dialled => (Cluster.evictNeverJoined nodes now ttl table dialled).1

def run (config : LoopConfig) (actions : List PeerAction) : PeerTable := actions.foldl (act config) (new config.seeds)

variable {table after : PeerTable}

theorem fewer_len (fewer : ∀ endpoint ∈ after.peers,endpoint ∈ table.peers) : after.len ≤ table.len := by
  unfold len
  rw [←length_keys,←length_keys]
  exact (subperm_of_subset nodup_keys fun endpoint among =>
    mem_keys.mpr (fewer endpoint (mem_keys.mp among))).length_le

-- A step that only adds: what was there keeps its state, and what is new is a
-- normalised endpoint of another node, within the capacity.
structure Seeded (config : LoopConfig) (table after : PeerTable) : Prop where
  kept : ∀ (endpoint : Str) (state : PeerState),table.peers[endpoint]? = some state → after.peers[endpoint]? = some state
  fresh : ∀ endpoint ∈ after.peers,endpoint ∉ table.peers →
    normalizeEndpoint endpoint = endpoint ∧ endpoint ≠ config.selfEndpoint
  bounded : after.len ≤ max config.maxPeers table.len

theorem Seeded.refl (config : LoopConfig) (table : PeerTable) : Seeded config table table :=
  ⟨fun _ _ found => found,fun _ here absent => absurd here absent,Nat.le_max_right _ _⟩

variable {config : LoopConfig} {middle : PeerTable}

theorem Seeded.trans (first : Seeded config table middle)
    (later : Seeded config middle after) : Seeded config table after := by
  refine ⟨fun endpoint state found => later.kept endpoint state (first.kept endpoint state found),fun endpoint here absent => ?_,?_⟩
  · by_cases before : endpoint ∈ middle.peers
    · exact first.fresh endpoint before absent
    · exact later.fresh endpoint here before
  · have := first.bounded
    have := later.bounded
    omega

variable {endpoint : Str}

theorem insert_seeded (now : Nat) (room : table.len < config.maxPeers)
    (other : normalizeEndpoint endpoint ≠ config.selfEndpoint) :
    Seeded config table (table.insert (normalizeEndpoint endpoint) now) := by
  unfold insert
  split
  · exact .refl config table
  · rename_i absent
    refine ⟨fun e state found => ?_,fun e here new => ?_,?_⟩
    · rw [get_insert]
      split
      · rename_i same; rw [←same,absent] at found
        cases found
      · exact found
    · rcases mem_insert.mp here with same | before
      · have same : normalizeEndpoint endpoint = e := Std.compare_eq_iff_eq.mp same
        rw [←same]; exact ⟨rdropWhile_idempotent _ _,other⟩
      · exact absurd before new
    · have grown : (table.peers.insert (normalizeEndpoint endpoint) ⟨false,0,0,now,0⟩).size ≤ table.peers.size + 1 :=
        size_insert_le
      unfold len at room ⊢
      simp only
      omega

theorem seedOne_seeded
    (answered : table.seedOne endpoint config.selfEndpoint config.maxPeers now = (more,after)) : Seeded config table after := by
  unfold seedOne at answered
  split at answered
  · cases answered
    exact .refl config table
  · rename_i room
    simp only at answered
    split at answered
    · rename_i other
      cases answered
      exact insert_seeded now (Nat.lt_of_not_le room) other
    · cases answered
      exact .refl config table

theorem seedFromEndpoints_seeded (config : LoopConfig) (now : Nat) (endpoints : List Str) (table : PeerTable) :
    Seeded config table (seedFromEndpoints config.selfEndpoint config.maxPeers now endpoints table) := by
  induction endpoints generalizing table with
  | nil => exact .refl config table
  | cons endpoint rest ih =>
    unfold seedFromEndpoints
    split
    · rename_i answered
      exact seedOne_seeded answered
    · rename_i answered
      exact (seedOne_seeded answered).trans (ih _)

theorem seedFromDirectory_seeded (config : LoopConfig) (now : Nat) (nodes : List NodeRecord) (table : PeerTable) :
    Seeded config table (seedFromDirectory config.selfEndpoint config.maxPeers now nodes table) := by
  induction nodes generalizing table with
  | nil => exact .refl config table
  | cons node rest ih =>
    unfold seedFromDirectory
    split
    · exact ih table
    · split
      · rename_i answered; exact seedOne_seeded answered
      · rename_i answered; exact (seedOne_seeded answered).trans (ih _)

theorem learn_seeded (config : LoopConfig) (now : Nat) (peers : List NodeRecord) (table : PeerTable) :
    Seeded config table (Cluster.learn config now peers table) := by
  induction peers generalizing table with
  | nil => exact .refl config table
  | cons peer rest ih =>
    unfold Cluster.learn
    split
    · exact .refl config table
    · rename_i room
      split
      · exact ih table
      · split
        · exact ih table
        · simp only; split
          · rename_i other; exact (insert_seeded now (Nat.lt_of_not_le room) other).trans (ih _)
          · exact ih table

-- A step that adds no one and drops no seed.
structure Shrunk (table after : PeerTable) : Prop where
  fewer : ∀ endpoint ∈ after.peers,endpoint ∈ table.peers
  seeds : ∀ (endpoint : Str) (state : PeerState),table.peers[endpoint]? = some state → state.isSeed = true →
    ∃ state',after.peers[endpoint]? = some state' ∧ state'.isSeed = true

theorem Shrunk.refl (table : PeerTable) : Shrunk table table := ⟨fun _ here => here,fun _ state found seed => ⟨state,found,seed⟩⟩

theorem Shrunk.trans (first : Shrunk table middle) (later : Shrunk middle after) : Shrunk table after := by
  refine ⟨fun endpoint here => first.fewer endpoint (later.fewer endpoint here),fun endpoint state found seed => ?_⟩
  obtain ⟨state',found',seed'⟩ := first.seeds endpoint state found seed
  exact later.seeds endpoint state' found' seed'

theorem modify_shrunk (table : PeerTable) (endpoint : Str)
    (keeps : ∀ state,(change state).isSeed = state.isSeed) : Shrunk table (table.modify endpoint change) := by
  unfold modify
  split
  · rename_i state present
    refine ⟨fun e here => ?_,fun e before found seed => ?_⟩
    · rcases mem_insert.mp here with same | before
      · rw [←Std.compare_eq_iff_eq.mp same]; exact mem_iff_isSome_getElem?.mpr (by simp [present])
      · exact before
    · rw [get_insert]
      split
      · rename_i same; rw [←same,present] at found
        cases found; exact ⟨change state,rfl,(keeps state).trans seed⟩
      · exact ⟨before,found,seed⟩
  · exact .refl table

theorem evict_shrunk (table : PeerTable) (endpoint : Str) : Shrunk table (table.evict endpoint) := by
  unfold evict
  split
  · rename_i state present
    split
    · exact .refl table
    · rename_i learned
      refine ⟨fun e here => mem_of_mem_erase here,fun e before found seed => ⟨before,?_,seed⟩⟩
      rw [get_erase,if_neg]
      · exact found
      · rintro rfl
        rw [present] at found; cases found
        exact learned seed
  · exact .refl table

theorem pruned_shrunk (before after : List NodeRecord) (table : PeerTable) (dialled : KeySet Str) :
    Shrunk table (Cluster.evictPruned before after table dialled).1 := by
  have folded (endpoints : List Str) (state : PeerTable × KeySet Str × Bool) :
      Shrunk state.1 (endpoints.foldl (fun state endpoint =>
        let dropped := dropDialled state.2.1 endpoint
        (state.1.evict endpoint,dropped.1,state.2.2 || dropped.2)) state).1 := by
    induction endpoints generalizing state with
    | nil => exact .refl _
    | cons endpoint rest ih =>
      exact (evict_shrunk state.1 endpoint).trans (ih (state.1.evict endpoint,_,_))
  exact folded (pruneEvictions before after) (table,dialled,false)

theorem neverJoined_shrunk (table : PeerTable) (now ttl : Nat) (joined : KeySet Str) :
    Shrunk table (table.evictNeverJoined now ttl joined).2 := by
  unfold evictNeverJoined
  refine ⟨fun e here => ?_,fun e state found seed => ⟨state,?_,seed⟩⟩
  · have held := mem_iff_isSome_getElem?.mp here
    simp only [get_eraseKeys] at held
    split at held
    · cases held
    · exact mem_iff_isSome_getElem?.mpr held
  · simp only [get_eraseKeys]
    rw [if_neg]
    · exact found
    · intro stale
      obtain ⟨row,among,rfl⟩ := mem_map.mp stale
      obtain ⟨member,old⟩ := mem_filter.mp among
      have same := mem_rows.mp (show (row.1,row.2) ∈ table.peers.toList from member)
      rw [found] at same
      cases same
      simp [seed] at old

theorem act_cases (config : LoopConfig) (table : PeerTable) (action : PeerAction) :
    (action.seeds = true ∧ Seeded config table (table.act config action)) ∨
      (action.seeds = false ∧ Shrunk table (table.act config action)) := by
  cases action with
  | seedFromDirectory nodes now => exact .inl ⟨rfl,seedFromDirectory_seeded config now nodes table⟩
  | seedFromEndpoints endpoints now => exact .inl ⟨rfl,seedFromEndpoints_seeded config now endpoints table⟩
  | learn peers now => exact .inl ⟨rfl,learn_seeded config now peers table⟩
  | due now fanout =>
    refine .inr ⟨rfl,?_⟩
    simp only [act,due]
    split
    · exact .refl table
    · exact ⟨fun _ here => here,fun _ state found seed => ⟨state,found,seed⟩⟩
  | recordSuccess endpoint => exact .inr ⟨rfl,modify_shrunk table endpoint fun _ => rfl⟩
  | recordFailure endpoint now ceiling => exact .inr ⟨rfl,modify_shrunk table endpoint fun _ => rfl⟩
  | recordReplication endpoint now => exact .inr ⟨rfl,modify_shrunk table endpoint fun _ => rfl⟩
  | evictPruned before after dialled => exact .inr ⟨rfl,pruned_shrunk before after table dialled⟩
  | evictNeverJoined nodes now ttl dialled => exact .inr ⟨rfl,neverJoined_shrunk table now ttl _⟩

structure Sound (config : LoopConfig) (table : PeerTable) : Prop where
  seeds_kept : ∀ seed ∈ config.seeds,∃ state : PeerState,table.peers[seed]? = some state ∧ state.isSeed = true
  bounded : table.len ≤ max config.maxPeers config.seeds.dedup.length
  own_absent : config.selfEndpoint ∉ table.peers
  normalised : ∀ endpoint ∈ table.peers,normalizeEndpoint endpoint = endpoint

theorem Sound.seeded (sound : Sound config table) (moved : Seeded config table after) : Sound config after := by
  refine ⟨fun seed among => ?_,?_,fun own => ?_,fun endpoint here => ?_⟩
  · obtain ⟨state,found,flag⟩ := sound.seeds_kept seed among
    exact ⟨state,moved.kept seed state found,flag⟩
  · have := sound.bounded
    have := moved.bounded
    omega
  · exact (moved.fresh _ own sound.own_absent).2 rfl
  · by_cases before : endpoint ∈ table.peers
    · exact sound.normalised endpoint before
    · exact (moved.fresh endpoint here before).1

theorem Sound.shrunk (sound : Sound config table) (moved : Shrunk table after) : Sound config after := by
  refine ⟨fun seed among => ?_,(fewer_len moved.fewer).trans sound.bounded,fun own => sound.own_absent (moved.fewer _ own),
    fun endpoint here => sound.normalised endpoint (moved.fewer endpoint here)⟩
  obtain ⟨state,found,flag⟩ := sound.seeds_kept seed among
  exact moved.seeds seed state found flag

theorem new_get (seeds : List Str) (endpoint : Str) :
    (new seeds).peers[endpoint]? = if endpoint ∈ seeds then some ⟨true,0,0,0,0⟩ else none := by
  have folded (peers : Table Str PeerState) :
      (seeds.foldl (fun peers seed => peers.insert seed ⟨true,0,0,0,0⟩) peers)[endpoint]? =
        if endpoint ∈ seeds then some ⟨true,0,0,0,0⟩ else peers[endpoint]? := by
    induction seeds generalizing peers with
    | nil => simp
    | cons seed rest ih =>
      rw [foldl_cons,ih,get_insert]
      simp only [mem_cons]
      grind
  unfold new
  rw [folded]
  simp

theorem new_mem : endpoint ∈ (new seeds).peers ↔ endpoint ∈ seeds := by
  rw [mem_iff_isSome_getElem?,new_get]
  split <;> simp_all

theorem new_sound (config : LoopConfig) : Sound config (new config.seeds) := by
  refine ⟨fun seed among => ⟨⟨true,0,0,0,0⟩,by rw [new_get,if_pos among],rfl⟩,?_,fun own => ?_,fun endpoint here => ?_⟩
  · refine Nat.le_trans (Nat.le_of_eq ?_) (Nat.le_max_right _ _)
    unfold len
    rw [←length_keys]
    refine ((perm_ext_iff_of_nodup nodup_keys (nodup_dedup _)).mpr fun endpoint => ?_).length_eq
    rw [ExtTreeMap.mem_keys,new_mem,mem_dedup]
  · have := (mem_filter.mp (new_mem.mp own)).2
    simp at this
  · obtain ⟨among,-⟩ := mem_filter.mp (new_mem.mp here)
    obtain ⟨raw,-,rfl⟩ := mem_map.mp among
    exact rdropWhile_idempotent _ _

-- Every run of the loop keeps the invariant, and what brings endpoints in never
-- touches the state of one that is there.
theorem table_sound (config : LoopConfig) (actions : List PeerAction) :
    Sound config (run config actions) ∧ ∀ action : PeerAction,action.seeds = true →
      ∀ (endpoint : Str) (state : PeerState),(run config actions).peers[endpoint]? = some state →
        ((run config actions).act config action).peers[endpoint]? = some state := by
  have step (table : PeerTable) (action : PeerAction) (sound : Sound config table) : Sound config (table.act config action) := by
    rcases act_cases config table action with ⟨-,moved⟩ | ⟨-,moved⟩
    · exact sound.seeded moved
    · exact sound.shrunk moved
  have whole (table : PeerTable) (sound : Sound config table) : Sound config (actions.foldl (act config) table) := by
    induction actions generalizing table with
    | nil => exact sound
    | cons action rest ih => exact ih _ (step table action sound)
  refine ⟨whole _ (new_sound config),fun action seeds endpoint state found => ?_⟩
  rcases act_cases config (run config actions) action with ⟨-,moved⟩ | ⟨other,-⟩
  · exact moved.kept endpoint state found
  · rw [seeds] at other
    cases other

end PeerTable
end HologramLive.Cluster
