import HologramLive.Cluster.PeerRuns
namespace HologramLive.Cluster
open Tables Std Rpc List

def Named (records : List NodeRecord) (endpoint : Str) : Prop := ∃ node ∈ records,normalizeEndpoint node.endpoint = endpoint

variable (before after : List NodeRecord)

def removedRecords : List NodeRecord :=
  before.filter fun node => after.all fun kept => kept.nodeId ≠ node.nodeId

variable (table : PeerTable)

def PeerTable.IsSeed (endpoint : Str) : Prop :=
  ∃ state : PeerState,table.peers[endpoint]? = some state ∧ state.isSeed = true

-- What stands in the table and in the dial list under an endpoint stays as it is.
structure Untouched (endpoint : Str) (table : PeerTable) (dialled : KeySet Str) (after : PeerTable) (left : KeySet Str) : Prop where
  peer : after.peers[endpoint]? = table.peers[endpoint]?
  dial : endpoint ∈ left ↔ endpoint ∈ dialled

theorem mem_pruneEvictions {before after : List NodeRecord} :
    endpoint ∈ pruneEvictions before after ↔ Named (removedRecords before after) endpoint ∧ ¬Named after endpoint := by
  simp only [pruneEvictions,Named,removedRecords,mem_filter,mem_map,all_eq_true,decide_eq_true_eq,not_exists,
    not_and,ne_eq]

theorem PeerTable.get_evict (gone endpoint : Str) : (table.evict gone).peers[endpoint]? =
      if gone = endpoint then (table.peers[endpoint]?).filter (·.isSeed) else table.peers[endpoint]? := by
  unfold evict
  split
  · rename_i state present
    split
    · rename_i seed
      split
      · rename_i same; simp [←same,present,Option.filter,seed]
      · rfl
    · rename_i learned
      simp only [get_erase]
      split
      · rename_i same; simp [←same,present,Option.filter,learned]
      · rfl
  · rename_i absent
    split
    · rename_i same
      simp [←same,absent]
    · rfl

theorem mem_erase {dialled : KeySet Str} : endpoint ∈ dialled.erase gone ↔ endpoint ≠ gone ∧ endpoint ∈ dialled := by
  rw [ExtTreeSet.mem_erase,ne_eq,Std.compare_eq_iff_eq]
  exact and_congr_left' ⟨fun other same => other same.symm,fun other same => other same.symm⟩

theorem evictPruned_get (dialled : KeySet Str) (endpoint : Str) :
    (evictPruned before after table dialled).1.peers[endpoint]? =
        (if endpoint ∈ pruneEvictions before after then (table.peers[endpoint]?).filter (·.isSeed) else table.peers[endpoint]?) ∧
      (endpoint ∈ (evictPruned before after table dialled).2.1 ↔
        endpoint ∈ dialled ∧ endpoint ∉ pruneEvictions before after) := by
  unfold evictPruned
  generalize pruneEvictions before after = gone
  generalize false = changed
  induction gone generalizing table dialled changed with
  | nil => simp
  | cons first rest ih =>
    rw [foldl_cons]
    refine ⟨(ih ..).1.trans ?_,(ih ..).2.trans ?_⟩
    · simp only [PeerTable.get_evict,mem_cons,eq_comm]
      grind
    · simp only [mem_erase,mem_cons]
      grind

theorem evictNeverJoined_get (nodes : List NodeRecord) (now ttl : Nat) (table : PeerTable) (dialled : KeySet Str) {endpoint : Str}
    (spared : table.IsSeed endpoint ∨ Named nodes endpoint) :
    Untouched endpoint table dialled (evictNeverJoined nodes now ttl table dialled).1 (evictNeverJoined nodes now ttl table dialled).2.1 := by
  have fresh : endpoint ∉ (table.evictNeverJoined now ttl (collect (nodes.map fun node => normalizeEndpoint node.endpoint))).1 := by
    intro stale
    obtain ⟨row,among,rfl⟩ := mem_map.mp stale
    obtain ⟨member,old⟩ := mem_filter.mp among
    simp only [Bool.and_eq_true,Bool.not_eq_true'] at old
    rcases spared with ⟨state,found,seed⟩ | ⟨node,listed,named⟩
    · have same := mem_rows.mp (show (row.1,row.2) ∈ table.peers.toList from member)
      rw [found] at same
      cases same
      simp [seed] at old
    · have joined : row.1 ∈ collect (nodes.map fun node => normalizeEndpoint node.endpoint) :=
        mem_collect.mpr (mem_map.mpr ⟨node,listed,named⟩)
      rw [ExtTreeSet.contains_iff_mem.mpr joined] at old
      simp at old
  refine ⟨?_,?_⟩
  · simp only [evictNeverJoined,PeerTable.evictNeverJoined,get_eraseKeys]
    exact if_neg fresh
  · simp only [evictNeverJoined]
    generalize (table.evictNeverJoined now ttl _).1 = gone at fresh ⊢
    generalize false = changed
    induction gone generalizing dialled changed with
    | nil => rfl
    | cons first rest ih =>
      rw [foldl_cons]
      refine (ih _ (fun later => fresh (.tail _ later)) _).trans ?_
      simp only [dropDialled,mem_erase]
      exact and_iff_right fun same => fresh (same ▸ .head _)

-- Pruning touches exactly the endpoints that removed records alone name: those
-- that are no seeds leave the table, and all of them the dial list. The later
-- eviction touches no seed and no endpoint of a record.
theorem evictions_spare (before after nodes : List NodeRecord) (now ttl : Nat) (table : PeerTable) (dialled : KeySet Str) :
    (∀ endpoint,Named (removedRecords before after) endpoint → ¬Named after endpoint →
      (table.IsSeed endpoint → (evictPruned before after table dialled).1.peers[endpoint]? = table.peers[endpoint]?) ∧
      (¬table.IsSeed endpoint → endpoint ∉ (evictPruned before after table dialled).1.peers) ∧
      endpoint ∉ (evictPruned before after table dialled).2.1) ∧
    (∀ endpoint,Named after endpoint ∨ ¬Named (removedRecords before after) endpoint →
      Untouched endpoint table dialled (evictPruned before after table dialled).1 (evictPruned before after table dialled).2.1) ∧
    (∀ endpoint,table.IsSeed endpoint ∨ Named nodes endpoint →
      Untouched endpoint table dialled (evictNeverJoined nodes now ttl table dialled).1
        (evictNeverJoined nodes now ttl table dialled).2.1) := by
  refine ⟨fun endpoint removed orphaned => ?_,fun endpoint living => ?_,fun _ => evictNeverJoined_get nodes now ttl table dialled⟩
  · obtain ⟨peer,dial⟩ := evictPruned_get before after table dialled endpoint
    have gone := mem_pruneEvictions.mpr ⟨removed,orphaned⟩
    rw [if_pos gone] at peer
    refine ⟨?_,fun learned here => ?_,fun kept => (dial.mp kept).2 gone⟩
    · rintro ⟨state,found,seed⟩
      rw [peer,found]
      simp [seed]
    · obtain ⟨state,held⟩ := Option.isSome_iff_exists.mp (ExtTreeMap.mem_iff_isSome_getElem?.mp here)
      rw [peer] at held
      exact learned ⟨state,Option.filter_eq_some_iff.mp held⟩
  · obtain ⟨peer,dial⟩ := evictPruned_get before after table dialled endpoint
    have spared : endpoint ∉ pruneEvictions before after := fun gone => by
      obtain ⟨removed,orphaned⟩ := mem_pruneEvictions.mp gone
      exact living.elim orphaned fun unnamed => unnamed removed
    exact ⟨peer.trans (if_neg spared),dial.trans (and_iff_left spared)⟩

-- A seed that answered is in the dial list, and leaves it with its record.
theorem seed_undialled : ∃ (before after : List NodeRecord) (table : PeerTable) (dialled : KeySet Str) (seed : Str),
      table.IsSeed seed ∧ seed ∈ dialled ∧ seed ∉ (evictPruned before after table dialled).2.1 :=
  ⟨[⟨['a'],['1'],[],"https://a.example".toList,0⟩],[],.new ["https://a.example".toList],collect ["https://a.example".toList],
    "https://a.example".toList,⟨⟨true,0,0,0,0⟩,by rw [PeerTable.new_get]; simp,rfl⟩,mem_collect.mpr (.head _),
    fun kept => ((evictPruned_get ..).2.mp kept).2 (by decide)⟩

end HologramLive.Cluster
