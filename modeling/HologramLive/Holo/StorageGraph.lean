import HologramLive.Holo.Types
import HologramLive.Lib.Breadth
import HologramLive.Lib.Fallible
namespace HologramLive.StorageGraph
open Breadth List

def kappaLabelBytes : Nat := 71

structure StorageGraphLimits where
  maxDepth : Nat
  maxObjects : Nat
  maxEdges : Nat
  maxResolvedBytes : Nat
deriving DecidableEq, Repr

def StorageGraphLimits.default : StorageGraphLimits := ⟨16,512,4096,64*1024*1024⟩

structure StorageGraphClosure where
  readable : List Str
  edgeCount : Nat
  resolvedBytes : Nat
  maxDepth : Nat
deriving DecidableEq, Repr

inductive RealizationError where
  | truncated
  | malformed
deriving DecidableEq, Repr

-- The address of bytes, and the realizations of the registry: how each finds the
-- references of an object.
structure SpaceCrate where
  addressBytes : Bytes → Str
  registry : Str → Option (Bytes → Except RealizationError (List Str))

def graphError (message : String) : LiveError := .capability ("typed storage graph ".toList ++ message.toList)

def readU32 (bytes : Bytes) (cursor : Nat) : Except RealizationError (Nat × Nat) :=
  match (bytes.drop cursor).take 4 with
  | [a,b,c,d] => .ok (a.toNat+256*(b.toNat+256*(c.toNat+256*d.toNat)),cursor+4)
  | _ => .error .truncated

def validateCanonicalFrame (bytes : Bytes) (nul extractedReferences : Nat) : Except RealizationError Unit := do
  let (count,cursor) ← readU32 bytes (nul+1)
  if count ≠ extractedReferences then .error .malformed
  else do
    let (payloadLength,cursor) ← readU32 bytes (cursor+count*kappaLabelBytes)
    if bytes.length < cursor+payloadLength then .error .truncated
    else if cursor+payloadLength ≠ bytes.length then .error .malformed
    else .ok ()

section Resolution
variable (space : SpaceCrate)

def malformed {α : Type} : Except RealizationError α → Except LiveError α
  | .ok a => .ok a
  | .error _ => .error (graphError "contains a malformed typed realization")

def typedReferences (bytes : Bytes) : Except LiveError (List Str) :=
  match bytes.findIdx? (· = 0) with
  | none => .ok []
  | some nul => match fromUtf8 (bytes.take nul) with
    | none => .ok []
    | some iri => match space.registry iri with
      | none => .ok []
      | some extractor => do
        let references ← malformed (extractor bytes)
        malformed (validateCanonicalFrame bytes nul references.length)
        return references

-- What `ObjectStore::get` answers.
variable (store : Str → Except LiveError Bytes) (limits : StorageGraphLimits)

variable (kappa : Str)

def fetch : Except LiveError Bytes :=
  match store kappa with
  | .ok bytes => .ok bytes
  | .error (.notFound _) => .error (graphError "is incomplete in the local object store")
  | .error _ => .error (graphError "could not be read from the local object store")

-- One object that was not seen before. A sum that passes its integer type passes
-- the limit too, with the same error.
def visit : Visit Str StorageGraphClosure LiveError := fun kappa depth s =>
  if limits.maxObjects ≤ s.readable.length then .error (graphError "exceeds the host object-count limit")
  else if limits.maxDepth < depth then .error (graphError "exceeds the host depth limit")
  else do
    let bytes ← fetch store kappa
    if space.addressBytes bytes ≠ kappa then .error (graphError "contains an object whose bytes do not match its κ")
    else if limits.maxResolvedBytes < s.resolvedBytes+bytes.length then .error (graphError "exceeds the host byte limit")
    else do
      let references ← typedReferences space bytes
      if limits.maxEdges < s.edgeCount+references.length then .error (graphError "exceeds the host edge-count limit")
      else if depth = limits.maxDepth ∧ references ≠ [] then .error (graphError "exceeds the host depth limit")
      else .ok (references,⟨s.readable ++ [kappa],s.edgeCount+references.length,s.resolvedBytes+bytes.length,max s.maxDepth depth⟩)

-- A visit past the most objects fails, so one more is fuel enough.
def resolveStorageGraph (roots : List Str) : Except LiveError StorageGraphClosure :=
  if roots = [] then .error (graphError "requires at least one storage root")
  else if limits.maxObjects = 0 ∨ limits.maxEdges = 0 ∨ limits.maxResolvedBytes = 0 then
    .error (graphError "has an invalid zero host limit")
  else (walk (visit space store limits) (limits.maxObjects+1) (roots.map fun root => (root,0)) [] ⟨[],0,0,0⟩).map (·.2)

-- An object that is present, matches its kappa and is well formed.
def Loaded (bytes : Bytes) (references : List Str) : Prop :=
  store kappa = .ok bytes ∧ space.addressBytes bytes = kappa ∧ typedReferences space bytes = .ok references

def bytesOf : Bytes := (store kappa).toOption.getD []
def referencesOf : List Str := (typedReferences space (bytesOf store kappa)).toOption.getD []
def edges (objects : List Str) : Nat := (objects.map fun kappa => (referencesOf space store kappa).length).sum
def size (objects : List Str) : Nat := (objects.map fun kappa => (bytesOf store kappa).length).sum

abbrev Reachable (roots : List Str) (kappa : Str) : Prop := Reach (referencesOf space store) roots kappa

-- The objects, edges and bytes of distinct objects are within the limits.
structure Within (objects : List Str) : Prop where
  few : objects.length ≤ limits.maxObjects
  sparse : edges space store objects ≤ limits.maxEdges
  light : size store objects ≤ limits.maxResolvedBytes

-- When a graph is resolved, by the set of its roots alone.
structure Resolvable (roots : List Str) : Prop where
  started : roots ≠ []
  nonzero : 0 < limits.maxObjects ∧ 0 < limits.maxEdges ∧ 0 < limits.maxResolvedBytes
  loaded : ∀ kappa,Reachable space store roots kappa → ∃ bytes references,Loaded space store kappa bytes references
  totals : ∃ all : List Str,all.Nodup ∧ (∀ kappa,kappa ∈ all ↔ Reachable space store roots kappa) ∧ Within space store limits all
  shallow : ∀ kappa depth,Least (referencesOf space store) roots depth kappa → limits.maxDepth ≤ depth →
    referencesOf space store kappa = []

-- A graph that is whole, within the totals, and with no path past the depth.
structure Fitting (roots : List Str) : Prop where
  loaded : ∀ kappa,Reachable space store roots kappa → ∃ bytes references,Loaded space store kappa bytes references
  totals : ∃ all : List Str,all.Nodup ∧ (∀ kappa,kappa ∈ all ↔ Reachable space store roots kappa) ∧ Within space store limits all
  bounded : ∀ kappa n,At (referencesOf space store) roots n kappa → n ≤ limits.maxDepth

end Resolution

section Proofs
variable {space : SpaceCrate} {store : Str → Except LiveError Bytes} {limits : StorageGraphLimits} {roots : List Str}
  {kappa : Str} {bytes : Bytes} {references : List Str}

theorem Loaded.parts (loaded : Loaded space store kappa bytes references) :
    bytesOf store kappa = bytes ∧ referencesOf space store kappa = references := by
  obtain ⟨present,_,typed⟩ := loaded
  have same : bytesOf store kappa = bytes := by
    rw [bytesOf,present]
    rfl
  exact ⟨same,by rw [referencesOf,same,typed]; rfl⟩

theorem fetch_ok : fetch store kappa = .ok bytes ↔ store kappa = .ok bytes := by
  unfold fetch
  split <;> simp_all

variable {s t : StorageGraphClosure} {depth : Nat}

theorem visit_ok : visit space store limits kappa depth s = .ok (references,t) ↔
    ∃ bytes,Loaded space store kappa bytes references ∧ s.readable.length < limits.maxObjects ∧ depth ≤ limits.maxDepth ∧
      s.resolvedBytes+bytes.length ≤ limits.maxResolvedBytes ∧ s.edgeCount+references.length ≤ limits.maxEdges ∧
      (depth = limits.maxDepth → references = []) ∧
      t = ⟨s.readable ++ [kappa],s.edgeCount+references.length,s.resolvedBytes+bytes.length,max s.maxDepth depth⟩ := by
  unfold visit
  constructor
  · intro ran
    split at ran
    · cases ran
    · split at ran
      · cases ran
      · rename_i room low
        obtain ⟨bytes,fetched,matched⟩ := Fallible.bind_ok ran
        split at matched
        · cases matched
        · split at matched
          · cases matched
          · rename_i address light
            obtain ⟨refs,typed,counted⟩ := Fallible.bind_ok matched
            split at counted
            · cases counted
            · split at counted
              · cases counted
              · rename_i sparse shallow; cases counted
                refine ⟨bytes,⟨fetch_ok.mp fetched,not_not.mp address,typed⟩,by omega,by omega,by omega,by omega,fun same => ?_,rfl⟩
                by_contra more
                exact shallow ⟨same,more⟩
  · rintro ⟨bytes,⟨present,address,typed⟩,room,low,few,fit,shallow,rfl⟩
    have bound : ¬limits.maxObjects ≤ s.readable.length := by omega
    have deep : ¬limits.maxDepth < depth := by omega
    have heavy : ¬limits.maxResolvedBytes < s.resolvedBytes+bytes.length := by omega
    have many : ¬limits.maxEdges < s.edgeCount+references.length := by omega
    have leaf : ¬(depth = limits.maxDepth ∧ references ≠ []) := fun both => both.2 (shallow both.1)
    rw [if_neg bound,if_neg deep,Fallible.ok_bind (fetch_ok.mpr present),if_neg (not_not.mpr address),if_neg heavy,
      Fallible.ok_bind typed,if_neg many,if_neg leaf]

structure Walked (space : SpaceCrate) (store : Str → Except LiveError Bytes) (limits : StorageGraphLimits) (roots : List Str)
    (queue : List (Str × Nat)) (seen : List Str) (s : StorageGraphClosure) : Prop where
  levels : Levels (referencesOf space store) roots queue seen
  readable : s.readable = seen
  counted : s.edgeCount = edges space store seen
  weighed : s.resolvedBytes = size store seen
  within : Within space store limits seen
  loaded : ∀ kappa ∈ seen,∃ bytes references,Loaded space store kappa bytes references
  shallow : ∀ kappa ∈ seen,∀ depth,Least (referencesOf space store) roots depth kappa →
    depth ≤ limits.maxDepth ∧ (depth = limits.maxDepth → referencesOf space store kappa = []) ∧ depth ≤ s.maxDepth
  deepest : s.maxDepth = 0 ∨ ∃ kappa ∈ seen,Least (referencesOf space store) roots s.maxDepth kappa

variable {next : Str → List Str}

theorem least_unique (one : Least next roots a kappa) (other : Least next roots b kappa) :
    a = b := Nat.le_antisymm (one.2 b other.1) (other.2 a one.1)

theorem Walked.start : Walked space store limits roots (roots.map fun root => (root,0)) [] ⟨[],0,0,0⟩ where
  levels := .start
  readable := rfl
  counted := rfl
  weighed := rfl
  within := ⟨Nat.zero_le _,Nat.zero_le _,Nat.zero_le _⟩
  loaded kappa member := by cases member
  shallow kappa member := by cases member
  deepest := .inl rfl

variable {rest : List (Str × Nat)} {seen : List Str}

theorem Walked.skip (walked : Walked space store limits roots ((kappa,depth) :: rest) seen s) (met : kappa ∈ seen) :
    Walked space store limits roots rest seen s := {walked with levels := walked.levels.skip met}

theorem Walked.visited (walked : Walked space store limits roots ((kappa,depth) :: rest) seen s) (fresh : kappa ∉ seen)
    (ran : visit space store limits kappa depth s = .ok (references,t)) :
    Walked space store limits roots (rest ++ references.map fun succ => (succ,depth+1)) (seen ++ [kappa]) t := by
  obtain ⟨bytes,loaded,room,low,light,sparse,leaf,rfl⟩ := visit_ok.mp ran
  obtain ⟨heavy,named⟩ := loaded.parts
  have least := walked.levels.least fresh
  have levels := walked.levels.push fresh
  rw [named] at levels
  have edges_ : edges space store (seen ++ [kappa]) = edges space store seen+references.length := by
    simp [edges,named]
  have size_ : size store (seen ++ [kappa]) = size store seen+bytes.length := by
    simp [size,heavy]
  have length := walked.readable
  refine ⟨levels,?_,?_,?_,⟨?_,?_,?_⟩,?_,?_,?_⟩
  · rw [length]
  · rw [edges_,walked.counted]
  · rw [size_,walked.weighed]
  · rw [length_append,length_singleton,←length]
    exact room
  · rw [edges_,←walked.counted]
    exact sparse
  · rw [size_,←walked.weighed]
    exact light
  · intro other member
    rcases mem_append.mp member with old | new
    · exact walked.loaded other old
    · rw [mem_singleton.mp new]
      exact ⟨bytes,references,loaded⟩
  · intro other member d shortest
    rcases mem_append.mp member with old | new
    · obtain ⟨within,flat,seen_⟩ := walked.shallow other old d shortest
      exact ⟨within,flat,Nat.le_trans seen_ (Nat.le_max_left _ _)⟩
    · rw [mem_singleton.mp new] at shortest ⊢
      rw [least_unique shortest least]
      exact ⟨low,fun same => named.trans (leaf same),Nat.le_max_right _ _⟩
  · rcases Nat.le_total s.maxDepth depth with deeper | higher
    · right
      refine ⟨kappa,mem_append_right _ mem_cons_self,?_⟩
      dsimp only
      rw [Nat.max_eq_right deeper]
      exact least
    · dsimp only
      rw [Nat.max_eq_left higher]
      exact walked.deepest.imp id fun ⟨other,member,there⟩ => ⟨other,mem_append_left _ member,there⟩

theorem walk_shows : match walk (visit space store limits) (limits.maxObjects+1) (roots.map fun root => (root,0)) [] ⟨[],0,0,0⟩ with
    | .ok (seen,c) => Walked space store limits roots [] seen c
    | .error e => ∃ kappa depth rest seen s,Walked space store limits roots ((kappa,depth) :: rest) seen s ∧ kappa ∉ seen ∧
        visit space store limits kappa depth s = .error e := by
  have shown := @walk_rule _ _ _ _ (visit space store limits) (Walked space store limits roots)
    (fun _ _ _ _ _ walked met => walked.skip met)
    (fun _ _ _ _ _ _ _ walked fresh ran => walked.visited fresh ran)
    (limits.maxObjects+1) _ [] _ .start
  revert shown
  cases walk (visit space store limits) (limits.maxObjects+1) (roots.map fun root => (root,0)) [] ⟨[],0,0,0⟩ with
  | error e => exact id
  | ok both =>
    rintro ⟨left,walked,rfl | full⟩
    · exact walked
    · have few := walked.within.few
      simp only [full,length_nil] at few
      omega

variable {c : StorageGraphClosure}

theorem resolve_ok : resolveStorageGraph space store limits roots = .ok c ↔
    roots ≠ [] ∧ (0 < limits.maxObjects ∧ 0 < limits.maxEdges ∧ 0 < limits.maxResolvedBytes) ∧
      ∃ seen,walk (visit space store limits) (limits.maxObjects+1) (roots.map fun root => (root,0)) [] ⟨[],0,0,0⟩ = .ok (seen,c) := by
  unfold resolveStorageGraph
  split
  · rename_i empty
    exact ⟨fun ran => (by cases ran),fun both => absurd empty both.1⟩
  · rename_i started
    split
    · rename_i zero
      refine ⟨fun ran => (by cases ran),fun both => ?_⟩
      obtain ⟨_,nonzero,_⟩ := both
      omega
    · rename_i nonzero
      constructor
      · intro ran
        refine ⟨started,by omega,?_⟩
        cases walked : walk (visit space store limits) (limits.maxObjects+1) (roots.map fun root => (root,0)) [] ⟨[],0,0,0⟩ with
        | error e => rw [walked] at ran; cases ran
        | ok both =>
          rw [walked] at ran; cases ran
          exact ⟨both.1,rfl⟩
      · rintro ⟨_,_,seen,walked⟩
        rw [walked]; rfl

theorem resolve_walked (ran : resolveStorageGraph space store limits roots = .ok c) :
    Walked space store limits roots [] c.readable c := by
  obtain ⟨_,_,seen,walked⟩ := resolve_ok.mp ran
  have shown := @walk_shows space store limits roots
  rw [walked] at shown
  exact shown.readable ▸ shown

theorem sum_le_of_subperm {few many : List Str} (part : few.Subperm many) (f : Str → Nat) : (few.map f).sum ≤ (many.map f).sum := by
  obtain ⟨order,same,sub⟩ := part
  rw [←(same.map f).sum_eq]
  exact (sub.map f).sum_le_sum fun _ _ => Nat.zero_le _

theorem Within.mono {few many : List Str} (within : Within space store limits many) (distinct : few.Nodup) (part : few ⊆ many) :
    Within space store limits few := by
  have order := subperm_of_subset distinct part
  exact ⟨order.length_le.trans within.few,(sum_le_of_subperm order _).trans within.sparse,(sum_le_of_subperm order _).trans within.light⟩

theorem Resolvable.depth_le (resolvable : Resolvable space store limits roots)
    (least : Least (referencesOf space store) roots depth kappa) : depth ≤ limits.maxDepth := by
  by_contra past
  obtain ⟨there,lowest⟩ := least
  cases there with
  | root member => omega
  | @step n before _ there member =>
    have first : Least (referencesOf space store) roots n before :=
      ⟨there,fun m other => Nat.le_of_succ_le_succ (lowest _ (.step other member))⟩
    rw [resolvable.shallow before n first (by omega)] at member
    cases member

theorem resolve_iff : (∃ c,resolveStorageGraph space store limits roots = .ok c) ↔ Resolvable space store limits roots := by
  constructor
  · rintro ⟨c,ran⟩
    have walked := resolve_walked ran
    obtain ⟨started,nonzero,_⟩ := resolve_ok.mp ran
    refine ⟨started,nonzero,fun kappa there => ?_,⟨c.readable,walked.levels.distinct,fun kappa => walked.levels.closed,walked.within⟩,
      fun kappa depth least past => ?_⟩
    · exact walked.loaded kappa (walked.levels.closed.mpr there)
    · obtain ⟨low,leaf,_⟩ := walked.shallow kappa (walked.levels.closed.mpr ⟨depth,least.1⟩) depth least
      exact leaf (Nat.le_antisymm low past)
  · intro resolvable
    have shown := @walk_shows space store limits roots
    split at shown
    · rename_i seen c walked
      exact ⟨c,resolve_ok.mpr ⟨resolvable.started,resolvable.nonzero,seen,walked⟩⟩
    · obtain ⟨kappa,depth,rest,seen,s,walked,fresh,failed⟩ := shown
      exfalso
      have least := walked.levels.least fresh
      obtain ⟨bytes,references,loaded⟩ := resolvable.loaded kappa ⟨depth,least.1⟩
      obtain ⟨heavy,named⟩ := loaded.parts
      obtain ⟨all,_,exactly,fits⟩ := resolvable.totals
      have within : Within space store limits (seen ++ [kappa]) := by
        refine fits.mono (walked.levels.push fresh).distinct fun other member => (exactly other).mpr ?_
        obtain ⟨shortest,lowest,_⟩ := (walked.levels.push fresh).successors_met other member
        exact ⟨shortest,lowest.1⟩
      obtain ⟨few,sparse,light⟩ := within
      simp only [length_append,length_singleton] at few
      simp only [edges,map_append,map_cons,map_nil,sum_append,sum_singleton,named] at sparse
      simp only [size,map_append,map_cons,map_nil,sum_append,sum_singleton,heavy] at light
      have passes : ∃ t,visit space store limits kappa depth s = .ok (references,t) := by
        refine ⟨_,visit_ok.mpr ⟨bytes,loaded,?_,resolvable.depth_le least,?_,?_,fun same => ?_,rfl⟩⟩
        · rw [walked.readable]; exact few
        · rw [walked.weighed]; exact light
        · rw [walked.counted]; exact sparse
        · exact named.symm.trans (resolvable.shallow kappa depth least (Nat.le_of_eq same.symm))
      obtain ⟨t,passes⟩ := passes
      rw [passes] at failed
      cases failed

variable {others : List Str}

theorem At.same (same : ∀ kappa,kappa ∈ roots ↔ kappa ∈ others)
    (there : At next roots n kappa) : At next others n kappa := by
  induction there with
  | root member => exact .root ((same _).mp member)
  | step _ member ih => exact .step ih member

theorem least_same (same : ∀ kappa,kappa ∈ roots ↔ kappa ∈ others) :
    Least next roots n kappa ↔ Least next others n kappa :=
  ⟨fun least => ⟨At.same same least.1,fun m there => least.2 m (At.same (fun kappa => (same kappa).symm) there)⟩,
    fun least => ⟨At.same (fun kappa => (same kappa).symm) least.1,fun m there => least.2 m (At.same same there)⟩⟩

theorem reach_same (same : ∀ kappa,kappa ∈ roots ↔ kappa ∈ others) :
    Reachable space store roots kappa ↔ Reachable space store others kappa :=
  exists_congr fun _ => ⟨At.same same,At.same fun kappa => (same kappa).symm⟩

theorem Resolvable.same (same : ∀ kappa,kappa ∈ roots ↔ kappa ∈ others)
    (resolvable : Resolvable space store limits roots) : Resolvable space store limits others where
  started := by
    obtain ⟨root,member⟩ := exists_mem_of_ne_nil roots resolvable.started
    exact ne_nil_of_mem ((same root).mp member)
  nonzero := resolvable.nonzero
  loaded kappa there := resolvable.loaded kappa ((reach_same same).mpr there)
  totals := by
    obtain ⟨all,distinct,exactly,fits⟩ := resolvable.totals
    exact ⟨all,distinct,fun kappa => (exactly kappa).trans (reach_same same),fits⟩
  shallow kappa depth least := resolvable.shallow kappa depth ((least_same same).mpr least)

theorem Walked.deepest_least (walked : Walked space store limits roots [] seen c)
    (started : roots ≠ []) : ∃ kappa ∈ seen,Least (referencesOf space store) roots c.maxDepth kappa := by
  rcases walked.deepest with zero | found
  · obtain ⟨root,member⟩ := exists_mem_of_ne_nil roots started
    rw [zero]
    exact ⟨root,walked.levels.closed.mpr ⟨0,.root member⟩,.root member,fun n _ => Nat.zero_le n⟩
  · exact found

-- The closure of a graph that is resolved, when one is, and that the order of the
-- roots and their repetition do not matter.
theorem storage_closed (space : SpaceCrate) (store : Str → Except LiveError Bytes) (limits : StorageGraphLimits) (roots : List Str) :
    (∀ c,resolveStorageGraph space store limits roots = .ok c →
      c.readable.Nodup ∧ (∀ kappa,kappa ∈ c.readable ↔ Reachable space store roots kappa) ∧
      (∀ kappa ∈ c.readable,∃ bytes references,Loaded space store kappa bytes references) ∧
      c.edgeCount = edges space store c.readable ∧ c.resolvedBytes = size store c.readable ∧
      (∃ kappa ∈ c.readable,Least (referencesOf space store) roots c.maxDepth kappa) ∧
      (∀ kappa depth,Least (referencesOf space store) roots depth kappa → depth ≤ c.maxDepth) ∧
      Within space store limits c.readable ∧ c.maxDepth ≤ limits.maxDepth) ∧
    (roots ≠ [] → 0 < limits.maxObjects ∧ 0 < limits.maxEdges ∧ 0 < limits.maxResolvedBytes →
      Fitting space store limits roots → ∃ c,resolveStorageGraph space store limits roots = .ok c) ∧
    ∀ others : List Str,(∀ kappa,kappa ∈ roots ↔ kappa ∈ others) →
      ((∃ c,resolveStorageGraph space store limits roots = .ok c) ↔ ∃ d,resolveStorageGraph space store limits others = .ok d) ∧
      ∀ c d,resolveStorageGraph space store limits roots = .ok c → resolveStorageGraph space store limits others = .ok d →
        (∀ kappa,kappa ∈ c.readable ↔ kappa ∈ d.readable) ∧ c.edgeCount = d.edgeCount ∧ c.resolvedBytes = d.resolvedBytes := by
  refine ⟨fun c ran => ?_,fun started nonzero ⟨loaded,totals,bounded⟩ => ?_,fun others same => ⟨?_,fun c d one other => ?_⟩⟩
  · have walked := resolve_walked ran
    obtain ⟨kappa,member,deepest⟩ := walked.deepest_least (resolve_ok.mp ran).1
    refine ⟨walked.levels.distinct,fun kappa => walked.levels.closed,walked.loaded,walked.counted,walked.weighed,
      ⟨kappa,member,deepest⟩,fun other depth least => ?_,walked.within,(walked.shallow kappa member _ deepest).1⟩
    exact (walked.shallow other (walked.levels.closed.mpr ⟨depth,least.1⟩) depth least).2.2
  · refine resolve_iff.mpr ⟨started,nonzero,loaded,totals,fun kappa depth least past => ?_⟩
    by_contra more
    obtain ⟨succ,member⟩ := exists_mem_of_ne_nil _ more
    have := bounded succ (depth+1) (.step least.1 member)
    omega
  · rw [resolve_iff,resolve_iff]
    exact ⟨Resolvable.same same,Resolvable.same fun kappa => (same kappa).symm⟩
  · have left := resolve_walked one
    have right := resolve_walked other
    have members (kappa) : kappa ∈ c.readable ↔ kappa ∈ d.readable :=
      left.levels.closed.trans ((reach_same same).trans right.levels.closed.symm)
    have order : c.readable.Perm d.readable := (perm_ext_iff_of_nodup left.levels.distinct right.levels.distinct).mpr members
    refine ⟨members,?_,?_⟩
    · rw [left.counted,right.counted]
      exact (order.map _).sum_eq
    · rw [left.weighed,right.weighed]
      exact (order.map _).sum_eq

-- No root, and a limit of zero edges where the graph has none: both are refused.
theorem unlimited_refused :
    (∃ (space : SpaceCrate) (store : Str → Except LiveError Bytes) (limits : StorageGraphLimits),
      (0 < limits.maxObjects ∧ 0 < limits.maxEdges ∧ 0 < limits.maxResolvedBytes) ∧ Fitting space store limits [] ∧
      ∀ c,resolveStorageGraph space store limits [] ≠ .ok c) ∧
    ∃ (space : SpaceCrate) (store : Str → Except LiveError Bytes) (limits : StorageGraphLimits) (roots : List Str),
      roots ≠ [] ∧ limits.maxEdges = 0 ∧ Fitting space store limits roots ∧
      ∀ c,resolveStorageGraph space store limits roots ≠ .ok c := by
  let space : SpaceCrate := ⟨fun _ => ['a'],fun _ => none⟩
  let store : Str → Except LiveError Bytes := fun _ => .ok [1]
  have leaf (kappa) : referencesOf space store kappa = [] := rfl
  have only (roots kappa n) (there : At (referencesOf space store) roots n kappa) : n = 0 ∧ kappa ∈ roots := by
    cases there with
    | root member => exact ⟨rfl,member⟩
    | step _ member => rw [leaf] at member; cases member
  have reached (roots kappa) : Reachable space store roots kappa ↔ kappa ∈ roots :=
    ⟨fun ⟨n,there⟩ => (only roots kappa n there).2,fun member => ⟨0,.root member⟩⟩
  constructor
  · refine ⟨space,store,.default,by decide,⟨fun kappa there => ?_,⟨[],.nil,fun kappa => (reached [] kappa).symm,by decide,by decide,by decide⟩,
      fun kappa n there => ?_⟩,fun c ran => (by cases ran)⟩
    · cases (reached [] kappa).mp there
    · rw [(only [] kappa n there).1]
      exact Nat.zero_le _
  · refine ⟨space,store,{StorageGraphLimits.default with maxEdges := 0},[['a']],by decide,rfl,⟨fun kappa there => ?_,
      ⟨[['a']],nodup_singleton _,fun kappa => (reached [['a']] kappa).symm,by decide,by decide,by decide⟩,fun kappa n there => ?_⟩,
      fun c ran => (by cases ran)⟩
    · rw [mem_singleton.mp ((reached [['a']] kappa).mp there)]
      exact ⟨[1],[],rfl,rfl,rfl⟩
    · rw [(only [['a']] kappa n there).1]
      exact Nat.zero_le _

theorem at_append {n : Nat} : At next (roots ++ others) n kappa ↔ At next roots n kappa ∨ At next others n kappa := by
  constructor
  · intro there
    induction there with
    | root member => exact (mem_append.mp member).imp .root .root
    | step _ member ih => exact ih.imp (.step · member) (.step · member)
  · rintro (there | there)
    · induction there with
      | root member => exact .root (mem_append_left _ member)
      | step _ member ih => exact .step ih member
    · induction there with
      | root member => exact .root (mem_append_right _ member)
      | step _ member ih => exact .step ih member

theorem least_append {n : Nat} (least : Least next (roots ++ others) n kappa) : Least next roots n kappa ∨ Least next others n kappa :=
  (at_append.mp least.1).imp (fun there => ⟨there,fun m low => least.2 m (at_append.mpr (.inl low))⟩)
    fun there => ⟨there,fun m low => least.2 m (at_append.mpr (.inr low))⟩

-- Two graphs that resolve by themselves resolve together exactly when their union is
-- within the limits: only what the second adds is counted, and no object lies deeper.
theorem closures_join {c d : StorageGraphClosure} (one : resolveStorageGraph space store limits roots = .ok c)
    (other : resolveStorageGraph space store limits others = .ok d) :
    let added := d.readable.filter (· ∉ c.readable)
    ((∃ e,resolveStorageGraph space store limits (roots ++ others) = .ok e) ↔ Within space store limits (c.readable ++ added)) ∧
    ∀ e,resolveStorageGraph space store limits (roots ++ others) = .ok e → e.readable.Perm (c.readable ++ added) ∧
      e.edgeCount = c.edgeCount+edges space store added ∧ e.resolvedBytes = c.resolvedBytes+size store added ∧
      e.maxDepth ≤ max c.maxDepth d.maxDepth := by
  intro added
  have left := resolve_walked one
  have right := resolve_walked other
  have reach (kappa) : Reachable space store (roots ++ others) kappa ↔ Reachable space store roots kappa ∨ Reachable space store others kappa :=
    (exists_congr fun _ => at_append).trans exists_or
  have union (kappa) : kappa ∈ c.readable ++ added ↔ Reachable space store (roots ++ others) kappa := by
    have here : kappa ∈ c.readable ↔ Reachable space store roots kappa := left.levels.closed
    have there : kappa ∈ d.readable ↔ Reachable space store others kappa := right.levels.closed
    simp only [added,mem_append,mem_filter,decide_eq_true_eq,reach,←here,←there]
    tauto
  have distinct : (c.readable ++ added).Nodup := left.levels.distinct.append (right.levels.distinct.filter _) fun kappa here there =>
    of_decide_eq_true (mem_filter.mp there).2 here
  have whole (e) (ran : resolveStorageGraph space store limits (roots ++ others) = .ok e) : e.readable.Perm (c.readable ++ added) :=
    (perm_ext_iff_of_nodup (resolve_walked ran).levels.distinct distinct).mpr fun kappa =>
      (resolve_walked ran).levels.closed.trans (union kappa).symm
  have first := resolve_iff.mp ⟨c,one⟩
  have second := resolve_iff.mp ⟨d,other⟩
  refine ⟨⟨fun ⟨e,ran⟩ => (resolve_walked ran).within.mono distinct (whole e ran).symm.subset,fun within => ?_⟩,fun e ran => ?_⟩
  · refine resolve_iff.mpr ⟨append_ne_nil_of_left_ne_nil first.started _,first.nonzero,fun kappa there => ?_,
      ⟨_,distinct,union,within⟩,fun kappa depth least past => ?_⟩
    · exact ((reach kappa).mp there).elim (first.loaded kappa) (second.loaded kappa)
    · exact (least_append least).elim (first.shallow kappa depth · past) (second.shallow kappa depth · past)
  · have joined := resolve_walked ran
    have total (weigh : Str → Nat) : (e.readable.map weigh).sum = (c.readable.map weigh).sum+(added.map weigh).sum := by
      rw [((whole e ran).map weigh).sum_eq,map_append,sum_append]
    refine ⟨whole e ran,?_,?_,?_⟩
    · rw [joined.counted,left.counted]
      exact total _
    · rw [joined.weighed,left.weighed]
      exact total _
    · obtain ⟨kappa,member,deepest⟩ := joined.deepest_least (append_ne_nil_of_left_ne_nil first.started _)
      obtain least | least := least_append deepest
      · exact le_max_of_le_left (left.shallow kappa (left.levels.closed.mpr ⟨_,least.1⟩) _ least).2.2
      · exact le_max_of_le_right (right.shallow kappa (right.levels.closed.mpr ⟨_,least.1⟩) _ least).2.2

def twoSpace : SpaceCrate := ⟨fun bytes => if bytes = [1] then ['a'] else ['b'],fun _ => none⟩
def twoStore (kappa : Str) : Except LiveError Bytes := .ok (if kappa = ['a'] then [1] else [2])

theorem two_join : ∃ e,resolveStorageGraph twoSpace twoStore ⟨0,2,1,2⟩ [['a'],['b']] = .ok e :=
  (@closures_join twoSpace twoStore ⟨0,2,1,2⟩ [['a']] [['b']] ⟨[['a']],0,1,0⟩ ⟨[['b']],0,1,0⟩ rfl rfl).1.mpr
    ⟨by decide,by decide,by decide⟩

end Proofs
end HologramLive.StorageGraph
