import Mathlib
namespace Breadth
variable {ι σ ε : Type} [DecidableEq ι]

-- A visit handles one item at its depth: it fails, or it names the items to queue
-- next and moves the state on.
abbrev Visit (ι σ ε : Type) := ι → Nat → σ → Except ε (List ι × σ)

-- A breadth-first loop over a queue. An item seen before is skipped; `fuel` bounds
-- the visits.
def walk (visit : Visit ι σ ε) : Nat → List (ι × Nat) → List ι → σ → Except ε (List ι × σ)
  | 0,_,seen,state => .ok (seen,state)
  | fuel+1,queue,seen,state =>
    match queue.dropWhile fun entry => seen.contains entry.1 with
    | [] => .ok (seen,state)
    | (item,depth) :: rest => match visit item depth state with
      | .error e => .error e
      | .ok (next,after) => walk visit fuel (rest ++ next.map fun succ => (succ,depth+1)) (seen ++ [item]) after

-- An item at the end of a path of so many steps, and of none that is shorter.
inductive At (next : ι → List ι) (roots : List ι) : Nat → ι → Prop
  | root (member : item ∈ roots) : At next roots 0 item
  | step (there : At next roots n item) (member : succ ∈ next item) : At next roots (n+1) succ
def Reach (next : ι → List ι) (roots : List ι) (item : ι) : Prop := ∃ n,At next roots n item
def Least (next : ι → List ι) (roots : List ι) (depth : Nat) (item : ι) : Prop :=
  At next roots depth item ∧ ∀ n,At next roots n item → depth ≤ n

-- The queue is in the order of its depths, which differ by one at most, and holds
-- what is missing of the roots and of the successors of what was seen.
structure Levels (next : ι → List ι) (roots : List ι) (queue : List (ι × Nat)) (seen : List ι) : Prop where
  queued : ∀ entry ∈ queue,At next roots entry.2 entry.1
  sorted : queue.Pairwise fun a b => a.2 ≤ b.2 ∧ b.2 ≤ a.2+1
  roots_met : ∀ item ∈ roots,item ∈ seen ∨ (item,0) ∈ queue
  successors_met : ∀ item ∈ seen,∃ depth,Least next roots depth item ∧ ∀ succ ∈ next item,succ ∈ seen ∨ (succ,depth+1) ∈ queue
  distinct : seen.Nodup

section Levels
variable {next : ι → List ι} {roots : List ι} {queue rest : List (ι × Nat)} {seen : List ι} {item : ι} {depth : Nat}

omit [DecidableEq ι] in
theorem Levels.start : Levels next roots (roots.map fun root => (root,0)) [] where
  queued entry member := by
    obtain ⟨root,listed,rfl⟩ := List.mem_map.mp member
    exact .root listed
  sorted := by
    rw [List.pairwise_map]
    exact List.pairwise_iff_forall_sublist.mpr fun _ => ⟨Nat.le_refl _,Nat.le_succ _⟩
  roots_met item member := .inr (List.mem_map_of_mem member)
  successors_met item member := by cases member
  distinct := .nil

omit [DecidableEq ι] in
theorem Levels.skip (levels : Levels next roots ((item,depth) :: rest) seen) (met : item ∈ seen) :
    Levels next roots rest seen where
  queued entry member := levels.queued entry (List.mem_cons_of_mem _ member)
  sorted := (List.pairwise_cons.mp levels.sorted).2
  roots_met other member := by
    rcases levels.roots_met other member with there | there
    · exact .inl there
    · rcases List.mem_cons.mp there with same | later
      · cases same; exact .inl met
      · exact .inr later
  successors_met other member := by
    obtain ⟨least,shortest,met'⟩ := levels.successors_met other member
    refine ⟨least,shortest,fun succ after => ?_⟩
    rcases met' succ after with there | there
    · exact .inl there
    · rcases List.mem_cons.mp there with same | later
      · cases same; exact .inl met
      · exact .inr later
  distinct := levels.distinct

omit [DecidableEq ι] in
theorem Levels.ahead (levels : Levels next roots queue seen) (there : At next roots n item) (fresh : item ∉ seen) :
    ∃ entry ∈ queue,entry.2 ≤ n := by
  induction there with
  | root member => exact ⟨_,(levels.roots_met _ member).resolve_left fresh,Nat.le_refl _⟩
  | @step n before succ there member ih =>
    by_cases met : before ∈ seen
    · obtain ⟨depth,least,successors⟩ := levels.successors_met before met
      exact ⟨_,(successors succ member).resolve_left fresh,Nat.succ_le_succ (least.2 _ there)⟩
    · obtain ⟨entry,queued,low⟩ := ih met
      exact ⟨entry,queued,Nat.le_succ_of_le low⟩

omit [DecidableEq ι] in
theorem Levels.least (levels : Levels next roots ((item,depth) :: rest) seen) (fresh : item ∉ seen) :
    Least next roots depth item := by
  refine ⟨levels.queued (item,depth) List.mem_cons_self,fun n there => ?_⟩
  obtain ⟨entry,queued,low⟩ := levels.ahead there fresh
  rcases List.mem_cons.mp queued with rfl | later
  · exact low
  · exact Nat.le_trans ((List.pairwise_cons.mp levels.sorted).1 entry later).1 low

omit [DecidableEq ι] in
theorem Levels.push (levels : Levels next roots ((item,depth) :: rest) seen) (fresh : item ∉ seen) :
    Levels next roots (rest ++ (next item).map fun succ => (succ,depth+1)) (seen ++ [item]) := by
  obtain ⟨first,later⟩ := List.pairwise_cons.mp levels.sorted
  have least := levels.least fresh
  refine ⟨?_,?_,?_,?_,?_⟩
  · intro entry member
    rcases List.mem_append.mp member with old | new
    · exact levels.queued entry (List.mem_cons_of_mem _ old)
    · obtain ⟨succ,listed,rfl⟩ := List.mem_map.mp new
      exact .step least.1 listed
  · refine List.pairwise_append.mpr ⟨later,?_,fun a old b new => ?_⟩
    · rw [List.pairwise_map]
      exact List.pairwise_iff_forall_sublist.mpr fun _ => ⟨Nat.le_refl _,Nat.le_succ _⟩
    · obtain ⟨succ,_,rfl⟩ := List.mem_map.mp new
      have near := first a old
      exact ⟨near.2,Nat.succ_le_succ near.1⟩
  · intro other member
    rcases levels.roots_met other member with met | met
    · exact .inl (List.mem_append_left _ met)
    · rcases List.mem_cons.mp met with same | old
      · cases same; exact .inl (List.mem_append_right _ List.mem_cons_self)
      · exact .inr (List.mem_append_left _ old)
  · intro other member
    rcases List.mem_append.mp member with old | new
    · obtain ⟨shortest,lowest,met⟩ := levels.successors_met other old
      refine ⟨shortest,lowest,fun succ after => ?_⟩
      rcases met succ after with there | there
      · exact .inl (List.mem_append_left _ there)
      · rcases List.mem_cons.mp there with same | older
        · cases same; exact .inl (List.mem_append_right _ List.mem_cons_self)
        · exact .inr (List.mem_append_left _ older)
    · rw [List.mem_singleton.mp new]
      exact ⟨depth,least,fun succ after => .inr (List.mem_append_right _ (List.mem_map_of_mem after))⟩
  · rw [List.nodup_append]
    refine ⟨levels.distinct,List.nodup_singleton item,fun a old b new => ?_⟩
    rw [List.mem_singleton.mp new]
    rintro rfl
    exact fresh old

omit [DecidableEq ι] in
theorem Levels.closed (levels : Levels next roots [] seen) : item ∈ seen ↔ Reach next roots item := by
  constructor
  · intro met
    obtain ⟨depth,least,_⟩ := levels.successors_met item met
    exact ⟨depth,least.1⟩
  · rintro ⟨n,there⟩
    by_contra fresh
    obtain ⟨entry,queued,_⟩ := levels.ahead there fresh
    cases queued

end Levels

section Walks
variable {visit : Visit ι σ ε} {motive : List (ι × Nat) → List ι → σ → Prop}

theorem skip_seen (skip : ∀ item depth rest seen state,motive ((item,depth) :: rest) seen state → item ∈ seen → motive rest seen state) :
    ∀ queue seen state,motive queue seen state → motive (queue.dropWhile fun entry => seen.contains entry.1) seen state := by
  intro queue
  induction queue with
  | nil => exact fun _ _ start => start
  | cons entry rest ih =>
    intro seen state start
    by_cases met : entry.1 ∈ seen
    · simpa [List.dropWhile,met] using ih seen state (skip entry.1 entry.2 rest seen state start met)
    · simpa [List.dropWhile,met] using start

theorem fresh_head {queue rest : List (ι × Nat)} {seen : List ι}
    (stopped : queue.dropWhile (fun entry => seen.contains entry.1) = (item,depth) :: rest) : item ∉ seen := by
  have nonempty : queue.dropWhile (fun entry => seen.contains entry.1) ≠ [] := stopped ▸ List.cons_ne_nil _ _
  have head := List.head_dropWhile_not (fun entry : ι × Nat => seen.contains entry.1) nonempty
  simp only [stopped,List.head_cons] at head
  simpa using head

-- The loop rule. What a skip and a visit keep holds at the end, where nothing is
-- queued or the fuel is spent, and at the visit that fails.
theorem walk_rule
    (skip : ∀ item depth rest seen state,motive ((item,depth) :: rest) seen state → item ∈ seen → motive rest seen state)
    (visited : ∀ item depth rest seen state next after,motive ((item,depth) :: rest) seen state → item ∉ seen →
      visit item depth state = .ok (next,after) → motive (rest ++ next.map fun succ => (succ,depth+1)) (seen ++ [item]) after) :
    ∀ fuel queue seen state,motive queue seen state → match walk visit fuel queue seen state with
      | .ok (seen',final) => ∃ left,motive left seen' final ∧ (left = [] ∨ seen'.length = seen.length+fuel)
      | .error e => ∃ item depth rest seen' state',motive ((item,depth) :: rest) seen' state' ∧ item ∉ seen' ∧
          visit item depth state' = .error e := by
  intro fuel
  induction fuel with
  | zero => exact fun queue seen state start => ⟨queue,start,.inr rfl⟩
  | succ fuel ih =>
    intro queue seen state start
    have ready := skip_seen skip queue seen state start
    unfold walk
    cases stopped : queue.dropWhile fun entry => seen.contains entry.1 with
    | nil => exact ⟨[],stopped ▸ ready,.inl rfl⟩
    | cons entry rest =>
      obtain ⟨item,depth⟩ := entry
      rw [stopped] at ready
      dsimp only
      cases handled : visit item depth state with
      | error e => exact ⟨item,depth,rest,seen,state,ready,fresh_head stopped,handled⟩
      | ok both =>
        obtain ⟨next,after⟩ := both
        have later := ih _ _ _ (visited item depth rest seen state next after ready (fresh_head stopped) handled)
        dsimp only; split at later
        · obtain ⟨left,holds,ended⟩ := later
          refine ⟨left,holds,ended.imp id fun full => ?_⟩
          rw [full,List.length_append]; simp only [List.length_cons,List.length_nil]
          omega
        · exact later

end Walks
end Breadth
