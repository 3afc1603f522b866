import Mathlib
namespace Worklist
variable {ι σ ε : Type} [DecidableEq ι]

-- A visit handles one item: it fails, or it names the items to push next and
-- moves the state on.
abbrev Visit (ι σ ε : Type) := ι → σ → Except ε (List ι × σ)

def walk (visit : Visit ι σ ε) : Nat → List ι → List ι → σ → Except ε (List ι × σ)
  | 0,_,walked,state => .ok (walked,state)
  | fuel + 1,pending,walked,state =>
    match pending.dropWhile fun item => walked.contains item with
    | [] => .ok (walked,state)
    | item :: rest => match visit item state with
      | .error e => .error e
      | .ok (pushed,next) => walk visit fuel (pushed.reverse ++ rest) (item :: walked) next

variable {visit : Visit ι σ ε} {motive : List ι → List ι → σ → Prop}

open List

theorem skip_walked
    (skip : ∀ item rest walked state,motive (item :: rest) walked state → item ∈ walked → motive rest walked state) :
    ∀ pending walked state,motive pending walked state →
      motive (pending.dropWhile fun item => walked.contains item) walked state := by
  intro pending
  induction pending with
  | nil => exact fun _ _ start => start
  | cons item rest ih =>
    intro walked state start
    by_cases seen : item ∈ walked
    · simpa [dropWhile,seen] using ih walked state (skip item rest walked state start seen)
    · simpa [dropWhile,seen] using start

theorem fresh_head {pending walked : List ι}
    (stopped : pending.dropWhile (fun item => walked.contains item) = item :: rest) : item ∉ walked := by
  have nonempty : pending.dropWhile (fun item => walked.contains item) ≠ [] := stopped ▸ cons_ne_nil _ _
  have head := head_dropWhile_not (fun item => walked.contains item) nonempty
  simp only [stopped,head_cons] at head
  simpa using head

-- The loop rule. What holds at the start and is kept by a skip and by a visit
-- holds of what the loop returns; it stops with nothing pending or out of fuel.
theorem walk_rule
    (skip : ∀ item rest walked state,motive (item :: rest) walked state → item ∈ walked → motive rest walked state)
    (visited : ∀ item rest walked state pushed next,motive (item :: rest) walked state → item ∉ walked →
      visit item state = .ok (pushed,next) → motive (pushed.reverse ++ rest) (item :: walked) next) :
    ∀ fuel pending walked state walked' final,motive pending walked state →
      walk visit fuel pending walked state = .ok (walked',final) →
      ∃ left,motive left walked' final ∧ (left = [] ∨ walked'.length = walked.length + fuel) := by
  intro fuel
  induction fuel with
  | zero =>
    intro pending walked state walked' final start ran
    cases Except.ok.inj ran
    exact ⟨pending,start,.inr rfl⟩
  | succ fuel ih =>
    intro pending walked state walked' final start ran
    have ready := skip_walked skip pending walked state start
    unfold walk at ran
    split at ran
    · rename_i done
      cases Except.ok.inj ran
      exact ⟨[],done ▸ ready,.inl rfl⟩
    · rename_i item rest stopped
      split at ran
      · cases ran
      · rename_i pushed next handled
        have moved := visited item rest walked state pushed next (stopped ▸ ready) (fresh_head stopped) handled
        obtain ⟨left,holds,ended⟩ := ih _ _ _ _ _ moved ran
        refine ⟨left,holds,?_⟩
        rcases ended with rfl | full
        · exact .inl rfl
        · exact .inr (by simp only [length_cons] at full; omega)

theorem walk_error
    (skip : ∀ item rest walked state,motive (item :: rest) walked state → item ∈ walked → motive rest walked state)
    (visited : ∀ item rest walked state pushed next,motive (item :: rest) walked state → item ∉ walked →
      visit item state = .ok (pushed,next) → motive (pushed.reverse ++ rest) (item :: walked) next) :
    ∀ fuel pending walked state e,motive pending walked state → walk visit fuel pending walked state = .error e →
      ∃ item rest walked' state',motive (item :: rest) walked' state' ∧ visit item state' = .error e := by
  intro fuel
  induction fuel with
  | zero => intro _ _ _ _ _ ran; cases ran
  | succ fuel ih =>
    intro pending walked state e start ran
    have ready := skip_walked skip pending walked state start
    unfold walk at ran
    split at ran
    · cases ran
    · rename_i item rest stopped
      split at ran
      · rename_i e' failed; cases ran
        exact ⟨item,rest,walked,state,stopped ▸ ready,failed⟩
      · rename_i pushed next handled
        exact ih _ _ _ _ (visited item rest walked state pushed next (stopped ▸ ready) (fresh_head stopped) handled) ran

-- What the loop is for: the items reached from the roots.
inductive Reach (next : ι → List ι) (roots : List ι) : ι → Prop
  | root (member : item ∈ roots) : Reach next roots item
  | step (reached : Reach next roots item) (member : succ ∈ next item) : Reach next roots succ

-- Everything walked or pending is reached, and every successor of a walked item
-- is walked or pending. The count is what makes the fuel enough.
structure Tracks (next : ι → List ι) (roots : List ι) (pending walked : List ι) : Prop where
  pending_reached : ∀ item ∈ pending,Reach next roots item
  walked_reached : ∀ item ∈ walked,Reach next roots item
  roots_met : ∀ item ∈ roots,item ∈ walked ∨ item ∈ pending
  successors_met : ∀ item ∈ walked,∀ succ ∈ next item,succ ∈ walked ∨ succ ∈ pending
  distinct : walked.Nodup

variable {next : ι → List ι} {roots : List ι}

omit [DecidableEq ι] in
theorem Tracks.start : Tracks next roots roots.reverse [] where
  pending_reached item member := .root (mem_reverse.mp member)
  walked_reached item member := by cases member
  roots_met item member := .inr (mem_reverse.mpr member)
  successors_met item member := by cases member
  distinct := .nil

omit [DecidableEq ι] in
theorem Tracks.skip (tracks : Tracks next roots (item :: rest) walked) (seen : item ∈ walked) :
    Tracks next roots rest walked where
  pending_reached other member := tracks.pending_reached other (mem_cons_of_mem _ member)
  walked_reached := tracks.walked_reached
  roots_met other member := by
    rcases tracks.roots_met other member with met | met
    · exact .inl met
    · rcases mem_cons.mp met with rfl | later
      · exact .inl seen
      · exact .inr later
  successors_met other member succ after := by
    rcases tracks.successors_met other member succ after with met | met
    · exact .inl met
    · rcases mem_cons.mp met with rfl | later
      · exact .inl seen
      · exact .inr later
  distinct := tracks.distinct

omit [DecidableEq ι] in
theorem Tracks.push (tracks : Tracks next roots (item :: rest) walked) (fresh : item ∉ walked) :
    Tracks next roots ((next item).reverse ++ rest) (item :: walked) := by
  have reached := tracks.pending_reached item mem_cons_self
  refine ⟨?_,?_,?_,?_,nodup_cons.mpr ⟨fresh,tracks.distinct⟩⟩
  · intro other member
    rcases mem_append.mp member with pushed | later
    · exact .step reached (mem_reverse.mp pushed)
    · exact tracks.pending_reached other (mem_cons_of_mem _ later)
  · intro other member
    rcases mem_cons.mp member with rfl | before
    · exact reached
    · exact tracks.walked_reached other before
  · intro other member
    rcases tracks.roots_met other member with met | met
    · exact .inl (mem_cons_of_mem _ met)
    · rcases mem_cons.mp met with rfl | later
      · exact .inl mem_cons_self
      · exact .inr (mem_append_right _ later)
  · intro other member succ after
    rcases mem_cons.mp member with rfl | before
    · exact .inr (mem_append_left _ (mem_reverse.mpr after))
    · rcases tracks.successors_met other before succ after with met | met
      · exact .inl (mem_cons_of_mem _ met)
      · rcases mem_cons.mp met with rfl | later
        · exact .inl mem_cons_self
        · exact .inr (mem_append_right _ later)

-- With enough fuel the walked items are exactly the reached ones, and an
-- invariant of the visits holds of what is returned.
theorem walk_reach (next : ι → List ι) (candidates : List ι) (inv : List ι → σ → Prop)
    (pushes : ∀ item state pushed after,visit item state = .ok (pushed,after) → pushed = next item)
    (bounded : ∀ item,Reach next roots item → item ∈ candidates) (enough : candidates.length ≤ fuel)
    (start : inv [] state) (kept : ∀ item walked state pushed after,inv walked state → Reach next roots item →
      visit item state = .ok (pushed,after) → inv (item :: walked) after)
    (ran : walk visit fuel roots.reverse [] state = .ok (walked',final)) :
    (∀ item,item ∈ walked' ↔ Reach next roots item) ∧ inv walked' final := by
  let motive (pending walked : List ι) (s : σ) : Prop := Tracks next roots pending walked ∧ inv walked s
  obtain ⟨left,⟨tracks,holds⟩,ended⟩ := walk_rule (motive := motive)
    (fun item rest walked s held seen => ⟨held.1.skip seen,held.2⟩)
    (fun item rest walked s pushed after held fresh handled => by
      obtain rfl := pushes item s pushed after handled
      exact ⟨held.1.push fresh,kept item walked s _ after held.2
        (held.1.pending_reached item mem_cons_self) handled⟩)
    fuel roots.reverse [] state walked' final ⟨.start,start⟩ ran
  -- Out of fuel, every candidate has been walked, so nothing fresh is pending.
  have emptied : ∀ item ∈ left,item ∈ walked' := by
    intro item member
    rcases ended with rfl | full
    · cases member
    · by_contra fresh
      have longer : (item :: walked').Nodup := nodup_cons.mpr ⟨fresh,tracks.distinct⟩
      have inside : (item :: walked') ⊆ candidates := by
        intro other among
        rcases mem_cons.mp among with rfl | before
        · exact bounded _ (tracks.pending_reached _ member)
        · exact bounded _ (tracks.walked_reached _ before)
      have count := (subperm_of_subset longer inside).length_le
      simp only [length_cons,length_nil] at count full
      omega
  refine ⟨fun item => ⟨tracks.walked_reached item,fun reached => ?_⟩,holds⟩
  induction reached with
  | root member => exact (tracks.roots_met _ member).elim id (emptied _)
  | step _ member ih => exact (tracks.successors_met _ ih _ member).elim id (emptied _)

end Worklist
