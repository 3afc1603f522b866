import HologramLive.Lib.Tables
namespace Descent
open Std Tables List
variable {ι τ : Type} [Ord τ] [TransOrd τ] [LawfulEqOrd τ]

-- A tree of items. An item is called by its own names, says leaves, and has items
-- below it, each met by its key; `outer` are the names it has before it is read.
structure Tree (ι τ : Type) where
  key : ι → τ
  outer : ι → List τ
  own : ι → List τ
  leaves : ι → List τ
  below : ι → List ι
  keyed : ∀ item child,child ∈ below item → key child ∈ own child
  alike : ∀ parent child item,child ∈ below parent → key child ∈ own item →
    (∀ name ∈ own child,name ∈ own item) ∧ leaves child = leaves item ∧ below child = below item

def meetAll (met : KeySet τ) (names : List τ) : KeySet τ := names.foldl (fun met name => met.insert name) met

-- A depth-first walk that reads no item deeper than its bound, and goes below an
-- item whose key was not met before.
def walk (tree : Tree ι τ) : Nat → ι → KeySet τ → KeySet τ
  | 0,item,met => meetAll met (tree.outer item)
  | left + 1,item,met => (tree.below item).foldl (fun met child =>
      if tree.key child ∈ met then met else walk tree left child (met.insert (tree.key child)))
    (meetAll met (tree.own item ++ tree.leaves item))

theorem mem_meetAll {names : List τ} : name ∈ meetAll met names ↔ name ∈ met ∨ name ∈ names := by
  induction names generalizing met with
  | nil => simp [meetAll]
  | cons first rest ih =>
    have step : meetAll met (first :: rest) = meetAll (met.insert first) rest := rfl
    rw [step,ih,ExtTreeSet.mem_insert,Std.compare_eq_iff_eq,mem_cons]
    tauto

inductive Reaches (tree : Tree ι τ) : ι → τ → Prop
  | own (named : name ∈ tree.own item) : Reaches tree item name
  | leaf (said : name ∈ tree.leaves item) : Reaches tree item name
  | deeper (child : other ∈ tree.below item) (reached : Reaches tree other name) : Reaches tree item name

inductive Under (tree : Tree ι τ) (root : ι) : ι → Prop
  | root : Under tree root root
  | deeper (under : Under tree root item) (child : other ∈ tree.below item) : Under tree root other

-- No chain of items, none met twice, has one to read past the bound.
def Fits (tree : Tree ι τ) : Nat → List τ → ι → Prop
  | 0,_,item => tree.own item = tree.outer item ∧ tree.leaves item = [] ∧ tree.below item = []
  | left + 1,path,item => ∀ child ∈ tree.below item,tree.key child ∉ tree.own item ++ path →
      Fits tree left (tree.own item ++ path) child

def Apart (tree : Tree ι τ) (root : ι) : Prop :=
  ∀ item,Under tree root item → ∀ name ∈ tree.leaves item,∀ parent,Under tree root parent →
    ∀ child ∈ tree.below parent,tree.key child ≠ name

structure Closed (tree : Tree ι τ) (met : KeySet τ) (item : ι) : Prop where
  named : ∀ name ∈ tree.own item ++ tree.leaves item,name ∈ met
  below : ∀ child ∈ tree.below item,tree.key child ∈ met

section Sound
variable {tree : Tree ι τ} (outer_own : ∀ item,∀ name ∈ tree.outer item,name ∈ tree.own item)
include outer_own

theorem walk_sound (left : Nat) (item : ι) (met : KeySet τ) {name : τ} (found : name ∈ walk tree left item met) :
    name ∈ met ∨ Reaches tree item name := by
  induction left generalizing item met name with
  | zero =>
    rcases mem_meetAll.mp found with before | named
    · exact .inl before
    · exact .inr (.own (outer_own item name named))
  | succ left ih =>
    have visits (children : List ι) (listed : ∀ child ∈ children,child ∈ tree.below item) (met : KeySet τ) {name : τ}
        (found : name ∈ children.foldl (fun met child =>
          if tree.key child ∈ met then met else walk tree left child (met.insert (tree.key child))) met) :
        name ∈ met ∨ Reaches tree item name := by
      induction children generalizing met with
      | nil => exact .inl found
      | cons child rest more =>
        obtain ⟨here,others⟩ := forall_mem_cons.mp listed
        rcases more others _ found with stepped | reached
        · dsimp only at stepped; split at stepped
          · exact .inl stepped
          · rcases ih child _ stepped with inserted | reached
            · rw [ExtTreeSet.mem_insert,Std.compare_eq_iff_eq] at inserted
              rcases inserted with rfl | before
              · exact .inr (.deeper here (.own (tree.keyed item child here)))
              · exact .inl before
            · exact .inr (.deeper here reached)
        · exact .inr reached
    unfold walk at found
    rcases visits _ (fun _ member => member) _ found with start | reached
    · rcases mem_meetAll.mp start with before | named
      · exact .inl before
      · rcases mem_append.mp named with own | leaf
        · exact .inr (.own own)
        · exact .inr (.leaf leaf)
    · exact .inr reached

end Sound

section Complete
variable {tree : Tree ι τ} {root : ι}

omit [LawfulEqOrd τ] in
theorem Closed.mono (closed : Closed tree met item) (within : ∀ name ∈ met,name ∈ more) : Closed tree more item :=
  ⟨fun name member => within name (closed.named name member),fun child member => within _ (closed.below child member)⟩

structure Adds (tree : Tree ι τ) (root : ι) (met more : KeySet τ) : Prop where
  kept : ∀ name ∈ met,name ∈ more
  closes : ∀ parent,Under tree root parent → ∀ child ∈ tree.below parent,tree.key child ∈ more → tree.key child ∉ met →
    Closed tree more child

omit [LawfulEqOrd τ] in
theorem Adds.trans (first : Adds tree root met more) (second : Adds tree root more final) :
    Adds tree root met final := by
  refine ⟨fun name member => second.kept name (first.kept name member),fun parent under child below found fresh => ?_⟩
  by_cases met : tree.key child ∈ more
  · exact (first.closes parent under child below met fresh).mono second.kept
  · exact second.closes parent under child below found met

omit [LawfulEqOrd τ] in
theorem Closed.alike (closed : Closed tree met item) (below : child ∈ tree.below parent)
    (named : tree.key child ∈ tree.own item) : Closed tree met child := by
  obtain ⟨own,leaves,items⟩ := tree.alike parent child item below named
  refine ⟨fun name member => closed.named name ?_,fun other member => closed.below other (items ▸ member)⟩
  rcases mem_append.mp member with mine | said
  · exact mem_append_left _ (own name mine)
  · exact mem_append_right _ (leaves ▸ said)

theorem walk_closes (apart : Apart tree root) (left : Nat) (item : ι) (path : List τ) (met : KeySet τ)
    (under : Under tree root item) (fits : Fits tree left path item) (along : ∀ name ∈ path,name ∈ met) :
    Closed tree (walk tree left item met) item ∧ (∀ name ∈ met,name ∈ walk tree left item met) ∧
      ∀ parent,Under tree root parent → ∀ child ∈ tree.below parent,tree.key child ∈ walk tree left item met →
        tree.key child ∉ met → Closed tree (walk tree left item met) child := by
  induction left generalizing item path met with
  | zero =>
    obtain ⟨names,leaves,below⟩ := fits
    have closed : Closed tree (walk tree 0 item met) item := by
      refine ⟨fun name member => mem_meetAll.mpr (.inr ?_),fun child member => ?_⟩
      · rw [leaves,append_nil,names] at member; exact member
      · rw [below] at member; cases member
    refine ⟨closed,fun name before => mem_meetAll.mpr (.inl before),fun parent _ child listed found fresh => ?_⟩
    rcases mem_meetAll.mp found with before | named
    · exact absurd before fresh
    · exact closed.alike listed (names ▸ named)
  | succ left ih =>
    have start (name : τ) : name ∈ meetAll met (tree.own item ++ tree.leaves item) ↔
        name ∈ met ∨ name ∈ tree.own item ++ tree.leaves item := mem_meetAll
    -- One child after another; each walk starts from all that was met so far.
    have visits (children : List ι) (listed : ∀ child ∈ children,child ∈ tree.below item) (now : KeySet τ)
        (since : ∀ name ∈ tree.own item ++ path,name ∈ now) :
        (∀ child ∈ children,tree.key child ∈ children.foldl (fun met child =>
          if tree.key child ∈ met then met else walk tree left child (met.insert (tree.key child))) now) ∧
        Adds tree root now (children.foldl (fun met child =>
          if tree.key child ∈ met then met else walk tree left child (met.insert (tree.key child))) now) := by
      induction children generalizing now with
      | nil => exact ⟨fun _ none => (by cases none),fun _ member => member,fun _ _ _ _ found fresh => absurd found fresh⟩
      | cons child rest more =>
        obtain ⟨here,others⟩ := forall_mem_cons.mp listed
        rw [foldl_cons]
        by_cases met : tree.key child ∈ now
        · rw [if_pos met]
          obtain ⟨reached,adds⟩ := more others now since
          exact ⟨forall_mem_cons.mpr ⟨adds.kept _ met,reached⟩,adds⟩
        · rw [if_neg met]
          have fresh : tree.key child ∉ tree.own item ++ path := fun member => met (since _ member)
          have inserted (name : τ) : name ∈ now.insert (tree.key child) ↔ tree.key child = name ∨ name ∈ now := by
            rw [ExtTreeSet.mem_insert,Std.compare_eq_iff_eq]
          obtain ⟨closed,kept,closes⟩ := ih child (tree.own item ++ path) (now.insert (tree.key child))
            (.deeper under here) (fits child here fresh) (fun name member => (inserted name).mpr (.inr (since name member)))
          have own : tree.key child ∈ walk tree left child (now.insert (tree.key child)) :=
            kept _ ((inserted _).mpr (.inl rfl))
          have step : Adds tree root now (walk tree left child (now.insert (tree.key child))) := by
            refine ⟨fun name before => kept name ((inserted name).mpr (.inr before)),fun parent up other below found new => ?_⟩
            by_cases same : tree.key child = tree.key other
            · exact closed.alike below (same ▸ tree.keyed item child here)
            · refine closes parent up other below found fun member => ?_
              rcases (inserted _).mp member with equal | before
              · exact same equal
              · exact new before
          obtain ⟨reached,adds⟩ := more others _ fun name member => step.kept name (since name member)
          exact ⟨forall_mem_cons.mpr ⟨adds.kept _ own,reached⟩,step.trans adds⟩
    obtain ⟨reached,adds⟩ := visits (tree.below item) (fun _ member => member)
      (meetAll met (tree.own item ++ tree.leaves item)) fun name member => by
        rcases mem_append.mp member with own | before
        · exact (start name).mpr (.inr (mem_append_left _ own))
        · exact (start name).mpr (.inl (along name before))
    have closed : Closed tree (walk tree (left + 1) item met) item :=
      ⟨fun name member => adds.kept name ((start name).mpr (.inr member)),reached⟩
    refine ⟨closed,fun name before => adds.kept name ((start name).mpr (.inl before)),
      fun parent up child below found fresh => ?_⟩
    by_cases first : tree.key child ∈ meetAll met (tree.own item ++ tree.leaves item)
    · rcases (start _).mp first with before | named
      · exact absurd before fresh
      · rcases mem_append.mp named with own | leaf
        · exact closed.alike below own
        · exact absurd rfl (apart item under _ leaf parent up child below)
    · exact adds.closes parent up child below found first

-- A walk from nothing met meets what its root reaches.
theorem walk_complete (apart : Apart tree root) (fits : Fits tree left [] root)
    (reaches : Reaches tree root name) : name ∈ walk tree left root ∅ := by
  obtain ⟨closed,_,closes⟩ := walk_closes apart left root [] ∅ .root fits fun _ none => (by cases none)
  have all {item : ι} {name : τ} (reaches : Reaches tree item name) :
      Under tree root item → Closed tree (walk tree left root ∅) item → name ∈ walk tree left root ∅ := by
    induction reaches with
    | own named => exact fun _ closed => closed.named _ (mem_append_left _ named)
    | leaf said => exact fun _ closed => closed.named _ (mem_append_right _ said)
    | deeper child _ more =>
      intro under closed
      exact more (.deeper under child) (closes _ under _ child (closed.below _ child) (by simp))
  exact all reaches .root closed

end Complete
end Descent
