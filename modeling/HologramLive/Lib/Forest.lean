import Mathlib
namespace Forests

-- Trees side by side: the first one's root, the trees under it, and the others.
inductive Forest (α : Type) where
  | nil
  | node (value : α) (children rest : Forest α)

variable {α : Type} {expand : α → Option (List α)}

namespace Forest

def values : Forest α → List α
  | .nil => []
  | .node value children rest => value :: (children.values ++ rest.values)

def append : Forest α → Forest α → Forest α
  | .nil,other => other
  | .node value children rest,other => .node value children (rest.append other)

theorem values_append (left right : Forest α) : (left.append right).values = left.values ++ right.values := by
  induction left with
  | nil => rfl
  | node value children rest _ ih => simp [append,values,ih]

end Forest
open Forest List

-- The forest with these roots in which every value's children are what it
-- expands to. A value that does not expand is in no such forest.
inductive Unfolds (expand : α → Option (List α)) : List α → Forest α → Prop where
  | nil : Unfolds expand [] .nil
  | node {value : α} {kids rest : List α} {children others : Forest α} (expanded : expand value = some kids)
      (under : Unfolds expand kids children) (beside : Unfolds expand rest others) :
      Unfolds expand (value :: rest) (.node value children others)

namespace Unfolds

theorem append (first : Unfolds expand left f) (second : Unfolds expand right g) :
    Unfolds expand (left ++ right) (f.append g) := by
  induction first with
  | nil => exact second
  | node expanded under _ _ ih => exact .node expanded under ih

variable {f : Forest α}

theorem split (both : Unfolds expand (left ++ right) f) :
    ∃ g h,Unfolds expand left g ∧ Unfolds expand right h ∧ f = g.append h := by
  induction left generalizing f with
  | nil => exact ⟨.nil,f,.nil,both,rfl⟩
  | cons value rest ih =>
    cases both with
    | node expanded under beside =>
      obtain ⟨g,h,first,second,rfl⟩ := ih beside
      exact ⟨_,h,.node expanded under first,second,rfl⟩

variable {roots : List α}

theorem unique (one : Unfolds expand roots f) (other : Unfolds expand roots g) : f = g := by
  induction one generalizing g with
  | nil => cases other; rfl
  | node expanded under beside ihUnder ihBeside =>
    cases other with
    | node expanded' under' beside' =>
      cases expanded.symm.trans expanded'
      rw [ihUnder under',ihBeside beside']

theorem roots_subperm (unfolds : Unfolds expand roots f) : roots.Subperm f.values := by
  induction unfolds with
  | nil => exact List.Subperm.refl _
  | node expanded under beside _ ih =>
    refine (subperm_cons _).mpr (ih.trans ?_)
    exact (sublist_append_right _ _).subperm

theorem closed (unfolds : Unfolds expand roots f) (member : value ∈ f.values) :
    ∃ kids,expand value = some kids ∧ ∀ kid ∈ kids,kid ∈ f.values := by
  induction unfolds with
  | nil => cases member
  | @node top kids rest children others expanded under beside ihUnder ihBeside =>
    obtain rfl | inside := mem_cons.mp member
    · refine ⟨kids,expanded,fun kid mine => mem_cons_of_mem _ (mem_append_left _ ?_)⟩
      exact under.roots_subperm.subset mine
    · obtain below | aside := mem_append.mp inside
      · obtain ⟨kids',expanded',inside'⟩ := ihUnder below
        exact ⟨kids',expanded',fun kid mine => mem_cons_of_mem _ (mem_append_left _ (inside' kid mine))⟩
      · obtain ⟨kids',expanded',inside'⟩ := ihBeside aside
        exact ⟨kids',expanded',fun kid mine => mem_cons_of_mem _ (mem_append_right _ (inside' kid mine))⟩

theorem forall_values (unfolds : Unfolds expand roots f) {holds : α → Prop} (start : ∀ root ∈ roots,holds root)
    (pass : ∀ value kids,holds value → expand value = some kids → ∀ kid ∈ kids,holds kid) :
    ∀ value ∈ f.values,holds value := by
  induction unfolds with
  | nil => intro value member; cases member
  | @node top kids rest children others expanded under beside ihUnder ihBeside =>
    intro value member
    have here := start top mem_cons_self
    obtain rfl | inside := mem_cons.mp member
    · exact here
    · obtain below | aside := mem_append.mp inside
      · exact ihUnder (pass top kids here expanded) value below
      · exact ihBeside (fun root mine => start root (mem_cons_of_mem _ mine)) value aside

theorem pop {value : α} {rest : List α} {f : Forest α} (unfolds : Unfolds expand (value :: rest) f) :
    ∃ kids g,expand value = some kids ∧ Unfolds expand (rest ++ kids) g ∧ f.values.Perm (value :: g.values) := by
  cases unfolds with
  | @node _ kids _ children others expanded under beside =>
    refine ⟨kids,others.append children,expanded,beside.append under,?_⟩
    rw [values,values_append]
    exact perm_append_comm.cons value

theorem push (expanded : expand value = some kids) (unfolds : Unfolds expand (rest ++ kids) g) :
    ∃ f,Unfolds expand (value :: rest) f ∧ f.values.Perm (value :: g.values) := by
  obtain ⟨others,children,beside,under,rfl⟩ := unfolds.split
  refine ⟨.node value children others,.node expanded under beside,?_⟩
  rw [values,values_append]
  exact perm_append_comm.cons value

end Unfolds

-- The order in which a queue lets its values go.
inductive Drains (expand : α → Option (List α)) : List α → List α → Prop where
  | done : Drains expand [] []
  | pop {value : α} {kids rest order : List α} (expanded : expand value = some kids)
      (later : Drains expand (rest ++ kids) order) : Drains expand (value :: rest) (value :: order)

theorem Drains.unfolds (drains : Drains expand queue order) : ∃ f,Unfolds expand queue f ∧ order.Perm f.values := by
  induction drains with
  | done => exact ⟨.nil,.nil,List.Perm.refl _⟩
  | pop expanded _ ih =>
    obtain ⟨g,unfolds,same⟩ := ih
    obtain ⟨f,unfolds',values⟩ := unfolds.push expanded
    exact ⟨f,unfolds',(same.cons _).trans values.symm⟩

-- A queue whose values unfold drains: each turn leaves a smaller forest.
theorem Unfolds.drains (unfolds : Unfolds expand queue f) : ∃ order,Drains expand queue order := by
  induction size : f.values.length generalizing queue f with
  | zero =>
    cases unfolds with
    | nil => exact ⟨[],.done⟩
    | node expanded under beside => simp [values] at size
  | succ n ih =>
    cases queue with
    | nil => exact ⟨[],.done⟩
    | cons value rest =>
      obtain ⟨kids,g,expanded,later,values⟩ := unfolds.pop
      have shorter : g.values.length = n := by
        have same := values.length_eq
        rw [size,length_cons] at same; omega
      obtain ⟨order,drains⟩ := ih later shorter
      exact ⟨value :: order,.pop expanded drains⟩

end Forests
