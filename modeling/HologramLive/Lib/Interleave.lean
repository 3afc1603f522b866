import Mathlib
namespace Interleave
variable {σ τ ρ : Type}

-- Tasks that share one store. A task is advanced one atomic step at a time, in
-- any order; a crash loses every task and keeps what the store kept.
structure System (σ τ : Type) where
  store : σ
  tasks : List τ

inductive Move (ρ : Type) where
  | arrive (request : ρ)
  | advance (task : Nat)
  | crash

structure Rules (σ τ ρ : Type) where
  begin : ρ → τ
  step : σ → τ → τ × σ
  restart : σ → σ

variable (rules : Rules σ τ ρ)

def move (s : System σ τ) : Move ρ → System σ τ
  | .arrive request => {s with tasks := s.tasks ++ [rules.begin request]}
  | .advance at_ => match s.tasks[at_]? with
    | none => s
    | some task => ⟨(rules.step s.store task).2,s.tasks.set at_ (rules.step s.store task).1⟩
  | .crash => ⟨rules.restart s.store,[]⟩

def after (s : System σ τ) (moves : List (Move ρ)) : System σ τ := moves.foldl (move rules) s

variable {rules}

variable {s : System σ τ}

theorem advance_absent (absent : s.tasks[at_]? = none) : move rules s (.advance at_) = s := by
  simp only [move,absent]

theorem advance_found (found : s.tasks[at_]? = some task) :
    move rules s (.advance at_) = ⟨(rules.step s.store task).2,s.tasks.set at_ (rules.step s.store task).1⟩ := by
  simp only [move,found]

variable {moves : List (Move ρ)}

theorem after_take (here : moves[count]? = some next) :
    after rules s (moves.take (count + 1)) = move rules (after rules s (moves.take count)) next := by
  obtain ⟨bound,rfl⟩ := List.getElem?_eq_some_iff.mp here
  rw [List.take_succ_eq_append_getElem bound]
  unfold after
  rw [List.foldl_append]
  rfl

theorem move_tasks {holds : σ → τ → Prop} (held : ∀ task ∈ s.tasks,holds s.store task)
    (arrives : ∀ request,holds s.store (rules.begin request))
    (advances : ∀ task ∈ s.tasks,holds (rules.step s.store task).2 (rules.step s.store task).1 ∧
      ∀ other ∈ s.tasks,holds (rules.step s.store task).2 other) :
    ∀ task ∈ (move rules s next).tasks,holds (move rules s next).store task := by
  intro task member
  cases next with
  | arrive request =>
    rcases List.mem_append.mp member with old | new
    · exact held task old
    · obtain rfl := List.mem_singleton.mp new
      exact arrives request
  | advance at_ =>
    cases found : s.tasks[at_]? with
    | none => rw [advance_absent found] at member ⊢; exact held task member
    | some current =>
      rw [advance_found found] at member ⊢
      obtain ⟨own,others⟩ := advances current (List.mem_of_getElem? found)
      rcases List.mem_or_eq_of_mem_set member with old | new
      · exact others task old
      · rw [new]; exact own
  | crash => cases member

def Passes (rules : Rules σ τ ρ) (s : System σ τ) (moves : List (Move ρ)) (good : System σ τ → Prop) : Prop :=
  ∀ count ≤ moves.length,good (after rules s (moves.take count))

def Moves (rules : Rules σ τ ρ) (s : System σ τ) (moves : List (Move ρ)) (fine : System σ τ → Move ρ → Prop) : Prop :=
  ∀ count next,moves[count]? = some next → fine (after rules s (moves.take count)) next

variable {fine : System σ τ → Move ρ → Prop}

theorem passes_of_moves (initial : good s) (kept : ∀ s next,good s → fine s next → good (move rules s next))
    (allowed : Moves rules s moves fine) : Passes rules s moves good := by
  intro count
  induction count with
  | zero => intro _; exact initial
  | succ count ih =>
    intro bound
    have here : moves[count]? = some moves[count] := List.getElem?_eq_getElem bound
    rw [after_take here]
    exact kept _ _ (ih (Nat.le_of_succ_le bound)) (allowed count _ here)

-- Where one move keeps the property exactly when it is fine, the property holds
-- in every state of a run exactly when every move of it is fine.
theorem passes_iff_moves {always good : System σ τ → Prop}
    (begins : always s) (stays : ∀ s next,always s → always (move rules s next))
    (initial : good s) (exact_ : ∀ s next,always s → good s → (good (move rules s next) ↔ fine s next)) :
    Passes rules s moves good ↔ Moves rules s moves fine := by
  have background : Passes rules s moves always :=
    passes_of_moves begins (fun s next held (_ : True) => stays s next held) fun _ _ _ => trivial
  constructor
  · intro holds count next here
    have bound : count < moves.length := (List.getElem?_eq_some_iff.mp here).1
    have before := holds count (Nat.le_of_lt bound)
    have later := holds (count + 1) bound
    rw [after_take here] at later
    exact (exact_ _ _ (background count (Nat.le_of_lt bound)) before).mp later
  · intro allowed
    have both : Passes rules s moves fun s => always s ∧ good s :=
      passes_of_moves ⟨begins,initial⟩
        (fun s next held okay => ⟨stays s next held.1,(exact_ s next held.1 held.2).mpr okay⟩) allowed
    exact fun count bound => (both count bound).2

end Interleave
