import Mathlib
namespace Runs
variable {σ : Type} {start : σ → Prop} {next other : σ → σ → Prop}

-- The states of the runs of a system from its start states.
inductive Reached (start : σ → Prop) (next : σ → σ → Prop) : σ → Prop
  | start (initial : start s) : Reached start next s
  | step (path : Reached start next s) (moved : next s t) : Reached start next t

-- What holds at the start and is kept by every step of a run holds in every
-- state of it. The step may use that the state it leaves was reached.
theorem Reached.invariant (inv : σ → Prop) (initial : ∀ s,start s → inv s)
    (kept : ∀ s t,Reached start next s → inv s → next s t → inv t) (reached : Reached start next s) : inv s := by
  induction reached with
  | start begun => exact initial _ begun
  | step path moved ih => exact kept _ _ path ih moved

theorem Reached.mono (weaker : ∀ s t,next s t → other s t) (reached : Reached start next s) :
    Reached start other s := by
  induction reached with
  | start begun => exact .start begun
  | step _ moved ih => exact .step ih (weaker _ _ moved)

section Actions
variable {α : Type} (act : σ → α → Option σ) (fine : σ → α → Prop)

def Taken (s t : σ) : Prop := ∃ action,fine s action ∧ act s action = some t

def play [∀ s action,Decidable (fine s action)] (s : σ) : List α → Option σ
  | [] => some s
  | action :: rest => if fine s action then (act s action).bind fun t => play t rest else none

variable {act} {fine} [∀ s action,Decidable (fine s action)]

theorem play_reached (path : Reached start (Taken act fine) s)
    (played : play act fine s actions = some t) : Reached start (Taken act fine) t := by
  induction actions generalizing s with
  | nil => cases played; exact path
  | cons action rest ih =>
    unfold play at played
    split at played
    · rename_i allowed
      obtain ⟨next,ran,later⟩ := Option.bind_eq_some_iff.mp played
      exact ih (path.step ⟨action,allowed,ran⟩) later
    · cases played

theorem play_shows (begins : start s)
    (shown : (play act fine s actions).any good = true) : ∃ t,Reached start (Taken act fine) t ∧ good t = true := by
  cases played : play act fine s actions with
  | none => rw [played] at shown; cases shown
  | some t => rw [played] at shown; exact ⟨t,play_reached (.start begins) played,shown⟩

end Actions

end Runs
