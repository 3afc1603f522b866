import Mathlib
namespace HologramLive

-- A program that marks what it does and asks an outside party one question after
-- another. It says what it does next for every answer it can be given.
inductive Asking (ε κ α β : Type) where
  | done (result : β)
  | note (event : ε) (next : Asking ε κ α β)
  | ask (question : κ) (next : α → Asking ε κ α β)

namespace Asking
variable {ε κ α β γ φ σ : Type}

def bind : Asking ε κ α β → (β → Asking ε κ α γ) → Asking ε κ α γ
  | .done result,f => f result
  | .note event next,f => .note event (next.bind f)
  | .ask question next,f => .ask question fun answer => (next answer).bind f

instance : Monad (Asking ε κ α) where
  pure := .done
  bind := bind

-- One run against a party that answers by a state of its own: the marks and the
-- questions in order, and the result.
def play (party : σ → κ → α × σ) : Asking ε κ α β → σ → List (ε ⊕ κ) × β
  | .done result,_ => ([],result)
  | .note event next,s => let later := next.play party s; (.inl event :: later.1,later.2)
  | .ask question next,s =>
    let answer := party s question
    let later := (next answer.1).play party answer.2
    (.inr question :: later.1,later.2)

-- Whatever the answers are, each log a run passes through may be, and what it
-- ends with is as wanted.
def Along (may : List (ε ⊕ κ) → Prop) (post : List (ε ⊕ κ) → β → Prop) : Asking ε κ α β → List (ε ⊕ κ) → Prop
  | .done result,log => post log result
  | .note event next,log => may (log ++ [.inl event]) ∧ Along may post next (log ++ [.inl event])
  | .ask question next,log =>
    may (log ++ [.inr question]) ∧ ∀ answer,Along may post (next answer) (log ++ [.inr question])

variable {may : List (ε ⊕ κ) → Prop} {post wanted : List (ε ⊕ κ) → β → Prop}

variable {log : List (ε ⊕ κ)} {program : Asking ε κ α β}

theorem Along.mono (along : Along may post program log)
    (weaker : ∀ log result,post log result → wanted log result) : Along may wanted program log := by
  induction program generalizing log with
  | done result => exact weaker log result along
  | note event next ih => exact ⟨along.1,ih along.2⟩
  | ask question next ih => exact ⟨along.1,fun answer => ih answer (along.2 answer)⟩

theorem Along.bind {program : Asking ε κ α γ}
    (along : Along may mid program log) (later : ∀ log result,mid log result → Along may post (f result) log) :
    Along may post (program.bind f) log := by
  induction program generalizing log with
  | done result => exact later log result along
  | note event next ih => exact ⟨along.1,ih along.2⟩
  | ask question next ih => exact ⟨along.1,fun answer => ih answer (along.2 answer)⟩

open List

theorem Along.played (along : Along may post program log) (before : may log) (party : σ → κ → α × σ) (s : σ) :
    post (log ++ (program.play party s).1) (program.play party s).2 ∧
      ∀ n,may (log ++ (program.play party s).1.take n) := by
  induction program generalizing log s with
  | done result =>
    unfold play
    rw [append_nil]
    exact ⟨along,fun n => by rw [take_nil,append_nil]; exact before⟩
  | note event next ih =>
    obtain ⟨last,each⟩ := ih along.2 along.1 s
    unfold play
    refine ⟨by rwa [append_assoc] at last,fun n => ?_⟩
    cases n with
    | zero => rw [take_zero,append_nil]; exact before
    | succ n =>
      have moment := each n
      rwa [append_assoc] at moment
  | ask question next ih =>
    obtain ⟨last,each⟩ := ih (party s question).1 (along.2 (party s question).1) along.1 (party s question).2
    unfold play
    refine ⟨by rwa [append_assoc] at last,fun n => ?_⟩
    cases n with
    | zero => rw [take_zero,append_nil]; exact before
    | succ n =>
      have moment := each n
      rwa [append_assoc] at moment

end Asking

abbrev Trying (φ ε κ α : Type) := ExceptT φ (Asking ε κ α)

namespace Trying
variable {ε κ α β γ δ φ : Type} {may : List (ε ⊕ κ) → Prop} {post wanted : List (ε ⊕ κ) → β → Prop}
  {log : List (ε ⊕ κ)}

def ask (question : κ) : Trying φ ε κ (Except φ α) α := ExceptT.mk (.ask question .done)
def note (event : ε) : Trying φ ε κ α Unit := ExceptT.mk (.note event (.done (.ok ())))
-- A run that does not fail ends as wanted; one that fails was within its bounds.
def Keeps (may : List (ε ⊕ κ) → Prop) (post : List (ε ⊕ κ) → β → Prop) (program : Trying φ ε κ α β)
    (log : List (ε ⊕ κ)) : Prop := Asking.Along may (fun log out => ∀ b,out = .ok b → post log b) program log

theorem Keeps.pure (holds : post log b) : Keeps may post (pure b : Trying φ ε κ α β) log :=
  fun _ same => Except.ok.inj same ▸ holds

theorem Keeps.throw (e : φ) : Keeps may post (throw e : Trying φ ε κ α β) log := fun _ same => by cases same

theorem Keeps.mono (keeps : Keeps may post program log)
    (weaker : ∀ log b,post log b → wanted log b) : Keeps may wanted program log :=
  Asking.Along.mono keeps fun log _ holds b same => weaker log b (holds b same)

theorem Keeps.bind {program : Trying φ ε κ α γ}
    (keeps : Keeps may mid program log) (later : ∀ log c,mid log c → Keeps may post (f c) log) :
    Keeps may post (program >>= f) log := by
  refine Asking.Along.bind keeps fun log out holds => ?_
  cases out with
  | ok c => exact later log c (holds c rfl)
  | error e => exact fun _ same => by cases same

theorem Keeps.note (allowed : may (log ++ [.inl event]))
    (holds : after (log ++ [.inl event]) ()) : Keeps may after (note event : Trying φ ε κ α Unit) log :=
  ⟨allowed,fun _ _ => holds⟩

theorem Keeps.ask (allowed : may (log ++ [.inr question])) (holds : ∀ answer,after (log ++ [.inr question]) answer) :
    Keeps may after (ask question : Trying φ ε κ (Except φ α) α) log :=
  ⟨allowed,fun _ answer _ => holds answer⟩

theorem Keeps.foldlM (items : List δ)
    (each : ∀ item ∈ items,∀ log b,post log b → Keeps may post (step b item) log) (before : post log b) :
    Keeps may post (items.foldlM step b) log := by
  induction items generalizing b log with
  | nil => exact .pure before
  | cons item rest ih =>
    obtain ⟨first,others⟩ := List.forall_mem_cons.mp each
    rw [List.foldlM_cons]
    exact (first log b before).bind fun _ _ after => ih others after

end Trying
end HologramLive
