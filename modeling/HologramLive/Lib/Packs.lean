import Mathlib

namespace Packs
variable {α : Type}

def runs (ends : α → Bool) : List α → List α → List (List α)
  | [],run => if run.isEmpty then [] else [run]
  | a :: rest,run => if ends a then (run ++ [a]) :: runs ends rest [] else runs ends rest (run ++ [a])

open List

theorem runs_flatten (ends : α → Bool) (items run : List α) : (runs ends items run).flatten = run ++ items := by
  induction items generalizing run with
  | nil =>
    rw [runs]
    split
    · rename_i nothing
      rw [isEmpty_iff.mp nothing]
      rfl
    · simp
  | cons a rest ih =>
    rw [runs]
    split
    · simp [ih]
    · simp [ih]

theorem runs_nonempty (ends : α → Bool) (items run : List α) : ∀ pack ∈ runs ends items run,pack ≠ [] := by
  induction items generalizing run with
  | nil =>
    rw [runs]
    split
    · simp
    · rename_i some_
      intro pack member
      rw [mem_singleton.mp member]
      exact fun nothing => some_ (isEmpty_iff.mpr nothing)
  | cons a rest ih =>
    rw [runs]
    split
    · intro pack member
      rcases mem_cons.mp member with same | later
      · rw [same]; simp
      · exact ih [] pack later
    · exact ih _

theorem packs_length {packs : List (List α)} (each : ∀ pack ∈ packs,pack ≠ []) : packs.length ≤ packs.flatten.length := by
  induction packs with
  | nil => simp
  | cons pack rest ih =>
    obtain ⟨first,others⟩ := forall_mem_cons.mp each
    have positive := length_pos_iff.mpr first
    have later := ih others
    simp only [flatten_cons,length_append,length_cons]
    omega

theorem runs_length (ends : α → Bool) (items : List α) : (runs ends items []).length ≤ items.length := by
  have short := packs_length (runs_nonempty ends items [])
  rw [runs_flatten] at short
  exact short

theorem runs_front (ends : α → Bool) (items : List α) : ∃ rest after,∀ run,run ≠ [] → runs ends items run = (run ++ rest) :: after := by
  induction items with
  | nil =>
    refine ⟨[],[],fun run some_ => ?_⟩
    rw [runs,if_neg fun nothing => some_ (isEmpty_iff.mp nothing),append_nil]
  | cons a items ih =>
    obtain ⟨rest,after,cut⟩ := ih
    by_cases last : ends a = true
    · refine ⟨[a],runs ends items [],fun run _ => ?_⟩
      rw [runs,if_pos last]
    · refine ⟨a :: rest,after,fun run _ => ?_⟩
      rw [runs,if_neg last,cut _ (by simp),append_assoc]
      rfl

theorem runs_replace (ends : α → Bool) (a : α) (pre post run : List α) : ∃ before front back after,
    ∀ b,ends b = ends a → runs ends (pre ++ b :: post) run = before ++ (front ++ b :: back) :: after := by
  induction pre generalizing run with
  | nil =>
    by_cases last : ends a = true
    · refine ⟨[],run,[],runs ends post [],fun b same => ?_⟩
      rw [nil_append,runs,if_pos (same.trans last)]
      rfl
    · obtain ⟨rest,after,cut⟩ := runs_front ends post
      refine ⟨[],run,rest,after,fun b same => ?_⟩
      rw [nil_append,runs,if_neg (by rw [same]; exact last),cut _ (by simp)]
      simp
  | cons c pre ih =>
    by_cases last : ends c = true
    · obtain ⟨before,front,back,after,cut⟩ := ih []
      refine ⟨(run ++ [c]) :: before,front,back,after,fun b same => ?_⟩
      rw [cons_append,runs,if_pos last,cut b same]
      rfl
    · obtain ⟨before,front,back,after,cut⟩ := ih (run ++ [c])
      refine ⟨before,front,back,after,fun b same => ?_⟩
      rw [cons_append,runs,if_neg last,cut b same]

end Packs
