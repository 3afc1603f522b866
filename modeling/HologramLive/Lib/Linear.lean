import Mathlib
namespace Linear
variable {σ α ρ : Type}

structure Entry (α ρ : Type) where
  call : Nat
  op : α
  answer : ρ

-- The calls of a concurrent run. `after` are those that had returned when it was made.
structure Call (α ρ : Type) where
  op : α
  after : List Nat
  answer : Option ρ

section Sequence
variable {serial : σ → α → ρ → σ → Prop} {s t u : σ} {first rest : List (Entry α ρ)} {e : Entry α ρ}

def Sequence (serial : σ → α → ρ → σ → Prop) : σ → List (Entry α ρ) → σ → Prop
  | s,[],t => s = t
  | s,e :: rest,t => ∃ next,serial s e.op e.answer next ∧ Sequence serial next rest t

theorem Sequence.append (before : Sequence serial s first t) (later : Sequence serial t rest u) :
    Sequence serial s (first ++ rest) u := by
  induction first generalizing s with
  | nil => cases before; exact later
  | cons e first ih =>
    obtain ⟨next,ran,before⟩ := before
    exact ⟨next,ran,ih before⟩

theorem Sequence.split (all : Sequence serial s (first ++ rest) u) :
    ∃ t,Sequence serial s first t ∧ Sequence serial t rest u := by
  induction first generalizing s with
  | nil => exact ⟨s,rfl,all⟩
  | cons e first ih =>
    obtain ⟨next,ran,all⟩ := all
    obtain ⟨t,before,later⟩ := ih all
    exact ⟨t,⟨next,ran,before⟩,later⟩

theorem Sequence.concat (before : Sequence serial s first t) (ran : serial t e.op e.answer u) :
    Sequence serial s (first ++ [e]) u := before.append ⟨u,ran,rfl⟩

theorem Sequence.invariant (inv : σ → Prop) (ran : Sequence serial s rest t)
    (kept : ∀ e ∈ rest,∀ s t,inv s → serial s e.op e.answer t → inv t) (initial : inv s) : inv t := by
  induction rest generalizing s with
  | nil => cases ran; exact initial
  | cons e rest ih =>
    obtain ⟨next,now,later⟩ := ran
    refine ih later (fun e' member => kept e' (List.mem_cons_of_mem e member)) ?_
    exact kept e List.mem_cons_self s next initial now

end Sequence

-- A sequential order of the calls that returned, and of some that still run: it
-- has their answers, ends in the present state, and puts no call before one that
-- had returned when it was made.
structure Order (serial : σ → α → ρ → σ → Prop) (s : σ) (calls : List (Call α ρ)) (t : σ) (order : List (Entry α ρ)) : Prop where
  runs : Sequence serial s order t
  once : (order.map (·.call)).Nodup
  real : ∀ e ∈ order,∃ call,calls[e.call]? = some call ∧ call.op = e.op ∧ ∀ answer,call.answer = some answer → e.answer = answer
  whole : ∀ (i : Nat) (call : Call α ρ),calls[i]? = some call → call.answer.isSome → i ∈ order.map (·.call)
  earlier : ∀ (n : Nat) (e : Entry α ρ) (call : Call α ρ),order[n]? = some e → calls[e.call]? = some call →
    ∀ i ∈ call.after,i ∈ (order.take n).map (·.call)

def Linearizable (serial : σ → α → ρ → σ → Prop) (s : σ) (calls : List (Call α ρ)) (t : σ) : Prop :=
  ∃ order,Order serial s calls t order

-- The order as it grows: the calls with an answer are the ones that are in it.
structure Grown (serial : σ → α → ρ → σ → Prop) (s : σ) (calls : List (Call α ρ)) (t : σ) (order : List (Entry α ρ)) : Prop where
  runs : Sequence serial s order t
  once : (order.map (·.call)).Nodup
  real : ∀ e ∈ order,∃ call,calls[e.call]? = some call ∧ call.op = e.op ∧ call.answer = some e.answer
  whole : ∀ (i : Nat) (call : Call α ρ),calls[i]? = some call → call.answer.isSome → i ∈ order.map (·.call)
  earlier : ∀ (n : Nat) (e : Entry α ρ) (call : Call α ρ),order[n]? = some e → calls[e.call]? = some call →
    ∀ i ∈ call.after,i ∈ (order.take n).map (·.call)
  known : ∀ call ∈ calls,∀ i ∈ call.after,i ∈ order.map (·.call)

variable {serial : σ → α → ρ → σ → Prop} {s t u : σ} {calls : List (Call α ρ)} {order : List (Entry α ρ)} {i : Nat}
  {call : Call α ρ} {answer : ρ}

theorem append_found {β : Type} {before later : List β} {n : Nat} {b : β} (found : before[n]? = some b) :
    (before ++ later)[n]? = some b := by
  rw [List.getElem?_append_left (List.getElem?_eq_some_iff.mp found).1]
  exact found

theorem grown_start : Grown serial s [] s ([] : List (Entry α ρ)) where
  runs := rfl
  once := List.nodup_nil
  real := by simp
  whole := by simp
  earlier := by simp
  known := by simp

theorem Grown.made (grown : Grown serial s calls t order) (op : α) {after : List Nat}
    (returned : ∀ i ∈ after,i ∈ order.map (·.call)) : Grown serial s (calls ++ [⟨op,after,none⟩]) t order where
  runs := grown.runs
  once := grown.once
  real := by
    intro e member
    obtain ⟨call,there,same⟩ := grown.real e member
    exact ⟨call,append_found there,same⟩
  whole := by
    intro i call there answered
    rw [List.getElem?_append] at there
    split at there
    · exact grown.whole i call there answered
    · rw [List.getElem?_singleton] at there
      split at there
      · cases there; cases answered
      · cases there
  earlier := by
    intro n e call placed there
    obtain ⟨old,found,_⟩ := grown.real e (List.mem_of_getElem? placed)
    rw [append_found found] at there
    cases there
    exact grown.earlier n e call placed found
  known := by
    intro call member
    rcases List.mem_append.mp member with old | new
    · exact grown.known call old
    · rw [List.mem_singleton.mp new]
      exact returned

theorem Grown.place (grown : Grown serial s calls t order) (there : calls[i]? = some call) (open_ : call.answer = none)
    (ran : serial t call.op answer u) :
    Grown serial s (calls.set i {call with answer := some answer}) u (order ++ [⟨i,call.op,answer⟩]) := by
  have bound := (List.getElem?_eq_some_iff.mp there).1
  have apart : i ∉ order.map (·.call) := by
    intro member
    obtain ⟨e,listed,rfl⟩ := List.mem_map.mp member
    obtain ⟨other,found,_,answered⟩ := grown.real e listed
    rw [there] at found
    cases found
    rw [open_] at answered
    cases answered
  refine ⟨grown.runs.concat ran,?_,?_,?_,?_,?_⟩
  · rw [List.map_append,List.nodup_append]
    refine ⟨grown.once,List.nodup_singleton _,?_⟩
    rintro j old _ new rfl
    rw [List.map_singleton,List.mem_singleton] at new
    subst new
    exact apart old
  · intro e member
    rcases List.mem_append.mp member with old | new
    · obtain ⟨other,found,same⟩ := grown.real e old
      refine ⟨other,?_,same⟩
      have elsewhere : i ≠ e.call := fun same => apart (same ▸ List.mem_map_of_mem old)
      rw [List.getElem?_set_ne elsewhere]
      exact found
    · rw [List.mem_singleton.mp new]
      exact ⟨_,List.getElem?_set_self bound,rfl,rfl⟩
  · intro j other found answered
    rw [List.map_append,List.mem_append]
    by_cases same : i = j
    · exact .inr (by simp [same])
    · rw [List.getElem?_set_ne same] at found
      exact .inl (grown.whole j other found answered)
  · intro n e other placed found j member
    have after : ∃ old ∈ calls,calls[e.call]? = some old ∧ other.after = old.after := by
      by_cases same : i = e.call
      · rw [←same,List.getElem?_set_self bound] at found
        cases found; exact ⟨call,List.mem_of_getElem? there,same ▸ there,rfl⟩
      · rw [List.getElem?_set_ne same] at found
        exact ⟨other,List.mem_of_getElem? found,found,rfl⟩
    obtain ⟨old,listed,present,same⟩ := after
    rw [same] at member
    rw [List.getElem?_append] at placed
    split at placed
    · rename_i before
      rw [List.take_append_of_le_length (Nat.le_of_lt before)]
      exact grown.earlier n e old placed present j member
    · rename_i last
      rw [List.take_append,List.take_of_length_le (Nat.le_of_not_lt last),List.map_append,List.mem_append]
      exact .inl (grown.known old listed j member)
  · intro other member j listed
    rw [List.map_append,List.mem_append]
    rcases List.mem_or_eq_of_mem_set member with old | rfl
    · exact .inl (grown.known other old j listed)
    · exact .inl (grown.known call (List.mem_of_getElem? there) j listed)

theorem Grown.ordered (grown : Grown serial s calls t order)
    (same : ∀ i : Nat,(returned[i]?).map (fun call : Call α ρ => (call.op,call.after)) =
      (calls[i]?).map fun call : Call α ρ => (call.op,call.after))
    (fewer : ∀ (i : Nat) (call : Call α ρ) (answer : ρ),returned[i]? = some call → call.answer = some answer →
      ∃ other : Call α ρ,calls[i]? = some other ∧ other.answer = some answer) : Order serial s returned t order where
  runs := grown.runs
  once := grown.once
  real := by
    intro e member
    obtain ⟨call,there,op,answered⟩ := grown.real e member
    have shape := same e.call
    rw [there,Option.map_some,Option.map_eq_some_iff] at shape
    obtain ⟨mine,found,shape⟩ := shape
    obtain ⟨op',_⟩ := Prod.mk.inj shape
    refine ⟨mine,found,op'.trans op,?_⟩
    intro answer known
    obtain ⟨other,again,final⟩ := fewer e.call mine answer found known
    rw [there] at again
    cases again
    rw [answered] at final
    exact Option.some.inj final
  whole := by
    intro i call there answered
    obtain ⟨answer,known⟩ := Option.isSome_iff_exists.mp answered
    obtain ⟨other,found,final⟩ := fewer i call answer there known
    exact grown.whole i other found (by rw [final]; rfl)
  earlier := by
    intro n e call placed there
    have shape := same e.call
    rw [there,Option.map_some,eq_comm,Option.map_eq_some_iff] at shape
    obtain ⟨other,found,shape⟩ := shape
    obtain ⟨_,after⟩ := Prod.mk.inj shape
    rw [←after]
    exact grown.earlier n e other placed found

end Linear
