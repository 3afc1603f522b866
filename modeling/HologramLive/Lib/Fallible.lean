import Mathlib
namespace Fallible
variable {ε ε' α β σ : Type}

variable {next : α → Except ε β} {first : Except ε α}

theorem bind_ok (ran : (first >>= next) = .ok b) : ∃ a,first = .ok a ∧ next a = .ok b := by
  cases first with
  | error e => cases ran
  | ok a => exact ⟨a,rfl,ran⟩

variable {a : α}

theorem ok_bind (ran : first = .ok a) : (first >>= next) = next a := by
  rw [ran]; rfl

variable {answer : Except ε α}

theorem mapError_ok {f : ε → ε'} (ok : answer.mapError f = .ok a) : answer = .ok a := by
  cases answer with
  | error e => cases ok
  | ok b => cases ok; rfl

theorem mapError_of_ok {f : ε → ε'} (ok : answer = .ok a) : answer.mapError f = .ok a := by
  rw [ok]; rfl

theorem ok_of_toOption (ok : answer.toOption = some a) : answer = .ok a := by
  cases answer with
  | error e => cases ok
  | ok b => cases ok; rfl

variable {items : List α} {out : List β} {g : α → β}

open List

theorem mapM_ok_iff {f : α → Except ε β} {fine : α → Prop} (each : ∀ a b, f a = .ok b ↔ fine a ∧ b = g a) :
    items.mapM f = .ok out ↔ (∀ a ∈ items, fine a) ∧ out = items.map g := by
  induction items generalizing out with
  | nil => simp [pure,Except.pure,eq_comm]
  | cons item rest ih =>
    rw [mapM_cons]
    constructor
    · intro ran
      obtain ⟨b,first,ran⟩ := bind_ok ran
      obtain ⟨later,others,last⟩ := bind_ok ran
      cases last
      obtain ⟨fits,rfl⟩ := (each item b).mp first
      obtain ⟨restFit,rfl⟩ := ih.mp others
      exact ⟨forall_mem_cons.mpr ⟨fits,restFit⟩,rfl⟩
    · intro ⟨fits,same⟩
      obtain ⟨first,others⟩ := forall_mem_cons.mp fits
      rw [ok_bind ((each item (g item)).mpr ⟨first,rfl⟩),ok_bind (ih.mpr ⟨others,rfl⟩),same]
      rfl

theorem mapM_ok_forall {f : α → Except ε β} (ran : items.mapM f = .ok out) :
    List.Forall₂ (fun a b => f a = .ok b) items out := by
  induction items generalizing out with
  | nil => cases ran; exact .nil
  | cons item rest ih =>
    rw [mapM_cons] at ran
    obtain ⟨b,first,ran⟩ := bind_ok ran
    obtain ⟨later,others,ran⟩ := bind_ok ran
    cases ran
    exact .cons first (ih others)

theorem mapM_ok_mem {f : α → Except ε β} (ran : items.mapM f = .ok out) : ∀ a ∈ items,∃ b,f a = .ok b := by
  have each := mapM_ok_forall ran
  clear ran
  induction each with
  | nil => simp
  | cons first _ ih => exact forall_mem_cons.mpr ⟨⟨_,first⟩,ih⟩

theorem mapM_ok_from {f : α → Except ε β} (ran : items.mapM f = .ok out) : ∀ b ∈ out,∃ a ∈ items,f a = .ok b := by
  have each := mapM_ok_forall ran
  clear ran
  induction each with
  | nil => simp
  | @cons a b items _ first _ ih =>
    refine forall_mem_cons.mpr ⟨⟨a,mem_cons_self,first⟩,?_⟩
    intro other member
    obtain ⟨c,among,made⟩ := ih other member
    exact ⟨c,mem_cons_of_mem _ among,made⟩

theorem mapM_ok_map {γ : Type} {f : α → Except ε β} {view : β → γ} {source : α → γ}
    (each : ∀ a b,f a = .ok b → view b = source a) (ran : items.mapM f = .ok out) :
    out.map view = items.map source := by
  induction items generalizing out with
  | nil => cases ran; rfl
  | cons item rest ih =>
    rw [mapM_cons] at ran
    obtain ⟨b,first,ran⟩ := bind_ok ran
    obtain ⟨later,others,ran⟩ := bind_ok ran
    cases ran
    rw [map_cons,map_cons,each item b first,ih others]

theorem forall₂_at {R : α → β → Prop} {left : List α} {right : List β} (related : List.Forall₂ R left right) {i : Nat}
    {b : β} (at_ : right[i]? = some b) : ∃ a,left[i]? = some a ∧ R a b := by
  induction related generalizing i with
  | nil => cases at_
  | cons first _ ih =>
    cases i with
    | zero => cases at_; exact ⟨_,rfl,first⟩
    | succ i => exact ih at_

theorem mapM_fixed {f : α → Except ε α} (each : ∀ a ∈ items,f a = .ok a) : items.mapM f = .ok items := by
  induction items with
  | nil => rfl
  | cons item rest ih =>
    obtain ⟨first,others⟩ := forall_mem_cons.mp each
    rw [mapM_cons,ok_bind first,ok_bind (ih others)]
    rfl

theorem mapM_returns {f : β → Except ε α} (each : ∀ a ∈ items,f (g a) = .ok a) : (items.map g).mapM f = .ok items := by
  induction items with
  | nil => rfl
  | cons item rest ih =>
    obtain ⟨first,others⟩ := forall_mem_cons.mp each
    rw [map_cons,mapM_cons,ok_bind first,ok_bind (ih others)]
    rfl

theorem map_returns (back : ∀ a,f (g a) = a) (items : List α) : (items.map g).map f = items := by
  rw [map_map]
  exact (map_congr_left fun a _ => back a).trans (map_id' items)

theorem mapM_succeeds {f : α → Except ε β} (each : ∀ a ∈ items,∃ b,f a = .ok b) : ∃ out,items.mapM f = .ok out := by
  induction items with
  | nil => exact ⟨[],rfl⟩
  | cons item rest ih =>
    obtain ⟨b,first⟩ := each item mem_cons_self
    obtain ⟨later,others⟩ := ih fun a member => each a (mem_cons_of_mem _ member)
    refine ⟨b :: later,?_⟩
    rw [mapM_cons,ok_bind first,ok_bind others]
    rfl

variable {f : σ → α → Except ε σ}

theorem foldlM_ok_of_step {f' : σ → α → Except ε' σ}
    (step : ∀ s a next, f s a = .ok next → f' s a = .ok next) {s out : σ}
    (ran : items.foldlM f s = .ok out) : items.foldlM f' s = .ok out := by
  induction items generalizing s with
  | nil => cases ran; rfl
  | cons item rest ih =>
    rw [foldlM_cons] at ran ⊢
    obtain ⟨next,first,others⟩ := bind_ok ran
    rw [ok_bind (step s item next first)]
    exact ih others

theorem bind_map {α' β' : Type} {first' : Except ε α'}
    {next' : α' → Except ε β'} {view : α → α'} {view' : β → β'} (same : first' = first.map view)
    (later : ∀ a,next' (view a) = (next a).map view') : (first' >>= next') = (first >>= next).map view' := by
  cases first with
  | error e => rw [same]; rfl
  | ok a => rw [same]; exact later a

theorem mapM_map {α' β' : Type} {f : α → Except ε β} {f' : α' → Except ε β'} {view : α → α'} {view' : β → β'}
    (each : ∀ a,f' (view a) = (f a).map view') (items : List α) :
    (items.map view).mapM f' = (items.mapM f).map (List.map view') := by
  induction items with
  | nil => rfl
  | cons item rest ih =>
    rw [map_cons,mapM_cons,mapM_cons]
    exact bind_map (each item) fun b => bind_map ih fun later => rfl

theorem foldlM_map {σ' : Type} {f' : σ' → α → Except ε σ'} {view : σ → σ'}
    (each : ∀ s a,f' (view s) a = (f s a).map view) (items : List α) (s : σ) :
    items.foldlM f' (view s) = (items.foldlM f s).map view := by
  induction items generalizing s with
  | nil => rfl
  | cons item rest ih => rw [foldlM_cons,foldlM_cons]; exact bind_map (each s item) ih

theorem bind_succeeds (one : ∃ a,first = .ok a) (two : ∀ a,∃ b,next a = .ok b) : ∃ b,(first >>= next) = .ok b := by
  obtain ⟨a,ran⟩ := one
  rw [ok_bind ran]
  exact two a

theorem foldlM_succeeds (each : ∀ s,∀ a ∈ items,∃ next,f s a = .ok next)
    (s : σ) : ∃ out,items.foldlM f s = .ok out := by
  induction items generalizing s with
  | nil => exact ⟨s,rfl⟩
  | cons item rest ih =>
    rw [foldlM_cons]
    exact bind_succeeds (each s item mem_cons_self) fun next =>
      ih (fun s a member => each s a (mem_cons_of_mem _ member)) next

variable {holds : List α → σ → Prop} {before : List α}

-- What the start satisfies and every step keeps, the end of a loop satisfies.
theorem foldlM_invariant (step : ∀ before s a next, holds before s → f s a = .ok next → holds (before ++ [a]) next)
    {s out : σ} (start : holds before s) (ran : items.foldlM f s = .ok out) : holds (before ++ items) out := by
  induction items generalizing before s with
  | nil => cases ran; simpa using start
  | cons item rest ih =>
    rw [foldlM_cons] at ran
    obtain ⟨next,first,others⟩ := bind_ok ran
    have later := ih (step before s item next start first) others
    simpa using later

theorem foldlM_keeps {step : σ → α → Except ε σ} {keeps : σ → Prop}
    (each : ∀ item ∈ items,∀ s next,keeps s → step s item = .ok next → keeps next) {s out : σ} (start : keeps s)
    (ran : items.foldlM step s = .ok out) : keeps out := by
  induction items generalizing s with
  | nil => cases ran; exact start
  | cons item rest ih =>
    rw [foldlM_cons] at ran
    obtain ⟨next,first,others⟩ := bind_ok ran
    exact ih (fun other member => each other (mem_cons_of_mem _ member))
      (each item mem_cons_self s next start first) others

-- A call that goes well exactly under a condition: with it, the call gives
-- something of which the postcondition holds; without it, what it gives is spoiled.
structure Settles (run : Except ε σ) (spoiled : σ → Prop) (good : Prop) (post : σ → Prop) : Prop where
  succeeds : good → ∃ s,run = .ok s ∧ post s
  fails : ¬good → ∀ s,run = .ok s → spoiled s

namespace Settles

variable {spoiled : σ → Prop}

theorem bind {τ : Type} {next : σ → Except ε τ} {spoiled' : τ → Prop}
    {good whole : Prop} {post' : τ → Prop} (first : Settles run spoiled good post)
    (needs : whole → good) (stays : ∀ s t,spoiled s → next s = .ok t → spoiled' t)
    (later : good → ∀ s,post s → Settles (next s) spoiled' whole post') :
    Settles (run >>= next) spoiled' whole post' where
  succeeds well := by
    obtain ⟨s,ran,holds⟩ := first.succeeds (needs well)
    rw [ok_bind ran]
    exact (later (needs well) s holds).succeeds well
  fails bad t ran := by
    obtain ⟨s,ran,rest⟩ := bind_ok ran
    by_cases well : good
    · obtain ⟨s',ran',holds⟩ := first.succeeds well
      cases ran.symm.trans ran'
      exact (later well s holds).fails bad t rest
    · exact stays s t (first.fails well s ran) rest

variable {post : σ → Prop} {s : σ}

theorem pure {good : Prop} (well : good) (holds : post s) : Settles (.ok s : Except ε σ) spoiled good post :=
  ⟨fun _ => ⟨s,rfl,holds⟩,fun bad => absurd well bad⟩

theorem spoil {good : Prop} (bad : ¬good) (holds : spoiled s) : Settles (.ok s : Except ε σ) spoiled good post := by
  refine ⟨fun well => absurd well bad,fun _ t same => ?_⟩
  cases same
  exact holds

theorem congr {good good' : Prop}
    (settles : Settles run spoiled good post) (same : good ↔ good') (weaker : good → ∀ s,post s → post' s) :
    Settles run spoiled good' post' where
  succeeds well := by
    obtain ⟨s,ran,holds⟩ := settles.succeeds (same.mpr well)
    exact ⟨s,ran,weaker (same.mpr well) s holds⟩
  fails bad := settles.fails fun well => bad (same.mp well)

theorem foldlM_from {good : List α → Prop} (earlier : ∀ before after,good (before ++ after) → good before)
    (stays : ∀ a ∈ items,∀ s t,spoiled s → f s a = .ok t → spoiled t)
    (step : ∀ done,∀ a ∈ items,∀ s,good done → holds done s →
      Settles (f s a) spoiled (good (done ++ [a])) (holds (done ++ [a])))
    (well : good before) (start : holds before s) :
    Settles (items.foldlM f s) spoiled (good (before ++ items)) (holds (before ++ items)) := by
  induction items generalizing before s with
  | nil => rw [append_nil]; exact .pure well start
  | cons item rest ih =>
    rw [foldlM_cons]
    have here := step before item mem_cons_self s well start
    have all : before ++ item :: rest = (before ++ [item]) ++ rest := by simp
    rw [all]
    have stays' (t out : σ) (bad : spoiled t) (others : rest.foldlM f t = .ok out) : spoiled out :=
      foldlM_keeps (fun a member => stays a (mem_cons_of_mem _ member)) bad others
    exact here.bind (earlier _ _) stays' fun well' t holds =>
      ih (fun a member => stays a (mem_cons_of_mem _ member))
        (fun done a member => step done a (mem_cons_of_mem _ member)) well' holds

theorem foldlM (good : List α → Prop) (holds : List α → σ → Prop)
    (earlier : ∀ before after,good (before ++ after) → good before)
    (stays : ∀ a ∈ items,∀ s t,spoiled s → f s a = .ok t → spoiled t)
    (step : ∀ done,∀ a ∈ items,∀ s,good done → holds done s →
      Settles (f s a) spoiled (good (done ++ [a])) (holds (done ++ [a])))
    (well : good []) (start : holds [] s) : Settles (items.foldlM f s) spoiled (good items) (holds items) :=
  foldlM_from earlier stays step well start

end Settles
end Fallible
