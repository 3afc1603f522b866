import HologramLive.History.Calls
namespace HologramLive.History
open Tables Rpc

variable {settings : Settings} {s t : State} {i : Nat} {call : Task} {outside : Outside}

def Phase.holds : Phase → Bool
  | .locked | .writing _ => true
  | _ => false

def Phase.aside : Phase → Bool
  | .invoked | .unlinking _ | .reading .. => true
  | _ => false

-- What a step of a call does: it goes on or returns without the lock, takes the
-- lock, reads what it will change, fails behind the lock, renames or unlinks.
inductive Moved (s : State) (i : Nat) (call : Task) (t : State) : Prop
  | passes (next : Phase) (after : t = s.setPhase i call next) (unlocked : next.holds = false)
    (begins : call.phase = .invoked → call.op.target.isSome → next = .checked ∨ ∃ error,next = .returned (.error error))
    (early : call.phase.aside = true)
  | takes (next : Phase) (free : s.lock = none) (after : t = {s.setPhase i call next with lock := some i})
    (waited : call.phase = .checked ∧ next = .locked ∨ ∃ conversation,call.phase = .created conversation ∧ next = .writing conversation)
  | loads (id : Str) (before : Conversation) (outside : Outside) (was : call.phase = .locked) (target : call.op.target = some id)
    (got : get s.files id = .ok before) (after : t = s.setPhase i call (.writing (changed outside before call.op)))
  | fails (error : LiveError) (was : call.phase = .locked ∨ ∃ conversation,call.phase = .writing conversation)
    (after : t = {s.setPhase i call (.returned (.error error)) with lock := none})
  | renames (conversation : Conversation) (digest : Str) (was : call.phase = .writing conversation)
    (path : pathFor conversation.id = .ok digest)
    (after : t = {(s.touch digest).setPhase i call (.returned (.ok (.conversation conversation))) with
      files := s.files.insert digest conversation
      lock := none})
  | unlinks (digest : Str) (was : call.phase = .unlinking digest)
    (after : t = {(s.touch digest).setPhase i call (.returned (.ok .done)) with files := s.files.erase digest})

theorem invoke_moved (was : call.phase = .invoked) (ran : s.invoke settings i call outside = some t) : Moved s i call t := by
  have early : call.phase.aside = true := by
    rw [was]
    rfl
  have other : ∀ next,s.setPhase i call next = t → next.holds = false →
      (call.op.target.isSome → next = .checked ∨ ∃ error,next = .returned (.error error)) → Moved s i call t :=
    fun next after unlocked begins => .passes next after.symm unlocked (fun _ => begins) early
  have plain : ∀ next,s.setPhase i call next = t → next.holds = false →
      call.op.target = none → Moved s i call t := by
    intro next after unlocked aside
    refine other next after unlocked fun writer => ?_
    rw [aside] at writer
    cases writer
  unfold State.invoke at ran
  cases op : call.op with
  | create | list | get | delete =>
    simp only [op] at ran
    repeat' split at ran
    all_goals first
      | (cases ran; done)
      | exact plain _ (Option.some.inj ran) rfl (by rw [op]; rfl)
  | append | appendExchange | setArchived =>
    simp only [op] at ran
    split at ran
    · rename_i error _
      exact other _ (Option.some.inj ran) rfl fun _ => .inr ⟨error,rfl⟩
    · exact other _ (Option.some.inj ran) rfl fun _ => .inl rfl

theorem advance_moved (ran : s.advance settings i call outside = some t) : Moved s i call t := by
  -- A phase of a listing or a removal that goes on or returns.
  have passes : ∀ next,s.setPhase i call next = t → next.holds = false →
      call.phase ≠ .invoked → call.phase.aside = true → Moved s i call t :=
    fun next after unlocked started early => .passes next after.symm unlocked (fun begins => absurd begins started) early
  unfold State.advance at ran
  cases phase : call.phase with
  | invoked => simp only [phase] at ran; exact invoke_moved phase ran
  | created conversation =>
    simp only [phase] at ran
    split at ran <;> cases ran
    rename_i free
    exact .takes _ free rfl (.inr ⟨conversation,phase,rfl⟩)
  | checked =>
    simp only [phase] at ran
    split at ran <;> cases ran
    rename_i free
    exact .takes _ free rfl (.inl ⟨phase,rfl⟩)
  | locked =>
    simp only [phase] at ran
    split at ran
    · cases ran
    · rename_i id target
      split at ran
      · rename_i error _; cases ran
        exact .fails error (.inl phase) rfl
      · rename_i before got; cases ran
        exact .loads id before outside phase target got rfl
  | writing conversation =>
    simp only [phase,Option.some.injEq] at ran
    subst ran
    unfold State.rename
    split
    · rename_i error _
      exact .fails error (.inr ⟨conversation,phase⟩) rfl
    · rename_i digest path
      exact .renames conversation digest phase path rfl
  | unlinking digest =>
    simp only [phase,Option.some.injEq] at ran
    subst ran
    unfold State.unlink
    have started : call.phase ≠ .invoked := by rw [phase]; exact fun never => nomatch never
    have early : call.phase.aside = true := by
      rw [phase]
      rfl
    split
    · exact .passes _ rfl rfl (fun begins => absurd begins started) early
    · exact .unlinks digest phase rfl
  | reading names output missed =>
    simp only [phase,Option.some.injEq] at ran
    have started : call.phase ≠ .invoked := by rw [phase]; exact fun never => nomatch never
    have early : call.phase.aside = true := by
      rw [phase]
      rfl
    cases names with
    | nil => exact passes _ ran rfl started early
    | cons digest names =>
      unfold State.readNext at ran
      simp only at ran
      split at ran
      · exact passes _ ran rfl started early
      · exact passes _ ran rfl started early
  | returned answer => simp only [phase] at ran; cases ran

theorem setPhase_elsewhere (apart : j ≠ i) : (s.setPhase i call next).calls[j]? = s.calls[j]? := by
  rw [State.setPhase,List.getElem?_set_ne fun same => apart same.symm]

theorem setPhase_here {next : Phase} (there : ∃ old,s.calls[i]? = some old) :
    (s.setPhase i call next).calls[i]? = some {call with phase := next} := by
  obtain ⟨old,there⟩ := there
  exact List.getElem?_set_self (List.getElem?_eq_some_iff.mp there).1

theorem touch_here {j : Nat} : (s.touch digest).calls[j]? = (s.calls[j]?).map (Task.unsee digest) := by
  rw [State.touch,List.getElem?_map]

theorem moved_elsewhere (moved : Moved s i call t) {j : Nat} (apart : j ≠ i) :
    t.calls[j]? = s.calls[j]? ∨ ∃ digest,t.calls[j]? = (s.calls[j]?).map (Task.unsee digest) := by
  cases moved with
  | passes next after => exact .inl (after ▸ setPhase_elsewhere apart)
  | takes next free after => exact .inl (after ▸ setPhase_elsewhere apart)
  | loads id before outside was target got after => exact .inl (after ▸ setPhase_elsewhere apart)
  | fails error was after => exact .inl (after ▸ setPhase_elsewhere apart)
  | renames conversation digest was path after =>
    have same : t.calls[j]? = (s.touch digest).calls[j]? := after ▸ setPhase_elsewhere apart
    exact .inr ⟨digest,same.trans touch_here⟩
  | unlinks digest was after =>
    have same : t.calls[j]? = (s.touch digest).calls[j]? := after ▸ setPhase_elsewhere apart
    exact .inr ⟨digest,same.trans touch_here⟩

def Task.proper (call : Task) : Prop :=
  call.op.target.isSome → match call.phase with
    | .created _ | .unlinking _ | .reading .. => False
    | _ => True

-- Only the call that holds the lock is behind it.
structure Locks (s : State) : Prop where
  keyed : Keyed s.files
  held : ∀ (i : Nat) (call : Task),s.calls[i]? = some call → call.phase.holds = true → s.lock = some i
  proper : ∀ call ∈ s.calls,call.proper

theorem unsee_holds : (call.unsee digest).phase.holds = call.phase.holds := by
  obtain ⟨op,after,phase⟩ := call
  cases phase <;> rfl

theorem unsee_proper (proper : call.proper) : (call.unsee digest).proper := by
  obtain ⟨op,after,phase⟩ := call
  cases phase with
  | reading => exact proper
  | invoked | created | checked | locked | writing | unlinking | returned => exact proper

theorem Locks.touch (locks : Locks s) (digest : Str) : Locks (s.touch digest) := by
  refine ⟨locks.keyed,?_,?_⟩
  · intro i call there holds
    simp only [State.touch,List.getElem?_map,Option.map_eq_some_iff] at there
    obtain ⟨old,found,rfl⟩ := there
    rw [unsee_holds] at holds
    exact locks.held i old found holds
  · intro call member
    obtain ⟨old,listed,rfl⟩ := List.mem_map.mp member
    exact unsee_proper (locks.proper old listed)

theorem Locks.setPhase (locks : Locks s) {next : Phase} {files : Files} {lock : Option Nat} (keyed : Keyed files)
    (mine : next.holds = true → lock = some i) (others : ∀ j,j ≠ i → s.lock = some j → lock = some j)
    (proper : ({call with phase := next} : Task).proper) :
    Locks {s.setPhase i call next with files := files, lock := lock} := by
  refine ⟨keyed,?_,?_⟩
  · intro j other found holds
    by_cases same : i = j
    · subst same
      have bound := (List.getElem?_eq_some_iff.mp found).1
      simp only [State.setPhase,List.length_set] at bound
      simp only [State.setPhase,List.getElem?_set_self bound,Option.some.injEq] at found
      subst found
      exact mine holds
    · simp only [State.setPhase,List.getElem?_set_ne same] at found
      exact others j (fun eq => same eq.symm) (locks.held j other found holds)
  · intro other member
    rcases List.mem_or_eq_of_mem_set member with old | rfl
    · exact locks.proper other old
    · exact proper

theorem moved_locks (locks : Locks s) (there : s.calls[i]? = some call) (moved : Moved s i call t) : Locks t := by
  have proper := locks.proper call (List.mem_of_getElem? there)
  have released : call.phase.holds = true → ∀ j,j ≠ i → s.lock = some j → none = some j := by
    intro holds j apart other
    rw [locks.held i call there holds] at other
    exact absurd (Option.some.inj other).symm apart
  cases moved with
  | passes next after unlocked begins early =>
    subst after
    refine @Locks.setPhase s i call locks next s.files s.lock locks.keyed ?_ (fun _ _ held => held) ?_
    · intro holds
      rw [unlocked] at holds
      cases holds
    · intro writer
      have stage := proper writer
      cases phase : call.phase with
      | invoked =>
        rcases begins phase writer with rfl | ⟨error,rfl⟩
        · trivial
        · trivial
      | created | unlinking | reading => rw [phase] at stage; exact stage.elim
      | checked | locked | writing | returned => rw [phase] at early; cases early
  | takes next free after waited =>
    subst after
    refine @Locks.setPhase s i call locks next s.files (some i) locks.keyed (fun _ => rfl) ?_ ?_
    · intro j _ held
      rw [free] at held
      cases held
    · intro writer
      have stage := proper writer
      rcases waited with ⟨_,rfl⟩ | ⟨conversation,phase,rfl⟩
      · trivial
      · trivial
  | loads id before outside was target got after =>
    subst after
    refine @Locks.setPhase s i call locks _ s.files s.lock locks.keyed ?_ (fun _ _ held => held) fun _ => trivial
    intro _
    exact locks.held i call there (by rw [was]; rfl)
  | fails error was after =>
    subst after
    refine @Locks.setPhase s i call locks _ s.files none locks.keyed ?_ (released ?_) fun _ => trivial
    · intro holds
      cases holds
    · rcases was with was | ⟨conversation,was⟩ <;> rw [was] <;> rfl
  | renames conversation digest was path after =>
    subst after
    refine (locks.touch digest).setPhase ?_ ?_ (released (by rw [was]; rfl)) fun _ => trivial
    · intro d c found
      rw [get_insert] at found
      split at found
      · rename_i same; cases found
        exact same ▸ path
      · exact locks.keyed d c found
    · intro holds
      cases holds
  | unlinks digest was after =>
    subst after
    refine @Locks.setPhase (s.touch digest) i call (locks.touch digest) _ (s.files.erase digest) s.lock ?_ ?_
      (fun _ _ held => held) fun _ => trivial
    · intro d c found
      rw [get_erase] at found
      split at found
      · cases found
      · exact locks.keyed d c found
    · intro holds
      cases holds

theorem act_locks (locks : Locks s) (ran : act settings s action = some t) : Locks t := by
  cases action with
  | call op =>
    cases ran
    refine ⟨locks.keyed,?_,?_⟩
    · intro i call there holds
      by_cases old : i < s.calls.length
      · rw [List.getElem?_append_left old] at there
        exact locks.held i call there holds
      · rw [List.getElem?_append_right (Nat.le_of_not_lt old),List.getElem?_singleton] at there
        split at there <;> cases there
        cases holds
    · intro call member
      rcases List.mem_append.mp member with old | new
      · exact locks.proper call old
      · rw [List.mem_singleton.mp new]; exact fun _ => trivial
  | step i outside =>
    obtain ⟨call,there,ran⟩ := Option.bind_eq_some_iff.mp ran
    exact moved_locks locks there (advance_moved ran)

end HologramLive.History
