import HologramLive.History.Steps
namespace HologramLive.History
open Tables Rpc Runs Linear List

variable {settings : Settings} {s t : State} {i j : Nat} {call other : Task} {order : List (Entry Op Answer)} {digest id : Str}
  {files after : Files} {answer : Answer} {conversation : Conversation} {outside : Outside} {op : Op} {e : Entry Op Answer}

-- The ids given out are all different, and none is that of a file of the start.
structure Fresh (s : State) : Prop where
  once : ∀ (i j : Nat) (call other : Task) (id : Str),s.calls[i]? = some call → s.calls[j]? = some other →
    call.made = some id → other.made = some id → i = j
  new : ∀ call ∈ s.calls,∀ id digest,call.made = some id → pathFor id = .ok digest → digest ∉ s.opened

theorem unsee_made : (call.unsee digest).made = call.made := by
  obtain ⟨op,after,phase⟩ := call
  cases phase <;> cases op <;> rfl

theorem Fresh.touch (fresh : Fresh s) (digest : Str) : Fresh (s.touch digest) := by
  refine ⟨?_,?_⟩
  · intro i j call other id there there' made made'
    simp only [State.touch,List.getElem?_map,Option.map_eq_some_iff] at there there'
    obtain ⟨old,found,rfl⟩ := there
    obtain ⟨old',found',rfl⟩ := there'
    rw [unsee_made] at made made'
    exact fresh.once i j old old' id found found' made made'
  · intro call member id digest made path
    obtain ⟨old,listed,rfl⟩ := mem_map.mp member
    rw [unsee_made] at made
    exact fresh.new old listed id digest made path

theorem Fresh.setPhase (fresh : Fresh s) (there : s.calls[i]? = some call) {phase : Phase} {lock : Option Nat}
    (made : ∀ id,({call with phase := phase} : Task).made = some id → call.made = some id ∨ Unused s id) :
    Fresh {s.setPhase i call phase with files := files, lock := lock} := by
  have bound := (List.getElem?_eq_some_iff.mp there).1
  have back : ∀ (j : Nat) (other : Task) (id : Str),(s.setPhase i call phase).calls[j]? = some other → other.made = some id →
      (∃ old,s.calls[j]? = some old ∧ old.made = some id) ∨ j = i ∧ Unused s id := by
    intro j other id found gave
    by_cases same : i = j
    · subst same
      simp only [State.setPhase,List.getElem?_set_self bound,Option.some.injEq] at found
      subst found
      rcases made id gave with before | unused
      · exact .inl ⟨call,there,before⟩
      · exact .inr ⟨rfl,unused⟩
    · simp only [State.setPhase,List.getElem?_set_ne same] at found
      exact .inl ⟨other,found,gave⟩
  refine ⟨?_,?_⟩
  · intro j k one two id found found' gave gave'
    rcases back j one id found gave with ⟨old,held,made⟩ | ⟨rfl,unused⟩
    · rcases back k two id found' gave' with ⟨old',held',made'⟩ | ⟨rfl,unused⟩
      · exact fresh.once j k old old' id held held' made made'
      · exact absurd made (unused.1 old (mem_of_getElem? held))
    · rcases back k two id found' gave' with ⟨old',held',made'⟩ | ⟨rfl,_⟩
      · exact absurd made' (unused.1 old' (mem_of_getElem? held'))
      · rfl
  · intro one member id digest gave path
    obtain ⟨j,found⟩ := mem_iff_getElem?.mp member
    rcases back j one id found gave with ⟨old,held,made⟩ | ⟨_,unused⟩
    · exact fresh.new old (mem_of_getElem? held) id digest made path
    · exact unused.2 digest path

theorem invoke_fresh (fresh : Fresh s) (there : s.calls[i]? = some call) (phase : call.phase = .invoked)
    (allowed : fine settings s (.step i outside)) (ran : s.invoke settings i call outside = some t) : Fresh t := by
  have allowed := allowed call there
  simp only [Allowed,phase] at allowed
  have quiet : (∀ title,call.op ≠ .create title) → ∀ next,Fresh (s.setPhase i call next) := by
    intro others next
    refine @Fresh.setPhase s i call s.files fresh there next s.lock fun id made => ?_
    unfold Task.made at made
    split at made
    · rename_i title _ op _
      exact absurd op (others title)
    · rename_i title _ op _
      exact absurd op (others title)
    · rename_i title _ op _
      exact absurd op (others title)
    · cases made
  unfold State.invoke at ran
  cases op : call.op with
  | create title =>
    simp only [op] at ran allowed
    cases new : newConversation settings title outside.now with
    | error error =>
      simp only [new,Option.some.injEq] at ran
      subst ran
      refine @Fresh.setPhase s i call s.files fresh there _ s.lock fun id made => ?_
      simp [Task.made,op] at made
    | ok conversation =>
      simp only [new,Option.some.injEq] at ran
      subst ran
      refine @Fresh.setPhase s i call s.files fresh there _ s.lock fun id made => ?_
      simp only [Task.made,op,Option.some.injEq] at made
      subst made
      exact .inr (allowed conversation new)
  | list | get | delete | append | appendExchange | setArchived =>
    have others := quiet (by rw [op]; exact fun _ never => by cases never)
    simp only [op] at ran
    repeat' split at ran
    all_goals first | (cases ran; done) | (cases ran; exact others _)

theorem rename_fresh (fresh : Fresh s) (there : s.calls[i]? = some call) (phase : call.phase = .writing conversation) :
    Fresh (s.rename i call conversation) := by
  have made : ∀ id answer,({call with phase := .returned answer} : Task).made = some id →
      (∀ other,answer = .ok (.conversation other) → other = conversation) → call.made = some id := by
    intro id answer gave same
    obtain ⟨op,after,was⟩ := call
    subst phase
    cases op with
    | create title =>
      cases answer with
      | error error => cases gave
      | ok reply =>
        cases reply with
        | conversation other => cases same other rfl; exact gave
        | conversations | done => cases gave
    | list | get | delete | append | appendExchange | setArchived => cases gave
  unfold State.rename
  split
  · refine @Fresh.setPhase s i call s.files fresh there _ none fun id gave => .inl (made id _ gave ?_)
    intro other never
    cases never
  · rename_i digest path
    have here : (s.touch digest).calls[i]? = some call := by
      simp only [State.touch,List.getElem?_map,there,Option.map_some,Task.unsee,phase,Phase.unsee]
      rw [←phase]
    refine (fresh.touch digest).setPhase here fun id gave => .inl (made id _ gave ?_)
    intro other same
    cases same
    rfl

theorem advance_fresh (fresh : Fresh s) (there : s.calls[i]? = some call) (allowed : fine settings s (.step i outside))
    (ran : s.advance settings i call outside = some t) : Fresh t := by
  have quiet : ∀ next lock,({call with phase := next} : Task).made = none →
      Fresh {s.setPhase i call next with lock := lock} := by
    intro next lock nothing
    refine @Fresh.setPhase s i call s.files fresh there next lock fun id made => ?_
    rw [nothing] at made
    cases made
  have nameless : ∀ answer,(∀ conversation,answer ≠ .ok (.conversation conversation)) →
      ({call with phase := .returned answer} : Task).made = none := by
    intro answer other
    unfold Task.made
    split
    · rename_i never
      cases never
    · rename_i never
      cases never
    · rename_i shape
      cases shape
      exact absurd rfl (other _)
    · rfl
  unfold State.advance at ran
  cases phase : call.phase with
  | invoked => simp only [phase] at ran; exact invoke_fresh fresh there phase allowed ran
  | created conversation =>
    simp only [phase] at ran
    split at ran
    · cases ran
      refine @Fresh.setPhase s i call s.files fresh there _ (some i) fun id made => .inl ?_
      obtain ⟨op,after,was⟩ := call
      subst phase
      cases op with
      | create title => exact made
      | list | get | delete | append | appendExchange | setArchived => cases made
    · cases ran
  | checked =>
    simp only [phase] at ran
    split at ran
    · cases ran
      refine quiet _ _ ?_
      obtain ⟨op,after,was⟩ := call
      cases op <;> rfl
    · cases ran
  | locked =>
    simp only [phase] at ran
    split at ran
    · cases ran
    · rename_i id target
      have nothing : ∀ next,({call with phase := next} : Task).made = none := by
        intro next
        cases op : call.op with
        | create | list | get | delete => rw [op] at target; cases target
        | append | appendExchange | setArchived => simp only [Task.made]
      split at ran
      · cases ran; exact quiet _ none (nothing _)
      · cases ran; exact quiet _ s.lock (nothing _)
  | writing conversation =>
    simp only [phase,Option.some.injEq] at ran
    subst ran
    exact rename_fresh fresh there phase
  | unlinking digest =>
    simp only [phase,Option.some.injEq] at ran
    subst ran
    unfold State.unlink
    split
    · exact quiet _ s.lock (nameless _ fun _ never => by cases never)
    · have here : (s.touch digest).calls[i]? = some call := by
        simp only [State.touch,List.getElem?_map,there,Option.map_some,Task.unsee,phase,Phase.unsee]
        rw [←phase]
      refine (fresh.touch digest).setPhase here fun id made => ?_
      rw [nameless (.ok .done) (by intro _ never; cases never)] at made
      cases made
  | reading names output missed =>
    simp only [phase,Option.some.injEq] at ran
    subst ran
    cases names with
    | nil => exact quiet _ s.lock (nameless _ fun _ never => by cases never)
    | cons digest names =>
      unfold State.readNext
      simp only
      split
      · exact quiet _ s.lock (nameless _ fun _ never => by cases never)
      · refine quiet _ s.lock ?_
        obtain ⟨op,after,was⟩ := call
        cases op <;> rfl
  | returned answer => simp only [phase] at ran; cases ran

theorem act_fresh (fresh : Fresh s) (allowed : fine settings s action) (ran : act settings s action = some t) :
    Fresh t := by
  cases action with
  | call op =>
    cases ran
    have back : ∀ (j : Nat) (other : Task) (id : Str),(s.calls ++ [⟨op,s.doneCalls,.invoked⟩])[j]? = some other →
        other.made = some id → s.calls[j]? = some other := by
      intro j other id there made
      by_cases old : j < s.calls.length
      · rw [List.getElem?_append_left old] at there
        exact there
      · rw [List.getElem?_append_right (Nat.le_of_not_lt old),List.getElem?_singleton] at there
        split at there <;> cases there
        cases op <;> cases made
    refine ⟨?_,?_⟩
    · intro i j call other id there there' made made'
      exact fresh.once i j call other id (back i call id there made) (back j other id there' made') made made'
    · intro call member id digest made path
      obtain ⟨j,found⟩ := mem_iff_getElem?.mp member
      exact fresh.new call (mem_of_getElem? (back j call id found made)) id digest made path
  | step i outside =>
    obtain ⟨call,there,ran⟩ := Option.bind_eq_some_iff.mp ran
    exact advance_fresh fresh there allowed ran

theorem reached_fresh (reached : Reached Start (Taken (act settings) (fine settings)) s) : Fresh s := by
  refine reached.invariant Fresh ?_ ?_
  · intro s ⟨_,_,_,calls⟩
    refine ⟨?_,?_⟩
    · intro i j call other id there
      rw [calls] at there
      cases there
    · intro call member
      rw [calls] at member
      cases member
  · rintro s t _ fresh ⟨action,allowed,ran⟩
    exact act_fresh fresh allowed ran

end HologramLive.History
