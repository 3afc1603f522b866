import HologramLive.Desktop.Maps
namespace HologramLive.Desktop
open Tables Runs

-- Where the entry of a started session is: in the maps, or with the call that stops it.
inductive Place where
  | listed (sessionId : Str)
  | stopping (i : Nat)
deriving DecidableEq

def Work.taken : Work → Option DesktopSessionEntry
  | .awaiting _ entry => some entry
  | _ => none

def State.entryAt (s : State) : Place → Option DesktopSessionEntry
  | .listed sessionId => s.entries[sessionId]?
  | .stopping i => s.calls[i]?.bind fun call => call.work.taken

section Kept
variable {owner : Str → Kappa} {entryAt : Place → Option DesktopSessionEntry} {sessions : List ApplicationSession}
  {p q : Place} {entry : DesktopSessionEntry}

-- The places hold the sessions that are not stopped, each of them once.
structure Kept (owner : Str → Kappa) (entryAt : Place → Option DesktopSessionEntry) (sessions : List ApplicationSession) :
    Prop where
  labelled : ∀ p entry,entryAt p = some entry → Labelled owner entry
  live : ∀ p entry,entryAt p = some entry → ∃ session,sessions[entry.session]? = some session ∧ session.state ≠ .stopped ∧
    session.applicationKappas = entry.applicationKappas
  once : ∀ p q entry other,entryAt p = some entry → entryAt q = some other → entry.session = other.session → p = q
  covered : ∀ (n : Nat) (session : ApplicationSession),sessions[n]? = some session → session.state ≠ .stopped →
    ∃ p entry,entryAt p = some entry ∧ entry.session = n

theorem Kept.moved (kept : Kept owner entryAt sessions) (here : entryAt p = some entry) (free : entryAt q = none) :
    Kept owner (Function.update (Function.update entryAt p none) q (some entry)) sessions := by
  have apart : p ≠ q := by
    rintro rfl
    rw [here] at free
    cases free
  -- What the places hold afterwards was held before, at the place that `back` gives.
  have back : ∀ r other,Function.update (Function.update entryAt p none) q (some entry) r = some other →
      entryAt (if r = q then p else r) = some other := by
    intro r other held
    simp only [Function.update_apply] at held
    grind
  refine ⟨fun r other held => kept.labelled _ other (back r other held),
    fun r other held => kept.live _ other (back r other held),?_,?_⟩
  · intro r r' other other' held held' same
    have places := kept.once _ _ other other' (back r other held) (back r' other' held') same
    simp only [Function.update_apply] at held held'
    grind
  · intro n session there going
    obtain ⟨r,other,held,number⟩ := kept.covered n session there going
    by_cases moves : r = p
    · subst moves
      rw [here] at held
      cases held
      exact ⟨q,entry,by simp,number⟩
    · refine ⟨r,other,?_,number⟩
      have kept_place : r ≠ q := by
        rintro rfl
        rw [free] at held; cases held
      simp [moves,kept_place,held]

theorem Kept.failed (kept : Kept owner entryAt sessions) (here : entryAt p = some entry) :
    Kept owner entryAt (sessions.modify entry.session fun session => {session with state := .failed}) := by
  refine ⟨kept.labelled,?_,kept.once,?_⟩
  · intro r other held
    obtain ⟨session,there,going,same⟩ := kept.live r other held
    by_cases mine : entry.session = other.session
    · refine ⟨{session with state := .failed},by simp [mine,there],?_,same⟩
      simp
    · exact ⟨session,by simp [mine,there],going,same⟩
  · intro n session there going
    by_cases mine : entry.session = n
    · exact ⟨p,entry,here,mine⟩
    · rw [List.getElem?_modify_ne _ _ mine] at there
      exact kept.covered n session there going

theorem Kept.stopped (kept : Kept owner entryAt sessions) (here : entryAt p = some entry) :
    Kept owner (Function.update entryAt p none) (sessions.modify entry.session fun session => {session with state := .stopped}) := by
  have back : ∀ r other,Function.update entryAt p none r = some other → r ≠ p ∧ entryAt r = some other := by
    intro r other held
    simp only [Function.update_apply] at held
    grind
  refine ⟨fun r other held => kept.labelled r other (back r other held).2,?_,?_,?_⟩
  · intro r other held
    obtain ⟨elsewhere,held⟩ := back r other held
    have apart : entry.session ≠ other.session := by
      intro same
      exact elsewhere (kept.once r p other entry held here same.symm)
    rw [List.getElem?_modify_ne _ _ apart]
    exact kept.live r other held
  · intro r r' other other' held held' same
    exact kept.once r r' other other' (back r other held).2 (back r' other' held').2 same
  · intro n session there going
    by_cases mine : entry.session = n
    · rw [←mine,List.getElem?_modify_eq] at there
      obtain ⟨before,_,rfl⟩ := Option.map_eq_some_iff.mp there
      exact absurd rfl going
    · rw [List.getElem?_modify_ne _ _ mine] at there
      obtain ⟨r,other,held,number⟩ := kept.covered n session there going
      refine ⟨r,other,?_,number⟩
      have elsewhere : r ≠ p := by
        rintro rfl
        rw [here] at held; cases held
        exact mine number
      simpa [elsewhere] using held

theorem Kept.known (kept : Kept owner entryAt sessions) (held : entryAt p = some entry) : entry.session < sessions.length := by
  obtain ⟨session,there,_⟩ := kept.live p entry held
  exact (List.getElem?_eq_some_iff.mp there).1

theorem Kept.live_append (kept : Kept owner entryAt sessions) (held : entryAt p = some entry) (later : List ApplicationSession) :
    ∃ session,(sessions ++ later)[entry.session]? = some session ∧ session.state ≠ .stopped ∧
      session.applicationKappas = entry.applicationKappas := by
  rw [List.getElem?_append_left (kept.known held)]
  exact kept.live p entry held

theorem Kept.ended (kept : Kept owner entryAt sessions) (finished : last.state = .stopped) :
    Kept owner entryAt (sessions ++ [last]) := by
  refine ⟨kept.labelled,fun r other held => kept.live_append held _,kept.once,?_⟩
  intro n session there going
  by_cases earlier : n < sessions.length
  · rw [List.getElem?_append_left earlier] at there
    exact kept.covered n session there going
  · rw [List.getElem?_append_right (Nat.le_of_not_lt earlier),List.getElem?_singleton] at there
    split at there
    · cases there
      exact absurd finished going
    · cases there

theorem Kept.started (kept : Kept owner entryAt sessions) (free : entryAt p = none) (labelled : Labelled owner entry) (going : last.state ≠ .stopped) (kappas : last.applicationKappas = entry.applicationKappas)
    (number : entry.session = sessions.length) : Kept owner (Function.update entryAt p (some entry)) (sessions ++ [last]) := by
  have back : ∀ r other,Function.update entryAt p (some entry) r = some other →
      r = p ∧ other = entry ∨ r ≠ p ∧ entryAt r = some other := by
    intro r other held
    simp only [Function.update_apply] at held
    grind
  refine ⟨?_,?_,?_,?_⟩
  · intro r other held
    rcases back r other held with ⟨_,rfl⟩ | ⟨_,held⟩
    · exact labelled
    · exact kept.labelled r other held
  · intro r other held
    rcases back r other held with ⟨_,rfl⟩ | ⟨_,held⟩
    · exact ⟨last,by simp [number],going,kappas⟩
    · exact kept.live_append held _
  · intro r r' other other' held held' same
    rcases back r other held with ⟨rfl,rfl⟩ | ⟨_,old⟩
    · rcases back r' other' held' with ⟨rfl,_⟩ | ⟨_,old'⟩
      · rfl
      · have earlier := kept.known old'
        omega
    · rcases back r' other' held' with ⟨rfl,rfl⟩ | ⟨_,old'⟩
      · have earlier := kept.known old
        omega
      · exact kept.once r r' other other' old old' same
  · intro n session there active
    by_cases earlier : n < sessions.length
    · rw [List.getElem?_append_left earlier] at there
      obtain ⟨r,other,held,same⟩ := kept.covered n session there active
      refine ⟨r,other,?_,same⟩
      have elsewhere : r ≠ p := by
        rintro rfl
        rw [free] at held; cases held
      simpa [elsewhere] using held
    · have bound := (List.getElem?_eq_some_iff.mp there).1
      rw [List.length_append,List.length_singleton] at bound
      exact ⟨p,entry,by simp,by omega⟩

end Kept

variable {owner : Str → Kappa} {s t : State} {sessionId : Str} {entry : DesktopSessionEntry} {i : Nat} {call : Call}

theorem put_entryAt : (s.put sessionId entry).entryAt = Function.update s.entryAt (.listed sessionId) (some entry) := by
  funext p
  cases p with
  | listed other =>
    simp only [State.entryAt,State.put,get_insert,Function.update_apply,Place.listed.injEq]
    grind
  | stopping i => simp [State.entryAt,State.put]

theorem take_entryAt : (s.take sessionId entry).entryAt = Function.update s.entryAt (.listed sessionId) none := by
  funext p
  cases p with
  | listed other =>
    simp only [State.entryAt,State.take,get_erase,Function.update_apply,Place.listed.injEq]
    grind
  | stopping i => simp [State.entryAt,State.take]

theorem setCall_entryAt (there : i < s.calls.length) :
    (s.setCall i call).entryAt = Function.update s.entryAt (.stopping i) call.work.taken := by
  funext p
  cases p with
  | listed other => simp [State.entryAt,State.setCall]
  | stopping j =>
    simp only [State.entryAt,State.setCall,Function.update_apply,Place.stopping.injEq,List.getElem?_set]
    by_cases same : i = j
    · subst same
      simp [there]
    · have other : j ≠ i := fun eq => same eq.symm
      simp [same,other]

-- A call that asks for a stop holds nothing yet.
theorem append_entryAt (asks : call.work.taken = none) : ({s with calls := s.calls ++ [call]} : State).entryAt = s.entryAt := by
  funext p
  cases p with
  | listed other => rfl
  | stopping j =>
    simp only [State.entryAt]
    by_cases earlier : j < s.calls.length
    · rw [List.getElem?_append_left earlier]
    · rw [List.getElem?_append_right (Nat.le_of_not_lt earlier),List.getElem?_singleton,
        List.getElem?_eq_none (Nat.le_of_not_lt earlier)]
      split
      · exact asks
      · rfl

theorem answer_taken (answer : Except Str DesktopSessionReport) : (call.answer answer).work.taken = none := by
  unfold Call.answer
  split <;> rfl

structure Sound (owner : Str → Kappa) (s : State) : Prop where
  agree : Agree s
  kept : Kept owner s.entryAt s.sessions
  clean : s.overwritten = false

theorem Sound.labelled (sound : Sound owner s) : AllLabelled owner s :=
  fun sessionId entry held => sound.kept.labelled (.listed sessionId) entry held

theorem empty_sound : Sound owner State.empty := by
  have nothing : ∀ p,State.empty.entryAt p = none := by
    intro p
    cases p <;> rfl
  refine ⟨⟨?_,?_,?_⟩,⟨?_,?_,?_,?_⟩,rfl⟩
  iterate 3
    intro k sessionId
    constructor
    · intro found
      cases found
    · rintro ⟨entry,found,_⟩
      cases found
  · intro p entry held
    rw [nothing] at held
    cases held
  · intro p entry held
    rw [nothing] at held
    cases held
  · intro p q entry other held
    rw [nothing] at held
    cases held
  · intro n session there
    cases there

end HologramLive.Desktop
