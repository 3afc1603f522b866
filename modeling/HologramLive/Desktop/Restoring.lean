import HologramLive.Desktop.Live
namespace HologramLive.Desktop
open Tables Runs

variable {owner : Str → Kappa} {s t : State} {sessionId : Str} {entry : DesktopSessionEntry} {i : Nat} {call : Call}
  {archiveKappa : Kappa} {starting : Starting} {started : ApplicationSession}

def State.registers (s : State) (archiveKappa : Kappa) (starting : Starting) (started : ApplicationSession) : Prop :=
  started.archiveKappa = archiveKappa ∧ started.applicationKappas.find? s.isOpen = none ∧ starting.attachments.isOk = true

instance : Decidable (s.registers archiveKappa starting started) := inferInstanceAs (Decidable (_ ∧ _ ∧ _))

def fine (s : State) : Action → Prop
  | .start archiveKappa starting => ∀ started,s.prepare archiveKappa starting = .ok started →
    if s.registers archiveKappa starting started then s.entries[s.nextSessionId]? = none else starting.stopped = .ok ()
  | .finish i (.error _) => ∀ (call : Call) (sessionId : Str) (entry : DesktopSessionEntry),s.calls[i]? = some call →
    call.work = .awaiting sessionId entry → Free s sessionId entry
  | _ => True

open State

theorem prepare_ok (admitted : s.prepare archiveKappa starting = .ok started) :
    s.archives[archiveKappa]? = none ∧ starting.started = .ok started := by
  unfold prepare at admitted
  split at admitted
  · cases admitted
  · cases admitted
  · split at admitted
    · split at admitted <;> cases admitted
    · rename_i unopened
      split at admitted
      · cases admitted
      · refine ⟨unopened,?_⟩
        cases result : starting.started with
        | error error => rw [result] at admitted; cases admitted
        | ok session => rw [result] at admitted; cases admitted; rfl

theorem registers_free (agree : Agree s) (unopened : s.archives[entry.archiveKappa]? = none)
    (unshared : entry.applicationKappas.find? s.isOpen = none) (unused : s.entries[sessionId]? = none) :
    Free s sessionId entry := by
  refine ⟨unused,fun other there held => ⟨?_,?_⟩⟩
  · intro same
    have named := (agree.archives entry.archiveKappa other).mpr ⟨there,held,same⟩
    simp only [unopened] at named
    cases named
  · intro kappa member theirs
    have named := (agree.applications kappa other).mpr ⟨there,held,theirs⟩
    have closed := List.find?_eq_none.mp unshared kappa member
    simp [isOpen,named] at closed

variable {attachments : Except Str (List Str)}

theorem labelsForApplications_labelled
    (made : labelsForApplications owner attachments entry.applicationKappas = .ok labels) (labelled : entry.windowLabels = labels) :
    Labelled owner entry := by
  intro label member
  cases attachments with
  | error error => cases made
  | ok all =>
    cases made
    rw [labelled,List.mem_insertionSort] at member
    simpa using (List.mem_filter.mp member).2

theorem registerStarted_error
    (failed : s.registerStarted owner archiveKappa started session attachments = .error error) :
    ¬(started.applicationKappas.find? s.isOpen = none ∧ attachments.isOk = true) := by
  rintro ⟨unshared,listed⟩
  cases attachments with
  | error reason => cases listed
  | ok labels => simp only [registerStarted,unshared] at failed; cases failed

theorem registerStarted_ok {report : DesktopSessionReport}
    (registered : s.registerStarted owner archiveKappa started session attachments = .ok (report,t)) :
    ∃ labels,labelsForApplications owner attachments started.applicationKappas = .ok labels ∧
      started.applicationKappas.find? s.isOpen = none ∧ attachments.isOk = true ∧
      t = ({s with nextId := s.nextNumber} : State).put s.nextSessionId
        ⟨archiveKappa,started.applicationKappa,started.applicationKappas,labels,session⟩ := by
  cases unshared : started.applicationKappas.find? s.isOpen with
  | some candidate => simp only [registerStarted,unshared] at registered; cases registered
  | none =>
    simp only [registerStarted,unshared] at registered
    cases attachments with
    | error reason => cases registered
    | ok labels => cases registered; exact ⟨_,rfl,rfl,rfl,rfl⟩

theorem modify_last {α : Type} (before : List α) (last : α) (f : α → α) :
    (before ++ [last]).modify before.length f = before ++ [f last] := by
  induction before with
  | nil => rfl
  | cons first rest ih => simpa using ih

theorem settled_sound (sound : Sound owner s) (stopped : starting.stopped = .ok ()) :
    Sound owner (({s with sessions := s.sessions ++ [started]} : State).settle s.sessions.length starting.stopped) := by
  refine ⟨⟨sound.agree.archives,sound.agree.applications,sound.agree.windows⟩,?_,sound.clean⟩
  have beyond : Kept owner s.entryAt (s.sessions ++ [{started with state := .stopped}]) := sound.kept.ended rfl
  have last := modify_last s.sessions started fun application : ApplicationSession => {application with state := .stopped}
  rw [←last] at beyond
  rw [stopped]
  exact beyond

theorem start_sound (sound : Sound owner s) (allowed : fine s (.start archiveKappa starting))
    (runs : ∀ started,starting.started = .ok started → started.state = .running) :
    Sound owner (s.startSession owner archiveKappa starting).2 := by
  unfold startSession
  cases admitted : s.prepare archiveKappa starting with
  | error answer => exact sound
  | ok started =>
    obtain ⟨unopened,ran⟩ := prepare_ok admitted
    have settled : starting.stopped = .ok () → Sound owner
        (({s with sessions := s.sessions ++ [started]} : State).settle s.sessions.length starting.stopped) := settled_sound sound
    have held := allowed started admitted
    dsimp only
    by_cases same : started.archiveKappa = archiveKappa
    · rw [if_neg (not_not.mpr same)]
      cases result : registerStarted owner ({s with sessions := s.sessions ++ [started]} : State) archiveKappa started
        s.sessions.length starting.attachments with
      | error error =>
        rw [if_neg fun registers => registerStarted_error result registers.2] at held
        exact settled held
      | ok registered =>
        obtain ⟨report,registered⟩ := registered
        obtain ⟨labels,made,unshared,listed,rfl⟩ := registerStarted_ok result
        rw [if_pos ⟨same,unshared,listed⟩] at held
        let entry : DesktopSessionEntry :=
          ⟨archiveKappa,started.applicationKappa,started.applicationKappas,labels,s.sessions.length⟩
        have free : Free s s.nextSessionId entry := registers_free sound.agree unopened unshared held
        have mine : Labelled owner entry := labelsForApplications_labelled made rfl
        have agree := put_agree sound.agree sound.labelled free mine
        refine ⟨⟨agree.archives,agree.applications,agree.windows⟩,?_,sound.clean⟩
        have going : started.state ≠ .stopped := by
          rw [runs started ran]; intro beyond
          cases beyond
        have unused : s.entryAt (.listed s.nextSessionId) = none := held
        have kept := sound.kept.started unused mine going rfl rfl
        rw [←put_entryAt] at kept; exact kept
    · rw [if_pos same]
      have apart : ¬s.registers archiveKappa starting started := fun registers => same registers.1
      rw [if_neg apart] at held
      exact settled held

theorem begin_sound (sound : Sound owner s) (there : s.calls[i]? = some call) (began : s.beginStop i call = some t) :
    Sound owner t := by
  have bound := (List.getElem?_eq_some_iff.mp there).1
  unfold beginStop at began
  split at began
  · rename_i sessionId asked
    have idle : s.entryAt (.stopping i) = none := by
      simp [entryAt,there,asked,Work.taken]
    split at began
    · cases began
      refine ⟨⟨sound.agree.archives,sound.agree.applications,sound.agree.windows⟩,?_,sound.clean⟩
      rw [setCall_entryAt bound,answer_taken,Function.update_eq_self_iff.mpr idle.symm]
      exact sound.kept
    · rename_i entry found
      cases began
      have agree := take_agree sound.agree found
      refine ⟨⟨agree.archives,agree.applications,agree.windows⟩,?_,sound.clean⟩
      have length : i < (s.take sessionId entry).calls.length := bound
      rw [setCall_entryAt length,take_entryAt]
      exact sound.kept.moved (p := .listed sessionId) found idle
  · cases began

theorem finish_sound (sound : Sound owner s) (there : s.calls[i]? = some call)
    (allowed : fine s (.finish i stopped)) (finished : s.finishStop i call stopped = some t) : Sound owner t := by
  have bound := (List.getElem?_eq_some_iff.mp there).1
  unfold finishStop at finished
  split at finished
  · rename_i sessionId entry awaits
    have here : s.entryAt (.stopping i) = some entry := by
      simp [entryAt,there,awaits,Work.taken]
    have length : i < (s.settle entry.session stopped).calls.length := bound
    cases stopped with
    | ok =>
      cases finished
      refine ⟨⟨sound.agree.archives,sound.agree.applications,sound.agree.windows⟩,?_,sound.clean⟩
      rw [setCall_entryAt length,answer_taken]
      exact sound.kept.stopped here
    | error error =>
      cases finished
      have free := allowed call sessionId entry there awaits
      have mine := sound.kept.labelled (.stopping i) entry here
      have agree := put_agree sound.agree sound.labelled free mine
      refine ⟨⟨agree.archives,agree.applications,agree.windows⟩,?_,?_⟩
      · have unused : s.entryAt (.listed sessionId) = none := free.1
        have moved := (sound.kept.failed here).moved here unused
        rw [Function.update_comm (by simp)] at moved
        have placed := @setCall_entryAt (s.put sessionId entry) i (call.answer (.error error)) bound
        rw [answer_taken,put_entryAt] at placed; rw [←placed] at moved
        exact moved
      · have clear := free_unoccupied sound.agree sound.labelled free mine
        exact Bool.or_eq_false_iff.mpr ⟨sound.clean,clear⟩
  · cases finished

theorem asked_sound (sound : Sound owner s) (asks : call.work.taken = none) :
    Sound owner ({s with calls := s.calls ++ [call]} : State) := by
  refine ⟨⟨sound.agree.archives,sound.agree.applications,sound.agree.windows⟩,?_,sound.clean⟩
  rw [append_entryAt asks]
  exact sound.kept

theorem act_sound (sound : Sound owner s) (allowed : fine s action) (ran : act owner s action = some t) :
    Sound owner t := by
  cases action with
  | start archiveKappa starting =>
    simp only [act] at ran
    split at ran
    · rename_i runs
      cases ran
      refine start_sound sound allowed ?_
      intro started result
      simpa [result,Except.toOption] using runs
    · cases ran
  | stopSession sessionId => cases ran; exact asked_sound sound rfl
  | stopWindow label =>
    simp only [act] at ran
    split at ran <;> cases ran
    · exact asked_sound sound rfl
    · exact sound
  | stopAll sessionIds =>
    simp only [act] at ran
    split at ran
    · split at ran <;> cases ran
      · exact sound
      · exact asked_sound sound rfl
    · cases ran
  | begin i =>
    obtain ⟨call,there,began⟩ := Option.bind_eq_some_iff.mp ran
    exact begin_sound sound there began
  | finish i stopped =>
    obtain ⟨call,there,finished⟩ := Option.bind_eq_some_iff.mp ran
    exact finish_sound sound there allowed finished

structure Consistent (s : State) : Prop where
  agree : Agree s
  live : ∀ (sessionId : Str) (entry : DesktopSessionEntry),s.entries[sessionId]? = some entry →
    ∃ session,s.sessions[entry.session]? = some session ∧ session.state ≠ .stopped ∧
      session.applicationKappas = entry.applicationKappas
  once : ∀ (n m : Nat) (session other : ApplicationSession) (kappa : Kappa),s.sessions[n]? = some session →
    s.sessions[m]? = some other → session.state ≠ .stopped → other.state ≠ .stopped →
    kappa ∈ session.applicationKappas → kappa ∈ other.applicationKappas → n = m
  reachable : ∀ (n : Nat) (session : ApplicationSession),s.sessions[n]? = some session → session.state ≠ .stopped →
    ∃ sessionId entry,s.entries[sessionId]? = some entry ∧ entry.session = n ∧
      s.archives[entry.archiveKappa]? = some sessionId ∧ ∀ kappa ∈ session.applicationKappas,s.applications[kappa]? = some sessionId

theorem quiet_covered (sound : Sound owner s) (quiet : ∀ call ∈ s.calls,call.work = .done) {n : Nat} (there : s.sessions[n]? = some session) (going : session.state ≠ .stopped) :
    ∃ sessionId entry,s.entries[sessionId]? = some entry ∧ entry.session = n ∧
      s.archives[entry.archiveKappa]? = some sessionId ∧ ∀ kappa ∈ session.applicationKappas,s.applications[kappa]? = some sessionId := by
  obtain ⟨p,entry,held,number⟩ := sound.kept.covered n session there going
  cases p with
  | listed sessionId =>
    obtain ⟨same,found,_,kappas⟩ := sound.kept.live _ _ held
    rw [number,there] at found
    cases found
    refine ⟨sessionId,entry,held,number,(sound.agree.archives _ _).mpr ⟨entry,held,rfl⟩,?_⟩
    intro kappa member
    have theirs : kappa ∈ entry.applicationKappas := kappas ▸ member
    exact (sound.agree.applications _ _).mpr ⟨entry,held,theirs⟩
  | stopping i =>
    obtain ⟨call,listed,taken⟩ := Option.bind_eq_some_iff.mp held
    rw [quiet call (List.mem_of_getElem? listed)] at taken
    cases taken

theorem sound_consistent (sound : Sound owner s) (quiet : ∀ call ∈ s.calls,call.work = .done) : Consistent s := by
  refine ⟨sound.agree,fun sessionId entry held => sound.kept.live (.listed sessionId) entry held,?_,
    fun n session there going => quiet_covered sound quiet there going⟩
  intro n m session other kappa there there' going going' member member'
  obtain ⟨sessionId,entry,held,number,_,opened⟩ := quiet_covered sound quiet there going
  obtain ⟨sessionId',entry',held',number',_,opened'⟩ := quiet_covered sound quiet there' going'
  have same := opened kappa member
  rw [opened' kappa member'] at same
  cases same
  rw [held] at held'
  cases held'
  exact number.symm.trans number'

theorem sessions_consistent (reached : Reached (Eq empty) (Taken (act owner) fine) s) :
    s.overwritten = false ∧ ((∀ call ∈ s.calls,call.work = .done) → Consistent s) := by
  have sound : Sound owner s := by
    refine reached.invariant (Sound owner) ?_ ?_
    · rintro _ rfl
      exact empty_sound
    · rintro s t _ kept ⟨action,allowed,ran⟩
      exact act_sound kept allowed ran
  exact ⟨sound.clean,sound_consistent sound⟩

instance : Decidable (Free s sessionId entry) :=
  decidable_of_iff (s.entries[sessionId]? = none ∧ ∀ row ∈ s.entries.toList,
    row.2.archiveKappa ≠ entry.archiveKappa ∧ ∀ kappa ∈ entry.applicationKappas,kappa ∉ row.2.applicationKappas) ⟨
    fun free => ⟨free.1,fun other there held => free.2 (other,there) (mem_rows.mpr held)⟩,
    fun free => ⟨free.1,fun row member => free.2 row.1 row.2 (mem_rows.mp member)⟩⟩

instance : ∀ s action,Decidable (fine s action)
  | s,.start archiveKappa starting =>
    match admitted : s.prepare archiveKappa starting with
    | .ok started =>
      decidable_of_iff (if s.registers archiveKappa starting started then s.entries[s.nextSessionId]? = none
          else starting.stopped = .ok ()) ⟨
        fun held other again => by
          rw [admitted] at again; cases again
          exact held,
        fun all => all started admitted⟩
    | .error _ => .isTrue fun other again => by
      rw [admitted] at again
      cases again
  | s,.finish i (.error _) =>
    match there : s.calls[i]? with
    | some ⟨.awaiting sessionId entry,rest,answers⟩ =>
      decidable_of_iff (Free s sessionId entry) ⟨
        fun free call id other found awaits => by
          rw [there] at found; cases found
          cases awaits
          exact free,
        fun all => all ⟨.awaiting sessionId entry,rest,answers⟩ sessionId entry there rfl⟩
    | some ⟨.asked _,_,_⟩ | some ⟨.done,_,_⟩ | none => .isTrue fun call id other found awaits => by
      rw [there] at found
      cases found <;> cases awaits
  | _,.finish _ (.ok _) | _,.stopSession _ | _,.stopWindow _ | _,.stopAll _ | _,.begin _ => .isTrue trivial

def everything : State → Action → Prop := fun _ _ => True
instance : ∀ s action,Decidable (everything s action) := fun _ _ => .isTrue trivial

def opening (archiveKappa applicationKappa : Kappa) : Action :=
  .start archiveKappa ⟨.ok (some applicationKappa,none),.ok ⟨archiveKappa,applicationKappa,[applicationKappa],.running⟩,
    .ok (),.ok [applicationKappa]⟩

def paint : Action := opening "blake3:01".toList "blake3:02".toList
def chess : Action := opening "blake3:03".toList "blake3:04".toList
def stopFirst : Action := .stopSession "desktop-session-1".toList
def refused : Action := .finish 0 (.error "stop view surface: no window".toList)

-- Another application starts while a stop is under way that fails.
theorem restored_consistent : ∃ s : State,s.entries.size = 2 ∧ s.sessions.length = 2 ∧ s.overwritten = false ∧ Consistent s := by
  have shown : (play (act id) fine empty [paint,stopFirst,.begin 0,chess,refused]).any (fun s => decide
      ((s.entries.size = 2 ∧ s.sessions.length = 2) ∧ ∀ call ∈ s.calls,call.work = .done)) = true := by
    decide
  obtain ⟨s,reached,seen⟩ := play_shows rfl shown
  obtain ⟨⟨listed,started⟩,quiet⟩ := of_decide_eq_true seen
  have settled := sessions_consistent reached
  exact ⟨s,listed,started,settled.1,settled.2 quiet⟩

-- The same application starts again while its stop is under way, and the stop fails.
theorem restored_over : ∃ s,Reached (Eq empty) (Taken (act id) everything) s ∧ (∀ call ∈ s.calls,call.work = .done) ∧
    s.overwritten = true ∧ s.sessions.map (·.state) = [.failed,.running] ∧
    s.sessions.map (·.applicationKappas) = [["blake3:02".toList],["blake3:02".toList]] ∧
    s.applications.toList = [("blake3:02".toList,"desktop-session-1".toList)] := by
  have shown : (play (act id) everything empty [paint,stopFirst,.begin 0,paint,refused]).any (fun s => decide
      ((∀ call ∈ s.calls,call.work = .done) ∧ s.overwritten = true ∧ s.sessions.map (·.state) = [.failed,.running] ∧
        s.sessions.map (·.applicationKappas) = [["blake3:02".toList],["blake3:02".toList]] ∧
        s.applications.toList = [("blake3:02".toList,"desktop-session-1".toList)])) = true := by
    decide
  obtain ⟨s,reached,seen⟩ := play_shows rfl shown
  exact ⟨s,reached,of_decide_eq_true seen⟩

end HologramLive.Desktop
