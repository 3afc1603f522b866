import HologramLive.Holo.Types
import HologramLive.Lib.Runs
namespace HologramLive.Desktop
open Tables Runs

inductive LifecycleState where
  | running
  | stopped
  | failed
deriving DecidableEq, Repr

def LifecycleState.name : LifecycleState → Str
  | .running => "running".toList
  | .stopped => "stopped".toList
  | .failed => "failed".toList

structure ApplicationSession where
  archiveKappa : Kappa
  applicationKappa : Kappa
  applicationKappas : List Kappa
  state : LifecycleState
deriving DecidableEq, Repr

-- `session` is the position among the started ones.
structure DesktopSessionEntry where
  archiveKappa : Kappa
  applicationKappa : Kappa
  applicationKappas : List Kappa
  windowLabels : List Str
  session : Nat
deriving DecidableEq, Repr

structure DesktopSessionReport where
  sessionId : Str
  archiveKappa : Kappa
  applicationKappa : Kappa
  state : Str
  windowCount : Nat
deriving DecidableEq, Repr

-- Where a `stop_session` is: before it takes the lock, or behind the stop of the
-- application, with the entry it took out.
inductive Work where
  | asked (sessionId : Str)
  | awaiting (sessionId : Str) (entry : DesktopSessionEntry)
  | done
deriving DecidableEq, Repr

-- `stop_all` goes on with the rest of the sessions it saw.
structure Call where
  work : Work
  rest : List Str
  answers : List (Except Str DesktopSessionReport)

-- `overwritten` is set when a restored session takes a place that is not free.
structure State where
  nextId : Nat
  entries : Table Str DesktopSessionEntry
  archives : Table Kappa Str
  applications : Table Kappa Str
  windows : Table Str Str
  sessions : List ApplicationSession
  calls : List Call
  overwritten : Bool

def State.empty : State := ⟨0,∅,∅,∅,∅,[],[],false⟩

variable (s : State)

variable (sessionId : Str)

def State.report (entry : DesktopSessionEntry) : DesktopSessionReport :=
  ⟨sessionId,entry.archiveKappa,entry.applicationKappa,
    (s.sessions[entry.session]?.map fun session => session.state.name).getD [],entry.windowLabels.length⟩

def State.settle (session : Nat) (stopped : Except Str Unit) : State :=
  {s with sessions := s.sessions.modify session fun application => {application with state := match stopped with
    | .ok () => .stopped
    | .error _ => .failed}}

-- What the steps of `start_session` outside this file give: the inspection of the
-- archive (its application, and the children of its directory), the start, the
-- stop of a session that is not registered, and the labels in the asset store.
structure Starting where
  inspected : Except Str (Option Kappa × Option (List Kappa))
  started : Except Str ApplicationSession
  stopped : Except Str Unit
  attachments : Except Str (List Str)

-- The application that an attachment's token was made for.
variable (owner : Str → Kappa)

def labelsForApplications (attachments : Except Str (List Str)) (applicationKappas : List Kappa) : Except Str (List Str) :=
  attachments.map fun labels => (labels.filter fun label => owner label ∈ applicationKappas).insertionSort (· ≤ ·)

variable (archiveKappa : Kappa)

def State.prepare (starting : Starting) : Except (Except Str DesktopSessionReport) ApplicationSession :=
  match starting.inspected with
  | .error error => .error (.error error)
  | .ok (none,_) => .error (.error "archive does not contain a .holo application".toList)
  | .ok (some applicationKappa,directory) =>
    match s.archives[archiveKappa]? with
    | some sessionId =>
      match s.entries[sessionId]? with
      | some entry => .error (.ok (s.report sessionId entry))
      | none => .error (.error "desktop application session registry is inconsistent".toList)
    | none =>
      match (applicationKappa :: directory.getD []).findSome? fun kappa =>
        s.applications[kappa]?.map fun sessionId => (kappa,sessionId) with
      | some (kappa,sessionId) =>
        .error (.error ("application ".toList ++ kappa ++ " is already open as ".toList ++ sessionId))
      | none => starting.started.mapError .error

def State.nextNumber : Nat := max ((s.nextId+1)%2^64) 1
def State.nextSessionId : Str := "desktop-session-".toList ++ decimal s.nextNumber

def State.put (entry : DesktopSessionEntry) : State :=
  {s with
    entries := s.entries.insert sessionId entry
    archives := s.archives.insert entry.archiveKappa sessionId
    applications := insertKeys s.applications entry.applicationKappas sessionId
    windows := insertKeys s.windows entry.windowLabels sessionId}

def State.take (entry : DesktopSessionEntry) : State :=
  {s with
    entries := s.entries.erase sessionId
    archives := s.archives.erase entry.archiveKappa
    applications := eraseKeys s.applications entry.applicationKappas
    windows := eraseKeys s.windows entry.windowLabels}

def State.isOpen (kappa : Kappa) : Bool := s.applications[kappa]?.isSome

def State.registerStarted (s : State) (archiveKappa : Kappa) (started : ApplicationSession) (session : Nat)
    (attachments : Except Str (List Str)) : Except Str (DesktopSessionReport × State) :=
  match started.applicationKappas.find? s.isOpen with
  | some candidate => .error ("application ".toList ++ candidate ++ " is already open".toList)
  | none => do
    let windowLabels ← labelsForApplications owner attachments started.applicationKappas
    let sessionId := s.nextSessionId
    let entry : DesktopSessionEntry := ⟨archiveKappa,started.applicationKappa,started.applicationKappas,windowLabels,session⟩
    .ok (s.report sessionId entry,{s with nextId := s.nextNumber}.put sessionId entry)

def State.startSession (s : State) (archiveKappa : Kappa) (starting : Starting) :
    Except Str DesktopSessionReport × State :=
  match s.prepare archiveKappa starting with
  | .error answer => (answer,s)
  | .ok started =>
    let session := s.sessions.length
    let s := {s with sessions := s.sessions ++ [started]}
    if started.archiveKappa ≠ archiveKappa then
      (.error ("catalog archive identity ".toList ++ archiveKappa ++ " does not match verified bytes ".toList ++
        started.archiveKappa),s.settle session starting.stopped)
    else
      match s.registerStarted owner archiveKappa started session starting.attachments with
      | .ok (report,registered) => (.ok report,registered)
      | .error error =>
        (.error (match starting.stopped with
          | .ok () => error
          | .error stopError => error ++ "; stop unregistered application session: ".toList ++ stopError),
          s.settle session starting.stopped)

def Call.answer (call : Call) (answer : Except Str DesktopSessionReport) : Call :=
  match call.rest with
  | [] => ⟨.done,[],call.answers ++ [answer]⟩
  | sessionId :: rest => ⟨.asked sessionId,rest,call.answers ++ [answer]⟩

def State.setCall (i : Nat) (call : Call) : State := {s with calls := s.calls.set i call}

def State.beginStop (i : Nat) (call : Call) : Option State :=
  match call.work with
  | .asked sessionId =>
    match s.entries[sessionId]? with
    | none => some (s.setCall i (call.answer (.error
        ("application session ".toList ++ quoted sessionId ++ " is not open".toList))))
    | some entry => some ((s.take sessionId entry).setCall i {call with work := .awaiting sessionId entry})
  | _ => none

def State.occupied (entry : DesktopSessionEntry) : Bool :=
  s.entries[sessionId]?.isSome || s.archives[entry.archiveKappa]?.isSome || entry.applicationKappas.any s.isOpen ||
    entry.windowLabels.any fun label => s.windows[label]?.isSome

def State.finishStop (i : Nat) (call : Call) (stopped : Except Str Unit) : Option State :=
  match call.work with
  | .awaiting sessionId entry =>
    let s := s.settle entry.session stopped
    match stopped with
    | .ok () => some (s.setCall i (call.answer (.ok (s.report sessionId entry))))
    | .error error =>
      some ({s.put sessionId entry with overwritten := s.overwritten || s.occupied sessionId entry}.setCall i
        (call.answer (.error error)))
  | _ => none

inductive Action where
  | start (archiveKappa : Kappa) (starting : Starting)
  | stopSession (sessionId : Str)
  | stopWindow (label : Str)
  | stopAll (sessionIds : List Str)
  | begin (i : Nat)
  | finish (i : Nat) (stopped : Except Str Unit)

def act (s : State) : Action → Option State
  | .start archiveKappa starting =>
    if starting.started.toOption.all (·.state = .running) then some (s.startSession owner archiveKappa starting).2 else none
  | .stopSession sessionId => some {s with calls := s.calls ++ [⟨.asked sessionId,[],[]⟩]}
  | .stopWindow label =>
    match s.windows[label]? with
    | some sessionId => some {s with calls := s.calls ++ [⟨.asked sessionId,[],[]⟩]}
    | none => some s
  | .stopAll sessionIds =>
    if sessionIds.isPerm s.entries.keys then
      match sessionIds with
      | [] => some s
      | sessionId :: rest => some {s with calls := s.calls ++ [⟨.asked sessionId,rest,[]⟩]}
    else none
  | .begin i => s.calls[i]?.bind (s.beginStop i)
  | .finish i stopped => s.calls[i]?.bind fun call => s.finishStop i call stopped

end HologramLive.Desktop

namespace HologramLive.Desktop
open Tables Runs

section Indexes
variable {κ : Type} {entries : Table Str DesktopSessionEntry} {has : DesktopSessionEntry → κ → Prop}
  [∀ entry k,Decidable (has entry k)] {look look' : κ → Option Str} {sessionId : Str} {entry : DesktopSessionEntry}

def Indexes (entries : Table Str DesktopSessionEntry) (has : DesktopSessionEntry → κ → Prop) (look : κ → Option Str) : Prop :=
  ∀ k sessionId,look k = some sessionId ↔ ∃ entry,entries[sessionId]? = some entry ∧ has entry k

theorem Indexes.put (indexes : Indexes entries has look) (free : entries[sessionId]? = none)
    (apart : ∀ (other : Str) (there : DesktopSessionEntry) (k : κ),entries[other]? = some there → has there k → ¬has entry k)
    (looks : ∀ k,look' k = if has entry k then some sessionId else look k) :
    Indexes (entries.insert sessionId entry) has look' := by
  intro k other
  rw [looks]
  constructor
  · intro found
    split at found
    · rename_i mine
      cases found
      exact ⟨entry,by rw [get_insert,if_pos rfl],mine⟩
    · obtain ⟨there,held,theirs⟩ := (indexes k other).mp found
      refine ⟨there,?_,theirs⟩
      rw [get_insert]
      split
      · rename_i same; rw [←same,free] at held
        cases held
      · exact held
  · rintro ⟨there,held,theirs⟩
    rw [get_insert] at held
    split at held
    · rename_i same
      cases held
      rw [if_pos theirs,same]
    · rw [if_neg (apart other there k held theirs)]
      exact (indexes k other).mpr ⟨there,held,theirs⟩

theorem Indexes.take (indexes : Indexes entries has look) (found : entries[sessionId]? = some entry)
    (looks : ∀ k,look' k = if has entry k then none else look k) : Indexes (entries.erase sessionId) has look' := by
  intro k other
  rw [looks]
  constructor
  · intro named
    split at named
    · cases named
    · rename_i not_mine
      obtain ⟨there,held,theirs⟩ := (indexes k other).mp named
      refine ⟨there,?_,theirs⟩
      rw [get_erase]
      split
      · rename_i same; rw [←same,found] at held
        cases held; exact absurd theirs not_mine
      · exact held
  · rintro ⟨there,held,theirs⟩
    rw [get_erase] at held
    split at held
    · cases held
    · rename_i other_id
      have named := (indexes k other).mpr ⟨there,held,theirs⟩
      split
      · rename_i mine
        have again := (indexes k sessionId).mpr ⟨entry,found,mine⟩
        rw [named] at again; cases again
        exact absurd rfl other_id
      · exact named

end Indexes

-- The four maps describe one set of sessions.
structure Agree (s : State) : Prop where
  archives : Indexes s.entries (fun entry kappa => entry.archiveKappa = kappa) fun kappa => s.archives[kappa]?
  applications : Indexes s.entries (fun entry kappa => kappa ∈ entry.applicationKappas) fun kappa => s.applications[kappa]?
  windows : Indexes s.entries (fun entry label => label ∈ entry.windowLabels) fun label => s.windows[label]?

def Free (s : State) (sessionId : Str) (entry : DesktopSessionEntry) : Prop :=
  s.entries[sessionId]? = none ∧ ∀ (other : Str) (there : DesktopSessionEntry),s.entries[other]? = some there →
    there.archiveKappa ≠ entry.archiveKappa ∧ ∀ kappa ∈ entry.applicationKappas,kappa ∉ there.applicationKappas

def Labelled (owner : Str → Kappa) (entry : DesktopSessionEntry) : Prop :=
  ∀ label ∈ entry.windowLabels,owner label ∈ entry.applicationKappas

-- Every label of a registered session was made for one of its applications.
def AllLabelled (owner : Str → Kappa) (s : State) : Prop :=
  ∀ (sessionId : Str) (entry : DesktopSessionEntry),s.entries[sessionId]? = some entry → Labelled owner entry

variable {owner : Str → Kappa} {s : State} {sessionId : Str} {entry : DesktopSessionEntry}

theorem labels_apart (mine : Labelled owner entry) (theirs : Labelled owner there)
    (apart : ∀ kappa ∈ entry.applicationKappas,kappa ∉ there.applicationKappas)
    (shared : label ∈ there.windowLabels) : label ∉ entry.windowLabels := by
  intro member
  exact apart (owner label) (mine label member) (theirs label shared)

theorem put_agree (agree : Agree s) (labelled : AllLabelled owner s) (free : Free s sessionId entry)
    (mine : Labelled owner entry) : Agree (s.put sessionId entry) := by
  obtain ⟨unused,apart⟩ := free
  refine ⟨agree.archives.put unused ?_ ?_,agree.applications.put unused ?_ ?_,agree.windows.put unused ?_ ?_⟩
  · intro other there kappa held theirs same
    exact (apart other there held).1 (theirs.trans same.symm)
  · intro kappa
    exact get_insert ..
  · intro other there kappa held theirs member
    exact (apart other there held).2 kappa member theirs
  · intro kappa
    have looked := get_insertKeys entry.applicationKappas sessionId s.applications kappa
    by_cases member : kappa ∈ entry.applicationKappas <;> simpa [State.put,member] using looked
  · intro other there label held theirs
    exact labels_apart mine (labelled other there held) (apart other there held).2 theirs
  · intro label
    have looked := get_insertKeys entry.windowLabels sessionId s.windows label
    by_cases member : label ∈ entry.windowLabels <;> simpa [State.put,member] using looked

theorem take_agree (agree : Agree s) (found : s.entries[sessionId]? = some entry) : Agree (s.take sessionId entry) := by
  refine ⟨agree.archives.take found ?_,agree.applications.take found ?_,agree.windows.take found ?_⟩
  · intro kappa
    exact get_erase ..
  · intro kappa
    have looked := get_eraseKeys entry.applicationKappas s.applications kappa
    by_cases member : kappa ∈ entry.applicationKappas <;> simpa [State.take,member] using looked
  · intro label
    have looked := get_eraseKeys entry.windowLabels s.windows label
    by_cases member : label ∈ entry.windowLabels <;> simpa [State.take,member] using looked

theorem free_unoccupied (agree : Agree s) (labelled : AllLabelled owner s) (free : Free s sessionId entry)
    (mine : Labelled owner entry) : s.occupied sessionId entry = false := by
  obtain ⟨unused,apart⟩ := free
  have archive : s.archives[entry.archiveKappa]? = none := by
    cases named : s.archives[entry.archiveKappa]? with
    | none => rfl
    | some other =>
      obtain ⟨there,held,same⟩ := (agree.archives _ other).mp named
      exact absurd same (apart other there held).1
  have applications : entry.applicationKappas.any s.isOpen = false := by
    rw [List.any_eq_false]
    intro kappa member taken
    obtain ⟨other,named⟩ := Option.isSome_iff_exists.mp taken
    obtain ⟨there,held,theirs⟩ := (agree.applications kappa other).mp named
    exact (apart other there held).2 kappa member theirs
  have windows : (entry.windowLabels.any fun label => s.windows[label]?.isSome) = false := by
    rw [List.any_eq_false]
    intro label member taken
    obtain ⟨other,named⟩ := Option.isSome_iff_exists.mp taken
    obtain ⟨there,held,theirs⟩ := (agree.windows label other).mp named
    exact labels_apart mine (labelled other there held) (apart other there held).2 theirs member
  simp only [State.occupied,unused,archive,applications,windows,Option.isSome_none,Bool.or_false]

end HologramLive.Desktop
