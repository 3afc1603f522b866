import HologramLive.Artifact.Reference
import HologramLive.Lib.Runs
namespace HologramLive.Daemon
open Runs

-- Where a call of `acquire` is, and its guard after it. A number is the inode
-- that the call has open.
inductive Phase where
  | opening
  | opened (inode : Nat)
  | blocked (inode : Nat)
  | locked (inode : Nat)
  | held (inode : Nat)
  | unlinking (inode : Nat)
  | closing (inode : Nat)
  | done (refusal : Option LiveError)

def Phase.locks : Phase → Option Nat
  | .locked inode | .held inode | .unlinking inode | .closing inode => some inode
  | _ => none

structure Attempt where
  pid : Nat
  phase : Phase

-- `lock` is the inode under the name `hologram.lock`, `pid` what is in
-- `hologram.pid`; `inodes` counts the inodes there have been.
structure State where
  lock : Option Nat
  pid : Option Str
  inodes : Nat
  attempts : List Attempt

def State.isLocked (s : State) (inode : Nat) : Bool := s.attempts.any fun attempt => attempt.phase.locks = some inode

def State.enter (s : State) (i : Nat) (attempt : Attempt) (phase : Phase) : State :=
  {s with attempts := s.attempts.set i {attempt with phase := phase}}

def parseU32 (text : Str) : Option Nat :=
  let digits := match text with
    | '+' :: rest => rest
    | _ => text
  if digits = [] ∨ ¬digits.all Char.isDigit then none
  else
    let n := digits.foldl (fun n c => n*10+(c.toNat - '0'.toNat)) 0
    if n ≤ u32Max then some n else none

def State.readPid (s : State) : Option Nat := s.pid.bind fun content => parseU32 (trimWhitespace content)

def conflict (lockPath : Str) (owner : Option Nat) : LiveError :=
  .conflict ("another hologram daemon".toList ++
    (match owner with
      | some pid => " (pid ".toList ++ decimal pid ++ ")".toList
      | none => []) ++ " owns ".toList ++ lockPath)

inductive Action where
  | acquire (pid : Nat)
  | advance (i : Nat)
  | fail (i : Nat) (error : LiveError) (left : Option Str)
  | keep (i : Nat)
  | exit (i : Nat)

variable (lockPath : Str)

def advance (s : State) (i : Nat) (attempt : Attempt) : Option State :=
  match attempt.phase with
  | .opening =>
    match s.lock with
    | some inode => some (s.enter i attempt (.opened inode))
    | none =>
      some ({s with lock := some s.inodes, inodes := s.inodes+1}.enter i attempt (.opened s.inodes))
  | .opened inode =>
    if s.isLocked inode then some (s.enter i attempt (.blocked inode)) else some (s.enter i attempt (.locked inode))
  | .blocked _ => some (s.enter i attempt (.done (some (conflict lockPath s.readPid))))
  | .locked inode => some ({s with pid := some (decimal attempt.pid)}.enter i attempt (.held inode))
  | .held inode => some ({s with pid := none}.enter i attempt (.unlinking inode))
  | .unlinking inode => some ({s with lock := none}.enter i attempt (.closing inode))
  | .closing _ => some (s.enter i attempt (.done none))
  | .done _ => none

-- An operation of `acquire` that fails closes what the call has open; a write
-- of the process id that fails may leave anything in the file.
def fails (s : State) (i : Nat) (attempt : Attempt) (error : LiveError) (left : Option Str) : Option State :=
  match attempt.phase with
  | .opening | .opened _ => some (s.enter i attempt (.done (some error)))
  | .locked _ => some ({s with pid := left}.enter i attempt (.done (some error)))
  | _ => none

def keeps (s : State) (i : Nat) (attempt : Attempt) : Option State :=
  match attempt.phase with
  | .held inode => some (s.enter i attempt (.unlinking inode))
  | .unlinking inode => some (s.enter i attempt (.closing inode))
  | _ => none

def act (s : State) : Action → Option State
  | .acquire pid => some {s with attempts := s.attempts ++ [⟨pid,.opening⟩]}
  | .advance i => s.attempts[i]?.bind (advance lockPath s i)
  | .fail i error left => s.attempts[i]?.bind fun attempt => fails s i attempt error left
  | .keep i => s.attempts[i]?.bind (keeps s i)
  | .exit i => s.attempts[i]?.map fun attempt => s.enter i attempt (.done none)

def Start (s : State) : Prop := s.attempts = [] ∧ ∀ inode,s.lock = some inode → inode < s.inodes

def fine (s : State) : Action → Prop
  | .advance i => ∀ attempt inode,s.attempts[i]? = some attempt → attempt.phase = .opened inode →
      s.lock = some inode ∨ s.isLocked inode = true
  | _ => True

end HologramLive.Daemon

namespace HologramLive.Daemon
open Runs

def Phase.owns : Phase → Option Nat
  | .locked inode | .held inode | .unlinking inode => some inode
  | _ => none

def Phase.live : Phase → Bool
  | .locked _ | .held _ => true
  | _ => false

def Alone (s : State) (i : Nat) : Prop := ∀ (j : Nat) (other : Attempt),s.attempts[j]? = some other → j ≠ i → other.phase.owns = none

-- A guard has the inode that the name stands for, so there is one guard at most.
structure Guarded (s : State) : Prop where
  named : ∀ (i : Nat) (attempt : Attempt) (inode : Nat),s.attempts[i]? = some attempt → attempt.phase.owns = some inode → s.lock = some inode
  single : ∀ (i : Nat) (attempt : Attempt) (inode : Nat),s.attempts[i]? = some attempt → attempt.phase.owns = some inode → Alone s i
  written : ∀ (i : Nat) (attempt : Attempt) (inode : Nat),s.attempts[i]? = some attempt → attempt.phase = .held inode →
    s.pid = some (decimal attempt.pid)

variable {s t : State} {i : Nat} {attempt : Attempt} {phase : Phase}

theorem start_guarded (start : Start s) : Guarded s := by
  have none_at (i : Nat) (attempt : Attempt) : s.attempts[i]? ≠ some attempt := by
    rw [start.1]
    simp
  exact ⟨fun i attempt _ found => absurd found (none_at i attempt),fun i attempt _ found => absurd found (none_at i attempt),
    fun i attempt _ found => absurd found (none_at i attempt)⟩

theorem set_get {attempts : List Attempt} (found : attempts[i]? = some attempt) (new : Attempt) (j : Nat) :
    (attempts.set i new)[j]? = if i = j then some new else attempts[j]? := by
  rw [List.getElem?_set]
  split
  · rename_i same
    obtain ⟨inside,_⟩ := List.getElem?_eq_some_iff.mp found
    rw [if_pos inside]
  · rfl

-- One call goes to another phase. Where it leaves the name and the process id
-- alone, the others are as they were; where it touches them, there is no other
-- guard.
theorem Guarded.enter (guarded : Guarded s) (found : s.attempts[i]? = some attempt)
    (attempts : t.attempts = s.attempts.set i {attempt with phase := phase})
    (names : ∀ inode,phase.owns = some inode → t.lock = some inode ∧ Alone s i)
    (lock : t.lock = s.lock ∨ Alone s i) (pid : t.pid = s.pid ∨ Alone s i)
    (writes : ∀ inode,phase = .held inode → t.pid = some (decimal attempt.pid)) : Guarded t := by
  have look (j : Nat) (other : Attempt) (at_j : t.attempts[j]? = some other) :
      i = j ∧ other = {attempt with phase := phase} ∨ i ≠ j ∧ s.attempts[j]? = some other := by
    rw [attempts,set_get found] at at_j
    split at at_j
    · rename_i same
      exact .inl ⟨same,(Option.some.inj at_j).symm⟩
    · rename_i apart
      exact .inr ⟨apart,at_j⟩
  refine ⟨?_,?_,?_⟩
  · intro j other inode at_j owns
    rcases look j other at_j with ⟨rfl,rfl⟩ | ⟨apart,before⟩
    · exact (names inode owns).1
    · rcases lock with kept | alone
      · rw [kept]; exact guarded.named j other inode before owns
      · rw [alone j other before (Ne.symm apart)] at owns; cases owns
  · intro j other inode at_j owns k third at_k differs
    rcases look j other at_j with ⟨rfl,rfl⟩ | ⟨apart,before⟩
    · rcases look k third at_k with ⟨same,_⟩ | ⟨_,earlier⟩
      · exact absurd same.symm differs
      · exact (names inode owns).2 k third earlier differs
    · rcases look k third at_k with ⟨rfl,rfl⟩ | ⟨_,earlier⟩
      · -- The one that moved would be a guard beside the guard at `j`.
        cases owned : phase.owns with
        | none => rfl
        | some mine =>
          have none_there := (names mine owned).2 j other before (Ne.symm apart)
          rw [none_there] at owns; cases owns
      · exact guarded.single j other inode before owns k third earlier differs
  · intro j other inode at_j held
    rcases look j other at_j with ⟨rfl,rfl⟩ | ⟨apart,before⟩
    · exact writes inode held
    · rcases pid with kept | alone
      · rw [kept]; exact guarded.written j other inode before held
      · have none_there := alone j other before (Ne.symm apart)
        rw [held] at none_there; cases none_there

theorem Guarded.leaves (guarded : Guarded s) (found : s.attempts[i]? = some attempt) (owns : phase.owns = none) :
    Guarded (s.enter i attempt phase) := by
  refine guarded.enter found rfl ?_ (.inl rfl) (.inl rfl) ?_
  · intro inode owned
    rw [owns] at owned
    cases owned
  · intro inode held
    rw [held] at owns
    cases owns

theorem Guarded.goes (guarded : Guarded s) (found : s.attempts[i]? = some attempt)
    (owns : attempt.phase.owns = some inode) (attempts : t.attempts = s.attempts.set i {attempt with phase := phase})
    (names : ∀ mine,phase.owns = some mine → t.lock = some mine)
    (writes : ∀ mine,phase = .held mine → t.pid = some (decimal attempt.pid)) : Guarded t := by
  have alone := guarded.single i attempt inode found owns
  exact guarded.enter found attempts (fun mine owned => ⟨names mine owned,alone⟩) (.inr alone) (.inr alone) writes

theorem Guarded.nobody (guarded : Guarded s) (free : s.lock = none) (i : Nat) : Alone s i := by
  intro j other at_j _
  cases owned : other.phase.owns with
  | none => rfl
  | some theirs =>
    have named := guarded.named j other theirs at_j owned
    rw [free] at named
    cases named

-- A guard has the lock of the inode that is named, so whoever gets that lock is
-- alone.
theorem Guarded.taken (guarded : Guarded s) (named : s.lock = some inode) (free : s.isLocked inode = false)
    (i : Nat) : Alone s i := by
  intro j other at_j _
  cases owned : other.phase.owns with
  | none => rfl
  | some theirs =>
    have same := guarded.named j other theirs at_j owned
    rw [named] at same
    cases same
    have locks : other.phase.locks = some inode := by
      cases stage : other.phase <;> simp_all [Phase.owns,Phase.locks]
    have locked : s.isLocked inode = true := List.any_eq_true.mpr ⟨other,List.mem_of_getElem? at_j,by simpa using locks⟩
    rw [free] at locked
    cases locked

theorem advance_guarded (guarded : Guarded s) (found : s.attempts[i]? = some attempt)
    (allowed : ∀ inode,attempt.phase = .opened inode → s.lock = some inode ∨ s.isLocked inode = true)
    (ran : advance lockPath s i attempt = some t) : Guarded t := by
  unfold advance at ran
  cases stage : attempt.phase with
  | opening =>
    simp only [stage] at ran
    cases free : s.lock with
    | some inode =>
      simp only [free] at ran
      cases ran
      exact guarded.leaves found rfl
    | none =>
      simp only [free] at ran
      cases ran
      refine guarded.enter found rfl ?_ (.inr (guarded.nobody free i)) (.inl rfl) ?_
      · intro inode owned; cases owned
      · intro inode held; cases held
  | opened inode =>
    simp only [stage] at ran
    split at ran
    · cases ran
      exact guarded.leaves found rfl
    · rename_i free
      cases ran
      have unlocked : s.isLocked inode = false := by simpa using free
      have named : s.lock = some inode := by
        rcases allowed inode stage with named | locked
        · exact named
        · exact absurd locked free
      refine guarded.enter found rfl ?_ (.inl rfl) (.inl rfl) ?_
      · intro mine owned; cases owned
        exact ⟨named,guarded.taken named unlocked i⟩
      · intro mine held; cases held
  | blocked inode =>
    simp only [stage] at ran
    cases ran
    exact guarded.leaves found rfl
  | locked inode =>
    simp only [stage] at ran
    cases ran
    have owns : attempt.phase.owns = some inode := by rw [stage]; rfl
    refine guarded.goes found owns rfl ?_ fun _ _ => rfl
    intro mine owned
    cases owned
    exact guarded.named i attempt inode found owns
  | held inode =>
    simp only [stage] at ran
    cases ran
    have owns : attempt.phase.owns = some inode := by rw [stage]; rfl
    refine guarded.goes found owns rfl ?_ ?_
    · intro mine owned
      cases owned
      exact guarded.named i attempt inode found owns
    · intro mine held
      cases held
  | unlinking inode =>
    simp only [stage] at ran
    cases ran
    have owns : attempt.phase.owns = some inode := by rw [stage]; rfl
    refine guarded.goes found owns rfl ?_ ?_
    · intro mine owned
      cases owned
    · intro mine held
      cases held
  | closing inode =>
    simp only [stage] at ran
    cases ran
    exact guarded.leaves found rfl
  | done refusal => simp only [stage] at ran; cases ran

theorem fails_guarded (guarded : Guarded s) (found : s.attempts[i]? = some attempt)
    (ran : fails s i attempt error left = some t) : Guarded t := by
  unfold fails at ran
  split at ran
  · cases ran
    exact guarded.leaves found rfl
  · cases ran
    exact guarded.leaves found rfl
  · rename_i inode stage
    cases ran
    have owns : attempt.phase.owns = some inode := by rw [stage]; rfl
    refine guarded.goes found owns rfl ?_ ?_
    · intro mine owned
      cases owned
    · intro mine held
      cases held
  · cases ran

theorem keeps_guarded (guarded : Guarded s) (found : s.attempts[i]? = some attempt)
    (ran : keeps s i attempt = some t) : Guarded t := by
  unfold keeps at ran
  split at ran
  · rename_i inode stage
    cases ran
    have owns : attempt.phase.owns = some inode := by rw [stage]; rfl
    refine guarded.goes found owns rfl ?_ ?_
    · intro mine owned
      cases owned
      exact guarded.named i attempt inode found owns
    · intro mine held
      cases held
  · cases ran
    exact guarded.leaves found rfl
  · cases ran

theorem acquire_guarded (guarded : Guarded s) (pid : Nat) :
    Guarded {s with attempts := s.attempts ++ [⟨pid,.opening⟩]} := by
  have look (j : Nat) (other : Attempt) (at_j : (s.attempts ++ [⟨pid,.opening⟩])[j]? = some other) :
      s.attempts[j]? = some other ∨ other.phase = .opening := by
    rw [List.getElem?_append] at at_j
    split at at_j
    · exact .inl at_j
    · have new := List.mem_singleton.mp (List.mem_of_getElem? at_j)
      rw [new]
      exact .inr rfl
  refine ⟨?_,?_,?_⟩
  · intro j other inode at_j owns
    rcases look j other at_j with before | opening
    · exact guarded.named j other inode before owns
    · rw [opening] at owns
      cases owns
  · intro j other inode at_j owns k third at_k apart
    rcases look j other at_j with before | opening
    · rcases look k third at_k with earlier | opening
      · exact guarded.single j other inode before owns k third earlier apart
      · rw [opening]; rfl
    · rw [opening] at owns
      cases owns
  · intro j other inode at_j held
    rcases look j other at_j with before | opening
    · exact guarded.written j other inode before held
    · rw [opening] at held
      cases held

theorem act_guarded (guarded : Guarded s) (allowed : fine s action)
    (ran : act lockPath s action = some t) : Guarded t := by
  cases action with
  | acquire pid => cases ran; exact acquire_guarded guarded pid
  | advance i =>
    obtain ⟨attempt,found,ran⟩ := Option.bind_eq_some_iff.mp ran
    exact advance_guarded guarded found (fun inode stage => allowed attempt inode found stage) ran
  | fail i error left =>
    obtain ⟨attempt,found,ran⟩ := Option.bind_eq_some_iff.mp ran
    exact fails_guarded guarded found ran
  | keep i =>
    obtain ⟨attempt,found,ran⟩ := Option.bind_eq_some_iff.mp ran
    exact keeps_guarded guarded found ran
  | exit i =>
    obtain ⟨attempt,found,same⟩ := Option.map_eq_some_iff.mp ran
    cases same
    exact guarded.leaves found rfl

theorem reached_guarded (reached : Reached Start (Taken (act lockPath) fine) s) : Guarded s := by
  refine reached.invariant Guarded (fun _ => start_guarded) ?_
  intro s t _ guarded step
  obtain ⟨action,allowed,ran⟩ := step
  exact act_guarded guarded allowed ran

theorem live_owns (lives : phase.live = true) : ∃ inode,phase.owns = some inode := by
  cases phase with
  | locked inode | held inode => exact ⟨inode,rfl⟩
  | _ => cases lives

-- One guard at most, and its process id in the file.
theorem guard_exclusive {lockPath : Str} (reached : Reached Start (Taken (act lockPath) fine) s) :
    (∀ (i j : Nat) (one other : Attempt),s.attempts[i]? = some one → s.attempts[j]? = some other →
      one.phase.live = true → other.phase.live = true → i = j) ∧
    ∀ (i : Nat) (attempt : Attempt) (inode : Nat),s.attempts[i]? = some attempt → attempt.phase = .held inode →
      s.pid = some (decimal attempt.pid) := by
  have guarded := reached_guarded reached
  refine ⟨?_,guarded.written⟩
  intro i j one other at_i at_j oneLives otherLives
  obtain ⟨inode,owns⟩ := live_owns oneLives
  obtain ⟨theirs,others⟩ := live_owns otherLives
  apply Classical.byContradiction
  intro apart
  have nothing := guarded.single i one inode at_i owns j other at_j (Ne.symm apart)
  rw [others] at nothing
  cases nothing

def everything : State → Action → Prop := fun _ _ => True
instance : ∀ s action,Decidable (everything s action) := fun _ _ => .isTrue trivial

instance : ∀ s action,Decidable (fine s action)
  | s,.advance i =>
    match found : s.attempts[i]? with
    | none => .isTrue fun attempt inode at_i => by rw [found] at at_i; cases at_i
    | some attempt =>
      match stage : attempt.phase with
      | .opened inode => decidable_of_iff (s.lock = some inode ∨ s.isLocked inode = true) ⟨
          fun kept other mine at_i opened => by
            rw [found] at at_i; cases at_i
            rw [stage] at opened; cases opened
            exact kept,
          fun all => all attempt inode found stage⟩
      | .opening | .blocked _ | .locked _ | .held _ | .unlinking _ | .closing _ | .done _ =>
        .isTrue fun other mine at_i opened => by
          rw [found] at at_i; cases at_i
          rw [stage] at opened; cases opened
  | _,.acquire _ | _,.fail .. | _,.keep _ | _,.exit _ => .isTrue trivial

def fresh : State := ⟨none,none,0,[]⟩

theorem fresh_starts : Start fresh := ⟨rfl,fun _ named => nomatch named⟩

def inTurn : List Action :=
  [.acquire 11,.advance 0,.advance 0,.advance 0,.acquire 22,.advance 1,.advance 1,.advance 1,.advance 0,.advance 0,
    .advance 0,.acquire 22,.advance 2,.advance 2,.advance 2]

theorem one_guard : ∃ s : State,(s.attempts.map fun attempt => (attempt.pid,attempt.phase.live)) = [(11,false),(22,false),(22,true)] ∧
    ∀ (i : Nat) (attempt : Attempt) (inode : Nat),s.attempts[i]? = some attempt → attempt.phase = .held inode →
      s.pid = some (decimal attempt.pid) := by
  have shown : (play (act "hologram.lock".toList) fine fresh inTurn).any (fun s => decide
      ((s.attempts.map fun attempt => (attempt.pid,attempt.phase.live)) = [(11,false),(22,false),(22,true)])) = true := by
    decide
  obtain ⟨s,reached,seen⟩ := play_shows fresh_starts shown
  exact ⟨s,of_decide_eq_true seen,(guard_exclusive reached).2⟩

def crossing : List Action :=
  [.acquire 11,.advance 0,.advance 0,.advance 0,.acquire 22,.advance 1,.advance 0,.advance 0,.advance 0,
    .advance 1,.advance 1,.acquire 33,.advance 2,.advance 2,.advance 2]

theorem two_guards : ∃ s,Reached Start (Taken (act "hologram.lock".toList) everything) s ∧
    (s.attempts.map fun attempt => (attempt.pid,attempt.phase.live)) = [(11,false),(22,true),(33,true)] ∧
    s.pid = some "33".toList := by
  have shown : (play (act "hologram.lock".toList) everything fresh crossing).any (fun s => decide
      ((s.attempts.map fun attempt => (attempt.pid,attempt.phase.live)) = [(11,false),(22,true),(33,true)] ∧
        s.pid = some "33".toList)) = true := by
    decide
  obtain ⟨s,reached,seen⟩ := play_shows fresh_starts shown
  exact ⟨s,reached,of_decide_eq_true seen⟩

end HologramLive.Daemon
