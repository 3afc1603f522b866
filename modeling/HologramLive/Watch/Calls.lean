import HologramLive.Watch.Registry
namespace HologramLive.Watch
open Tables

-- The registry between two calls: each project is registered under the id of its
-- record.
structure ApplicationWatchRegistry where
  watches : Table Str WatchHandle
  file : Option (List WatchedHoloProject)
  keyed : ∀ id (handle : WatchHandle),watches[id]? = some handle → handle.record.id = id

namespace ApplicationWatchRegistry

variable (s : ApplicationWatchRegistry)

def list : List WatchedHoloProject := s.watches.toList.map (·.2.record)

def registered : List Str := s.list.map (·.id)
def persisted : List Str := (s.file.getD []).map (·.id)

def insertRecord (id : Str) (handle : WatchHandle) (same : handle.record.id = id) : ApplicationWatchRegistry :=
  {s with
    watches := s.watches.insert id handle
    keyed := fun other found held => by
      rw [get_insert] at held
      split at held
      · rename_i is
        cases held
        exact same.trans is
      · exact s.keyed other found held}

def eraseRecord (id : Str) : ApplicationWatchRegistry :=
  {s with
    watches := s.watches.erase id
    keyed := fun other found held => by
      rw [get_erase] at held
      split at held
      · cases held
      · exact s.keyed other found held}

-- The directory, the write and the rename, or the error of the first that fails:
-- the file is replaced by the last of them only.
def persist (failure : Option Str) : Except Str Unit × ApplicationWatchRegistry :=
  match failure with
  | none => (.ok (),{s with file := some s.list})
  | some error => (.error error,s)

end ApplicationWatchRegistry

structure Faults where
  files : Files
  persist : Option Str
  spawn : Option Str
  rollback : Option Str

def displayPath (path : Path) : Str := '/' :: "/".toList.intercalate path

section Calls
variable (host : Host)

variable (s : ApplicationWatchRegistry)

def callRemove (id : Str) (persist : Option Str) : Except Str Unit × ApplicationWatchRegistry :=
  match s.watches[id]? with
  | none => (.error ("watched project ".toList ++ id ++ " was not found".toList),s)
  | some _ => match (s.eraseRecord id).persist persist with
    | (.error error,s) => (.error error,s)
    | (.ok (),s) => (.ok (),s)

theorem recordFor_id (directory : Path) (previous : Option WatchedHoloProject) :
    (recordFor host directory previous).id = host.watchId directory := rfl

-- `registration` stands for the channel and the watcher that the call makes.
def callAdd (directory : Path) (registration : Nat) (faults : Faults) :
    Except Str WatchedHoloProject × ApplicationWatchRegistry :=
  match faults.files.canonicalize directory with
  | none => (.error ("open watched directory ".toList ++ displayPath directory),s)
  | some directory =>
    if !faults.files.isDir directory then (.error (displayPath directory ++ " is not a directory".toList),s)
    else if !faults.files.isFile (directory ++ [manifestName]) then
      (.error (displayPath directory ++ " does not contain ".toList ++ manifestName),s)
    else
      let id := host.watchId directory
      match s.watches[id]? with
      | some existing => (.ok existing.record,s)
      | none =>
        let record := recordFor host directory none
        if !faults.files.watch directory then (.error ("watch ".toList ++ displayPath directory),s)
        else match (s.insertRecord id ⟨record,registration⟩ (recordFor_id host directory none)).persist faults.persist with
          | (.error error,s) => (.error error,s.eraseRecord id)
          | (.ok (),s) => match faults.spawn with
            | some error =>
              let s := ((s.eraseRecord id).persist faults.rollback).2
              (.error ("start directory watch worker: ".toList ++ error),s)
            | none => (.ok record,s)

end Calls

def SameProjects (a b : List Str) : Prop := ∀ id,id ∈ a ↔ id ∈ b

-- A call that fails leaves the projects in memory and those in the file as they
-- were; after one that succeeds they are the same.
def Atomic {α : Type} (s : ApplicationWatchRegistry) (out : Except Str α × ApplicationWatchRegistry) : Prop :=
  match out.1 with
  | .error _ => SameProjects out.2.registered s.registered ∧ SameProjects out.2.persisted s.persisted
  | .ok _ => SameProjects out.2.registered out.2.persisted

section Sets
variable {s : ApplicationWatchRegistry} {id other : Str}

theorem SameProjects.refl (a : List Str) : SameProjects a a := fun _ => Iff.rfl
theorem SameProjects.symm (same : SameProjects a b) : SameProjects b a := fun id => (same id).symm
theorem SameProjects.trans (first : SameProjects a b) (second : SameProjects b c) : SameProjects a c :=
  fun id => (first id).trans (second id)

theorem mem_registered : id ∈ s.registered ↔ (s.watches[id]?).isSome := by
  unfold ApplicationWatchRegistry.registered ApplicationWatchRegistry.list
  rw [List.map_map,List.mem_map,Option.isSome_iff_exists]
  constructor
  · intro ⟨(key,handle),member,named⟩
    have held := mem_rows.mp member
    obtain rfl : key = id := (s.keyed key handle held).symm.trans named
    exact ⟨handle,held⟩
  · intro ⟨handle,held⟩
    exact ⟨(id,handle),mem_rows.mpr held,s.keyed id handle held⟩

theorem mem_erased : other ∈ (s.eraseRecord id).registered ↔ other ≠ id ∧ other ∈ s.registered := by
  rw [mem_registered,mem_registered]
  show ((s.watches.erase id)[other]?).isSome ↔ _
  rw [get_erase]
  split
  · rename_i same
    exact ⟨fun held => (by cases held),fun held => absurd same.symm held.1⟩
  · rename_i differs
    exact ⟨fun held => ⟨fun same => differs same.symm,held⟩,fun held => held.2⟩

theorem mem_inserted {handle : WatchHandle} (same : handle.record.id = id) :
    other ∈ (s.insertRecord id handle same).registered ↔ other = id ∨ other ∈ s.registered := by
  rw [mem_registered,mem_registered]
  show ((s.watches.insert id handle)[other]?).isSome ↔ _
  rw [get_insert]
  split
  · rename_i is
    exact ⟨fun _ => .inl is.symm,fun _ => rfl⟩
  · rename_i differs
    exact ⟨.inr,fun either => either.resolve_left fun is => differs is.symm⟩

theorem inserted_erased {handle : WatchHandle} (same : handle.record.id = id) (free : s.watches[id]? = none) :
    SameProjects ((s.insertRecord id handle same).eraseRecord id).registered s.registered := by
  intro other
  rw [mem_erased,mem_inserted same]
  constructor
  · intro ⟨differs,either⟩
    exact either.resolve_left differs
  · intro held
    refine ⟨?_,.inr held⟩
    rintro rfl
    rw [mem_registered,free] at held
    cases held

theorem persisted_written : SameProjects s.registered ((s.persist none).2.persisted) := SameProjects.refl _

end Sets

inductive WatchCall where
  | add (directory : Path) (registration : Nat) (faults : Faults)
  | remove (id : Str) (persist : Option Str)

def WatchCall.Kept (host : Host) (s : ApplicationWatchRegistry) : WatchCall → Prop
  | .add directory registration faults => Atomic s (callAdd host s directory registration faults)
  | .remove id persist => Atomic s (callRemove s id persist)

def Files.opens (files : Files) (directory opened : Path) : Prop :=
  files.canonicalize directory = some opened ∧ files.isDir opened = true ∧ files.isFile (opened ++ [manifestName]) = true

-- When an addition is atomic. One of a project that is registered writes nothing,
-- and one whose worker does not start writes the file again, or fails to and
-- leaves the project in it.
def AddMeets (host : Host) (s : ApplicationWatchRegistry) (directory : Path) (faults : Faults) : Prop :=
  ∀ opened,faults.files.opens directory opened →
    ((s.watches[host.watchId opened]?).isSome → SameProjects s.registered s.persisted) ∧
    (s.watches[host.watchId opened]? = none → faults.files.watch opened = true → faults.persist = none →
      faults.spawn ≠ none →
        (faults.rollback = none → SameProjects s.registered s.persisted) ∧
        (faults.rollback ≠ none → SameProjects (host.watchId opened :: s.registered) s.persisted))

def WatchCall.Meets (host : Host) (s : ApplicationWatchRegistry) : WatchCall → Prop
  | .add directory _ faults => AddMeets host s directory faults
  | .remove id persist => s.watches[id]? = none ∨ persist = none

section Atomicity
variable {host : Host} {s : ApplicationWatchRegistry}

theorem remove_atomic (id : Str) (persist : Option Str) :
    Atomic s (callRemove s id persist) ↔ s.watches[id]? = none ∨ persist = none := by
  unfold callRemove
  cases held : s.watches[id]? with
  | none => exact ⟨fun _ => .inl rfl,fun _ => ⟨.refl _,.refl _⟩⟩
  | some handle => cases persist with
    | none => exact ⟨fun _ => .inr rfl,fun _ => persisted_written⟩
    | some error =>
      constructor
      · intro atomic
        have kept := (atomic.1 id).mpr (mem_registered.mpr (by rw [held]; rfl))
        exact absurd rfl (mem_erased.mp kept).1
      · intro either
        obtain none | none := either <;> cases none

theorem add_atomic (directory : Path) (registration : Nat) (faults : Faults) :
    Atomic s (callAdd host s directory registration faults) ↔ AddMeets host s directory faults := by
  have refused {error : Str} (closed : ∀ opened,¬faults.files.opens directory opened) :
      Atomic s (Except.error (α := WatchedHoloProject) error,s) ↔ AddMeets host s directory faults :=
    ⟨fun _ opened opens => absurd opens (closed opened),fun _ => ⟨.refl _,.refl _⟩⟩
  unfold callAdd
  cases canonical : faults.files.canonicalize directory with
  | none =>
    refine refused fun opened opens => ?_
    have found := canonical.symm.trans opens.1
    cases found
  | some opened =>
    have only {other : Path} (opens : faults.files.opens directory other) : other = opened :=
      Option.some.inj (opens.1.symm.trans canonical)
    dsimp only
    split
    · rename_i missing
      refine refused fun other opens => ?_
      rw [only opens] at opens
      rw [opens.2.1] at missing
      cases missing
    · rename_i isDir
      split
      · rename_i missing
        refine refused fun other opens => ?_
        rw [only opens] at opens
        rw [opens.2.2] at missing
        cases missing
      · rename_i isFile
        have opens : faults.files.opens directory opened := ⟨canonical,by simpa using isDir,by simpa using isFile⟩
        cases held : s.watches[host.watchId opened]? with
        | some existing =>
          constructor
          · intro same other otherOpens; rw [only otherOpens,held]
            exact ⟨fun _ => same,fun free => (by cases free)⟩
          · intro meets
            exact (meets opened opens).1 (by rw [held]; rfl)
        | none =>
          have meets : AddMeets host s directory faults ↔ (faults.files.watch opened = true → faults.persist = none →
              faults.spawn ≠ none → (faults.rollback = none → SameProjects s.registered s.persisted) ∧
                (faults.rollback ≠ none → SameProjects (host.watchId opened :: s.registered) s.persisted)) := by
            constructor
            · intro meets; exact (meets opened opens).2 held
            · intro rest other otherOpens; rw [only otherOpens,held]
              exact ⟨fun registered => (by cases registered),fun _ => rest⟩
          have back := @inserted_erased _ _ ⟨recordFor host opened none,registration⟩ rfl held
          have grown : SameProjects (host.watchId opened :: s.registered)
              (s.insertRecord (host.watchId opened) ⟨recordFor host opened none,registration⟩ rfl).registered := fun other => by
            rw [mem_inserted (recordFor_id host opened none),List.mem_cons]
          rw [meets]
          dsimp only; split
          · rename_i unwatched
            refine ⟨fun _ watched => ?_,fun _ => ⟨.refl _,.refl _⟩⟩
            rw [watched] at unwatched; cases unwatched
          cases faults.persist with
          | some error => exact ⟨fun _ _ persisted => (by cases persisted),fun _ => ⟨back,.refl _⟩⟩
          | none => cases faults.spawn with
            | none => exact ⟨fun _ _ _ failed => absurd rfl failed,fun _ => persisted_written⟩
            | some error => cases faults.rollback with
              | none =>
                constructor
                · intro atomic _ _ _
                  exact ⟨fun _ => back.symm.trans atomic.2,fun failed => absurd rfl failed⟩
                · intro rest
                  have same := (rest (by rename_i watched; simpa using watched) rfl (Option.some_ne_none error)).1 rfl
                  exact ⟨back,back.trans same⟩
              | some failure =>
                constructor
                · intro atomic _ _ _
                  exact ⟨fun written => (by cases written),fun _ => grown.trans atomic.2⟩
                · intro rest
                  have same := (rest (by rename_i watched; simpa using watched) rfl (Option.some_ne_none error)).2
                    (Option.some_ne_none failure)
                  exact ⟨back,grown.symm.trans same⟩

-- Exactly the calls whose condition holds are atomic.
theorem calls_atomic (host : Host) (s : ApplicationWatchRegistry) (request : WatchCall) :
    request.Kept host s ↔ request.Meets host s := by
  cases request with
  | add directory registration faults => exact add_atomic directory registration faults
  | remove id persist => exact remove_atomic id persist

end Atomicity
def sampleHost : Host := ⟨fun _ => "1".toList,["cache".toList]⟩
def sampleHandle : WatchHandle := ⟨recordFor sampleHost ["demo".toList] none,0⟩

def sampleRegistry : ApplicationWatchRegistry :=
  {(⟨∅,none,fun _ _ held => by simp at held⟩ : ApplicationWatchRegistry).insertRecord "1".toList sampleHandle rfl with
    file := some [sampleHandle.record]}

-- A project whose removal cannot be written down is gone from memory all the same.
theorem unwritten_removal : ¬∀ (host : Host) (s : ApplicationWatchRegistry) (request : WatchCall),request.Kept host s := by
  intro all
  have kept : Atomic sampleRegistry (callRemove sampleRegistry "1".toList (some "write".toList)) :=
    all sampleHost sampleRegistry (.remove "1".toList (some "write".toList))
  have held : sampleRegistry.watches["1".toList]? = some sampleHandle := (get_insert _ _ _ _).trans (if_pos rfl)
  obtain free | written := (remove_atomic "1".toList (some "write".toList)).mp kept
  · rw [held] at free
    cases free
  · cases written

end HologramLive.Watch
