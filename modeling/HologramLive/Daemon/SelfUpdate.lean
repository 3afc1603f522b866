import HologramLive.Holo.Types
import HologramLive.Lib.Runs
namespace HologramLive.SelfUpdate
open Runs

-- `Path::with_extension` on the name of a file: what follows the last dot is
-- replaced, unless that dot is the first character.
def fileStem (name : Str) : Str :=
  let before := (name.reverse.dropWhile (· ≠ '.')).tail.reverse
  if before.isEmpty then name else before
def withExtension (name extension : Str) : Str := fileStem name ++ '.' :: extension

def previousPath (current : Str) : Str := withExtension current "previous".toList
def failedPath (current : Str) : Str := withExtension current "failed".toList
def temporaryPath (current : Str) (pid : Nat) : Str := withExtension current ("update.".toList ++ decimal pid)

-- A file holds all the bytes that were written to it, or some of them.
inductive Content where
  | whole (binary : Bytes)
  | torn
deriving DecidableEq, Repr

abbrev Files := Str → Option Content

def Files.set (files : Files) (name : Str) (content : Option Content) : Files :=
  fun other => if other = name then content else files other
def Files.rename (files : Files) (source destination : Str) : Files :=
  (files.set destination (files source)).set source none

-- What becomes of a file operation. A crash leaves all that was done before it.
inductive Fate where
  | works
  | fails
  | crashes
deriving DecidableEq, Repr

inductive Ended where
  | done
  | failed
  | crashed
deriving DecidableEq, Repr

structure ExchangeFates where
  remove : Fate
  moveAway : Fate
  moveIn : Fate
  moveBack : Fate

def step (fate : Fate) (needs : Str) (change : Files → Files) (failed next : Files → Ended × Files) (files : Files) :
    Ended × Files :=
  match fate with
  | .works => if (files needs).isSome then next (change files) else failed files
  | .fails => failed files
  | .crashes => (.crashed,files)

def give (ended : Ended) (files : Files) : Ended × Files := (ended,files)

-- The replacement that installs and rollbacks have in common: the old binary goes
-- aside, where a file that is there is removed first, and comes back when the new
-- one does not take its place.
def swap (current source aside : Str) (fates : ExchangeFates) : Files → Ended × Files :=
  step fates.moveAway current (·.rename current aside) (give .failed) <|
    step fates.moveIn source (·.rename source current)
      (step fates.moveBack aside (·.rename aside current) (give .failed) (give .failed)) (give .done)

def exchange (current source aside : Str) (fates : ExchangeFates) (files : Files) : Ended × Files :=
  if (files aside).isSome then
    step fates.remove aside (·.set aside none) (give .failed) (swap current source aside fates) files
  else swap current source aside fates files

structure InstallFates extends ExchangeFates where
  write : Fate
  permissions : Fate

-- A failed or cut write leaves a torn temporary file.
def replaceCurrentBinary (current : Str) (pid : Nat) (bytes : Bytes) (fates : InstallFates) (files : Files) : Ended × Files :=
  let temporary := temporaryPath current pid
  match fates.write with
  | .fails => (.failed,files.set temporary (some .torn))
  | .crashes => (.crashed,files.set temporary (some .torn))
  | .works => step fates.permissions temporary id (give .failed)
    (exchange current temporary (previousPath current) fates.toExchangeFates) (files.set temporary (some (.whole bytes)))

def replaceFromPath (source destination : Str) (fates : ExchangeFates) (files : Files) : Ended × Files :=
  exchange destination source (failedPath destination) fates files

def rollback (current : Str) (fates : ExchangeFates) (files : Files) : Ended × Files :=
  if (files (previousPath current)).isSome then replaceFromPath (previousPath current) current fates files
  else (.failed,files)

section Exchange
variable {files : Files} {current source aside other : Str} {fates : ExchangeFates} {content : Option Content}

@[simp] theorem set_same : files.set other content other = content := if_pos rfl
theorem set_other (apart : other ≠ name) : files.set name content other = files other := if_neg apart

theorem rename_source : files.rename source current source = none := if_pos rfl
theorem rename_destination (apart : current ≠ source) : files.rename source current current = files source :=
  (if_neg apart).trans (if_pos rfl)
theorem rename_other (first : other ≠ source) (second : other ≠ current) : files.rename source current other = files other :=
  (if_neg first).trans (if_neg second)

-- The three files of an exchange.
structure Apart (current source aside : Str) : Prop where
  replaced : current ≠ source
  beside : current ≠ aside
  both : source ≠ aside

def Careful (fates : ExchangeFates) (files : Files) (aside : Str) : Prop :=
  ((files aside).isSome → fates.remove = .works) → fates.moveAway = .works →
    fates.moveIn ≠ .crashes ∧ (fates.moveIn = .fails → fates.moveBack = .works)

def Sparing (fates : ExchangeFates) (files : Files) (aside : Str) : Prop :=
  (files aside).isSome → fates.remove = .works → fates.moveAway ≠ .fails ∧ (fates.moveAway = .works → fates.moveIn ≠ .fails)

-- What an exchange leaves: the new binary in place and the old one aside, or the
-- old one in place and no other file touched but the one aside.
structure Exchanged (files : Files) (current source aside : Str) (outcome : Ended × Files) : Prop where
  done : outcome.1 = .done → outcome.2 current = files source ∧ outcome.2 aside = files current
  kept : outcome.1 ≠ .done → outcome.2 current = files current ∧ (outcome.2 aside = files aside ∨ outcome.2 aside = none)
  source : outcome.2 source = files source ∨ outcome.2 source = none

theorem swap_exchanged (apart : Apart current source aside) (running : (files current).isSome) (new : (files source).isSome)
    (careful : fates.moveAway = .works → fates.moveIn ≠ .crashes ∧ (fates.moveIn = .fails → fates.moveBack = .works)) :
    Exchanged files current source aside (swap current source aside fates files) := by
  unfold swap
  cases away : fates.moveAway with
  | fails => exact ⟨fun done => (by cases done),fun _ => ⟨rfl,.inl rfl⟩,.inl rfl⟩
  | crashes => exact ⟨fun done => (by cases done),fun _ => ⟨rfl,.inl rfl⟩,.inl rfl⟩
  | works =>
    obtain ⟨through,undone⟩ := careful away
    have moved : files.rename current aside aside = files current := rename_destination apart.beside.symm
    have waiting : files.rename current aside source = files source := rename_other apart.replaced.symm apart.both
    cases into : fates.moveIn with
    | crashes => exact absurd into through
    | works =>
      simp only [step,if_pos running,waiting,if_pos new,give]
      refine ⟨fun _ => ⟨?_,?_⟩,fun unfinished => absurd rfl unfinished,.inr rename_source⟩
      · exact (rename_destination apart.replaced).trans waiting
      · exact (rename_other apart.both.symm apart.beside.symm).trans moved
    | fails =>
      simp only [step,if_pos running,undone into,moved,give]
      refine ⟨fun done => (by cases done),fun _ => ⟨?_,.inr rename_source⟩,.inl ?_⟩
      · exact (rename_destination apart.beside).trans moved
      · exact (rename_other apart.both apart.replaced.symm).trans waiting

theorem exchange_exchanged (apart : Apart current source aside) (running : (files current).isSome)
    (new : (files source).isSome) (careful : Careful fates files aside) :
    Exchanged files current source aside (exchange current source aside fates files) := by
  unfold exchange
  by_cases held : (files aside).isSome
  · rw [if_pos held]
    have same : files.set aside none current = files current := set_other apart.beside
    have waiting : files.set aside none source = files source := set_other apart.both
    cases removed : fates.remove with
    | fails => exact ⟨fun done => (by cases done),fun _ => ⟨rfl,.inl rfl⟩,.inl rfl⟩
    | crashes => exact ⟨fun done => (by cases done),fun _ => ⟨rfl,.inl rfl⟩,.inl rfl⟩
    | works =>
      simp only [step,if_pos held]
      have exchanged := @swap_exchanged (files.set aside none) _ _ _ _ apart (by rwa [same]) (by rwa [waiting])
        (careful fun _ => removed)
      refine ⟨fun done => ?_,fun unfinished => ?_,waiting ▸ exchanged.source⟩
      · rw [← same,← waiting]; exact exchanged.done done
      · obtain ⟨current,beside⟩ := exchanged.kept unfinished
        refine ⟨current.trans same,.inr ?_⟩
        obtain old | gone := beside
        · exact old.trans set_same
        · exact gone
  · rw [if_neg held]
    exact swap_exchanged apart running new (careful fun old => absurd old held)

theorem swap_done (done : (swap current source aside fates files).1 = .done) : fates.moveIn = .works := by
  unfold swap at done
  cases into : fates.moveIn with
  | works => rfl
  | _ =>
    rw [into] at done
    simp only [step] at done
    repeat' split at done
    all_goals cases done

theorem exchange_careful (done : (exchange current source aside fates files).1 = .done) : Careful fates files aside := by
  intro _ _
  have into : fates.moveIn = .works := by
    unfold exchange step at done
    repeat' split at done
    all_goals first | exact swap_done done | cases done
  rw [into]
  exact ⟨fun crash => (by cases crash),fun fail => (by cases fail)⟩

theorem exchange_spares (apart : Apart current source aside) (running : (files current).isSome) (new : (files source).isSome)
    (sparing : Sparing fates files aside) (failed : (exchange current source aside fates files).1 = .failed) :
    (exchange current source aside fates files).2 aside = files aside ∨ files aside = none := by
  by_cases held : (files aside).isSome
  · refine .inl ?_
    have same : files.set aside none current = files current := set_other apart.beside
    have waiting : files.set aside none source = files source := set_other apart.both
    unfold exchange at failed ⊢
    rw [if_pos held] at failed ⊢
    cases removed : fates.remove with
    | fails => rfl
    | crashes => simp only [removed,step] at failed; cases failed
    | works =>
      obtain ⟨away,into⟩ := sparing held removed
      simp only [removed,step,if_pos held,swap,same,if_pos running] at failed
      have kept : (files.set aside none).rename current aside source = files source :=
        (rename_other apart.replaced.symm apart.both).trans waiting
      cases first : fates.moveAway with
      | fails => exact absurd first away
      | crashes => simp only [first] at failed; cases failed
      | works => cases second : fates.moveIn with
        | fails => exact absurd second (into first)
        | crashes => simp only [first,second] at failed; cases failed
        | works => simp only [first,second,kept,if_pos new,give] at failed; cases failed
  · exact .inr (by simpa using held)

end Exchange

-- An installed executable, with all binaries that were installed or whose
-- installation was begun.
structure Machine where
  files : Files
  installed : List Bytes

inductive Command where
  | install (pid : Nat) (bytes : Bytes) (fates : InstallFates)
  | rollback (fates : ExchangeFates)

section Runs
variable (current : Str)

def run (files : Files) : Command → Ended × Files
  | .install pid bytes fates => replaceCurrentBinary current pid bytes fates files
  | .rollback fates => rollback current fates files

variable (s : Machine)

def act (command : Command) : Option Machine :=
  some ⟨(run current s.files command).2,match command with
    | .install _ bytes _ => bytes :: s.installed
    | .rollback _ => s.installed⟩

def Start : Prop :=
  ∃ binary,s.files current = some (.whole binary) ∧ s.files (previousPath current) = none ∧ s.installed = [binary]

-- There is no crash between the moves of an exchange, nor a failure that is not
-- undone, and an install that removed the previous binary does not fail after that.
-- The executable is not itself named like one of the files that are put beside it.
def Meets (command : Command) : Prop :=
  current ≠ previousPath current ∧ current ≠ failedPath current ∧ match command with
    | .install pid _ fates => current ≠ temporaryPath current pid ∧ (fates.write = .works → fates.permissions = .works →
      Careful fates.toExchangeFates s.files (previousPath current) ∧
      Sparing fates.toExchangeFates s.files (previousPath current))
    | .rollback fates => Careful fates s.files (failedPath current)

def Complete (name : Str) : Prop := ∃ binary ∈ s.installed,s.files name = some (.whole binary)

-- A failed install leaves both binaries, and a rollback after a finished one
-- brings back the binary that was current.
def Restores : Command → Prop
  | .rollback _ => True
  | .install pid bytes fates =>
    ((run current s.files (.install pid bytes fates)).1 = .failed →
      (run current s.files (.install pid bytes fates)).2 current = s.files current ∧
      (run current s.files (.install pid bytes fates)).2 (previousPath current) = s.files (previousPath current)) ∧
    ((run current s.files (.install pid bytes fates)).1 = .done → ∀ back : ExchangeFates,
      ((rollback current back (run current s.files (.install pid bytes fates)).2).1 = .done →
        (rollback current back (run current s.files (.install pid bytes fates)).2).2 current = s.files current) ∧
      (back = ⟨.works,.works,.works,.works⟩ → (rollback current back (run current s.files (.install pid bytes fates)).2).1 = .done))

end Runs

section Safety
variable {current : Str} {files : Files} {s t : Machine}

theorem withExtension_ne (differ : first ≠ second) : withExtension name first ≠ withExtension name second := by
  intro same
  exact differ (List.cons.inj (List.append_cancel_left same)).2

theorem temporary_beside (pid : Nat) : temporaryPath current pid ≠ previousPath current :=
  withExtension_ne fun same => (by cases same)

theorem previous_beside : previousPath current ≠ failedPath current := withExtension_ne (by decide)

theorem install_cases {pid : Nat} {bytes : Bytes} {fates : InstallFates} (apart : current ≠ temporaryPath current pid) :
    ((replaceCurrentBinary current pid bytes fates files).1 ≠ .done ∧
      (replaceCurrentBinary current pid bytes fates files).2 current = files current ∧
      (replaceCurrentBinary current pid bytes fates files).2 (previousPath current) = files (previousPath current)) ∨
    (fates.write = .works ∧ fates.permissions = .works ∧ replaceCurrentBinary current pid bytes fates files =
      exchange current (temporaryPath current pid) (previousPath current) fates.toExchangeFates
        (files.set (temporaryPath current pid) (some (.whole bytes)))) := by
  have beside := (@temporary_beside current pid).symm
  unfold replaceCurrentBinary
  cases written : fates.write with
  | fails => exact .inl ⟨fun done => (by cases done),set_other apart,set_other beside⟩
  | crashes => exact .inl ⟨fun done => (by cases done),set_other apart,set_other beside⟩
  | works => cases permitted : fates.permissions with
    | fails => exact .inl ⟨fun done => (by cases done),set_other apart,set_other beside⟩
    | crashes => exact .inl ⟨fun done => (by cases done),set_other apart,set_other beside⟩
    | works =>
      refine .inr ⟨rfl,rfl,?_⟩
      simp only [step,set_same,Option.isSome_some,if_true]
      rfl

structure Installed (files : Files) (current : Str) (bytes : Bytes) (outcome : Ended × Files) : Prop where
  done : outcome.1 = .done →
    outcome.2 current = some (.whole bytes) ∧ outcome.2 (previousPath current) = files current
  kept : outcome.1 ≠ .done → outcome.2 current = files current ∧
    (outcome.2 (previousPath current) = files (previousPath current) ∨ outcome.2 (previousPath current) = none)
  failed : outcome.1 = .failed → outcome.2 (previousPath current) = files (previousPath current)

theorem install_installed (running : (s.files current).isSome) (meets : Meets current s (.install pid bytes fates)) :
    Installed s.files current bytes (replaceCurrentBinary current pid bytes fates s.files) := by
  obtain ⟨own,_,apart,moves⟩ := meets
  obtain ⟨unfinished,same,previous⟩ | ⟨written,permitted,came⟩ := @install_cases _ s.files _ bytes fates apart
  · exact ⟨fun done => absurd done unfinished,fun _ => ⟨same,.inl previous⟩,fun _ => previous⟩
  · rw [came]
    obtain ⟨careful,sparing⟩ := moves written permitted
    have beside := @temporary_beside current pid
    generalize temporaryPath current pid = temporary at apart beside
    have old : s.files.set temporary (some (.whole bytes)) (previousPath current) = s.files (previousPath current) :=
      set_other beside.symm
    have same : s.files.set temporary (some (.whole bytes)) current = s.files current := set_other apart
    have held : (s.files.set temporary (some (.whole bytes)) current).isSome := by rwa [same]
    have new : (s.files.set temporary (some (.whole bytes)) temporary).isSome := by rw [set_same]; rfl
    have exchanged := exchange_exchanged ⟨apart,own,beside⟩ held new (by unfold Careful; rwa [old])
    refine ⟨fun done => ?_,fun unfinished => ?_,fun failed => ?_⟩
    · obtain ⟨placed,aside⟩ := exchanged.done done
      exact ⟨placed.trans set_same,aside.trans same⟩
    · rw [← old,← same]
      exact exchanged.kept unfinished
    · have kept := exchanged.kept (by rw [failed]; exact fun done => (by cases done))
      obtain same | free := exchange_spares ⟨apart,own,beside⟩ held new (by unfold Sparing; rwa [old]) failed
      · exact same.trans old
      · obtain same | gone := kept.2
        · exact same.trans old
        · exact (gone.trans free.symm).trans old

theorem rollback_exchanged (own : current ≠ previousPath current) (other : current ≠ failedPath current)
    (running : (files current).isSome) (careful : Careful fates files (failedPath current)) :
    ((rollback current fates files).1 = .done → (rollback current fates files).2 current = files (previousPath current)) ∧
    ((rollback current fates files).1 ≠ .done → (rollback current fates files).2 current = files current) ∧
    ((rollback current fates files).2 (previousPath current) = files (previousPath current) ∨
      (rollback current fates files).2 (previousPath current) = none) := by
  unfold rollback
  split
  · rename_i previous
    have exchanged := exchange_exchanged ⟨own,other,previous_beside⟩ running previous careful
    exact ⟨fun done => (exchanged.done done).1,fun unfinished => (exchanged.kept unfinished).1,exchanged.source⟩
  · exact ⟨fun done => (by cases done),fun _ => rfl,.inl rfl⟩

theorem rollback_done (done : (rollback current back files).1 = .done) : Careful back files (failedPath current) := by
  unfold rollback at done
  split at done
  · exact exchange_careful done
  · cases done

theorem rollback_works (own : current ≠ previousPath current) (other : current ≠ failedPath current)
    (running : (files current).isSome) (previous : (files (previousPath current)).isSome) :
    (rollback current ⟨.works,.works,.works,.works⟩ files).1 = .done := by
  have moves {files : Files} (running : (files current).isSome) (previous : (files (previousPath current)).isSome) :
      (swap current (previousPath current) (failedPath current) ⟨.works,.works,.works,.works⟩ files).1 = .done := by
    have waiting : files.rename current (failedPath current) (previousPath current) = files (previousPath current) :=
      rename_other own.symm previous_beside
    simp only [swap,step,if_pos running,waiting,if_pos previous,give]
  unfold rollback
  rw [if_pos previous]
  unfold replaceFromPath exchange
  split
  · rename_i held
    simp only [step,if_pos held]
    refine moves ?_ ?_
    · rwa [set_other other]
    · rwa [set_other previous_beside]
  · exact moves running previous

structure Held (current : Str) (s : Machine) : Prop where
  running : Complete s current
  previous : s.files (previousPath current) = none ∨ Complete s (previousPath current)

theorem Complete.isSome (complete : Complete s name) : (s.files name).isSome := by
  obtain ⟨binary,_,held⟩ := complete
  rw [held]
  rfl

theorem act_held (held : Held current s) (meets : Meets current s command)
    (moved : act current s command = some t) : Held current t := by
  cases moved
  cases command with
  | install pid bytes fates =>
    have installed := install_installed held.running.isSome meets
    have older {name : Str} (complete : Complete s name) : ∃ binary ∈ bytes :: s.installed,s.files name = some (.whole binary) := by
      obtain ⟨binary,member,same⟩ := complete
      exact ⟨binary,List.mem_cons_of_mem _ member,same⟩
    show Held current ⟨(replaceCurrentBinary current pid bytes fates s.files).2,bytes :: s.installed⟩
    by_cases done : (replaceCurrentBinary current pid bytes fates s.files).1 = .done
    · obtain ⟨new,old⟩ := installed.done done
      obtain ⟨binary,member,same⟩ := older held.running
      exact ⟨⟨bytes,List.mem_cons_self,new⟩,.inr ⟨binary,member,old.trans same⟩⟩
    · obtain ⟨same,beside⟩ := installed.kept done
      obtain ⟨binary,member,was⟩ := older held.running
      refine ⟨⟨binary,member,same.trans was⟩,?_⟩
      obtain kept | gone := beside
      · obtain none | complete := held.previous
        · exact .inl (kept.trans none)
        · obtain ⟨binary,member,was⟩ := older complete
          exact .inr ⟨binary,member,kept.trans was⟩
      · exact .inl gone
  | rollback fates =>
    obtain ⟨own,other,careful⟩ := meets
    obtain ⟨finished,unfinished,beside⟩ := rollback_exchanged own other held.running.isSome careful
    show Held current ⟨(rollback current fates s.files).2,s.installed⟩
    constructor
    · by_cases done : (rollback current fates s.files).1 = .done
      · obtain none | ⟨binary,member,was⟩ := held.previous
        · unfold rollback at done; rw [none] at done
          cases done
        · exact ⟨binary,member,(finished done).trans was⟩
      · obtain ⟨binary,member,was⟩ := held.running
        exact ⟨binary,member,(unfinished done).trans was⟩
    · obtain same | gone := beside
      · obtain none | ⟨binary,member,was⟩ := held.previous
        · exact .inl (same.trans none)
        · exact .inr ⟨binary,member,same.trans was⟩
      · exact .inl gone

theorem held_restores (held : Held current s) (meets : Meets current s command) : Restores current s command := by
  cases command with
  | rollback fates => trivial
  | install pid bytes fates =>
    have installed := install_installed held.running.isSome meets
    refine ⟨fun failed => ⟨(installed.kept ?_).1,installed.failed failed⟩,fun done back => ⟨fun restored => ?_,?_⟩⟩
    · show (replaceCurrentBinary current pid bytes fates s.files).1 ≠ .done
      rw [show (replaceCurrentBinary current pid bytes fates s.files).1 = .failed from failed]
      exact fun done => (by cases done)
    · obtain ⟨new,old⟩ := installed.done done
      have running : ((replaceCurrentBinary current pid bytes fates s.files).2 current).isSome := by rw [new]; rfl
      have back := rollback_exchanged meets.1 meets.2.1 running (rollback_done restored)
      exact (back.1 restored).trans old
    · rintro rfl
      obtain ⟨new,old⟩ := installed.done done
      have running : ((replaceCurrentBinary current pid bytes fates s.files).2 current).isSome := by rw [new]; rfl
      refine rollback_works meets.1 meets.2.1 running ?_
      show ((replaceCurrentBinary current pid bytes fates s.files).2 (previousPath current)).isSome
      rw [old]
      exact held.running.isSome

-- In a run of such commands the executable is always complete, and every command
-- that could come next restores what it has to.
theorem updates_safe (reached : Reached (Start current) (Taken (act current) (Meets current)) s) :
    Complete s current ∧ ∀ command,Meets current s command → Restores current s command := by
  have held : Held current s := by
    refine reached.invariant (Held current) (fun s begun => ?_) fun _ _ _ held moved => ?_
    · obtain ⟨binary,running,none,installed⟩ := begun
      exact ⟨⟨binary,by rw [installed]; exact List.mem_singleton_self binary,running⟩,.inl none⟩
    · obtain ⟨command,meets,taken⟩ := moved
      exact act_held held meets taken
  exact ⟨held.running,fun _ meets => held_restores held meets⟩

end Safety

def hologram : Str := "hologram".toList

def sampleMachine : Machine := ⟨fun name => if name = hologram then some (.whole [1]) else none,[[1]]⟩

theorem sample_start : Start hologram sampleMachine := ⟨[1],rfl,rfl,rfl⟩

-- A crash between the two moves leaves no executable.
theorem crash_between : ¬∀ (current : Str) (s : Machine),
    Reached (Start current) (Taken (act current) fun _ _ => True) s → Complete s current := by
  intro all
  let fates : InstallFates := ⟨⟨.works,.works,.crashes,.works⟩,.works,.works⟩
  obtain ⟨_,_,held⟩ := all hologram _ (.step (.start sample_start) ⟨.install 7 [2] fates,trivial,rfl⟩)
  cases held

theorem updates_safe_sample : ∃ s,s.files hologram = some (.whole [2]) ∧ Complete s hologram ∧
    ∀ command,Meets hologram s command → Restores hologram s command := by
  let fates : InstallFates := ⟨⟨.works,.works,.works,.works⟩,.works,.works⟩
  have meets : Meets hologram sampleMachine (.install 7 [2] fates) :=
    ⟨by decide,by decide,by decide,fun _ _ => ⟨fun _ _ => ⟨by decide,fun _ => rfl⟩,fun held => (by cases held)⟩⟩
  exact ⟨_,rfl,updates_safe (.step (.start sample_start) ⟨.install 7 [2] fates,meets,rfl⟩)⟩

end HologramLive.SelfUpdate
