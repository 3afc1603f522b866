import HologramLive.Artifact.Reference
import HologramLive.Registry.Gate
namespace HologramLive.LoginMemory
open Tables List

structure Crates where
  bcryptVerify : Str → Str → Bool
  keyedHash : Str → Bytes
  debugText : Str → Str

-- `str::lines`: a line ends before `\n` or `\r\n`; a last line may end with neither.
def stripReturn (line : Str) : Str := if line.getLast? = some '\r' then line.dropLast else line
def textLines (text : Str) : List Str :=
  let pieces := text.splitOn '\n'
  pieces.dropLast.map stripReturn ++ (pieces.getLast?.filter fun line => !line.isEmpty).toList

-- Blank lines and comments are skipped; a later line wins.
def parseLine (crates : Crates) (entries : Table Str Str) (numbered : Str × Nat) : Except Str (Table Str Str) :=
  let trimmed := trimWhitespace numbered.1
  if trimmed = [] ∨ trimmed.head? = some '#' then .ok entries
  else match splitOnce ':' trimmed with
    | none => .error ("htpasswd: invalid entry at line ".toList ++ decimal (numbered.2 + 1) ++ ": ".toList ++
        crates.debugText numbered.1)
    | some (user,hash) => .ok (entries.insert user hash)

def parse (crates : Crates) (text : Str) : Except Str (Table Str Str) :=
  (textLines text).zipIdx.foldlM (parseLine crates) ∅

def remember : Nat := 60000

-- The file as the file system answers for it: when it was modified and what it
-- holds, each of which may fail to be read.
structure File where
  modified : Except Str Nat
  text : Except Str Str

structure Loaded where
  modified : Nat
  entries : Table Str Str

abbrev Login := Str × Bytes

-- Where a check is: before it reads the modification time, before it takes the
-- lock of the loaded entries, before it clears what is remembered, before it looks
-- there, before and after bcrypt, and at its end.
inductive Phase where
  | begun
  | stated (version : Nat)
  | clearing (entries : Table Str Str) (version : Nat)
  | looking (entries : Table Str Str) (version : Nat)
  | verifying (entries : Table Str Str) (version : Nat)
  | storing (version : Nat)
  | done (result : Except Denied Str)

-- `began` counts the replacements before the check.
structure Check where
  user : Str
  password : Str
  began : Nat
  phase : Phase

def Check.login (crates : Crates) (check : Check) : Login := (check.user,crates.keyedHash check.password)

structure Htpasswd where
  path : Str
  dummy : Str

-- The files there were, the file there is, and the process.
structure State where
  earlier : List File
  file : File
  loaded : Option Loaded
  remembered : Table Login (Nat × Nat)
  now : Nat
  checks : List Check

def State.history (s : State) : List File := s.earlier ++ [s.file]

def opened (file : File) (now : Nat) : State := ⟨[],file,none,∅,now,[]⟩

def State.enter (s : State) (i : Nat) (check : Check) (phase : Phase) : State :=
  {s with checks := s.checks.set i {check with phase := phase}}

-- Only for the file it was checked against: a changed file drops it.
def State.remembers (s : State) (login : Login) (version : Nat) : Bool :=
  match s.remembered[login]? with
  | some (at_,checked) => decide (s.now - at_ < remember) && decide (checked = version)
  | none => false

inductive Action where
  | replace (file : File)
  | wait (time : Nat)
  | check (user password : Str)
  | advance (i : Nat)
  | lose (i : Nat)

section Steps
variable (crates : Crates) (password : Htpasswd)

def Htpasswd.broken (error : Str) : Denied := .broken (password.path ++ ": ".toList ++ error)

-- `entries`, under its lock: the loaded entries when they are of this version of
-- the file, else the file, read now.
def load (s : State) (i : Nat) (check : Check) (version : Nat) : State :=
  match s.loaded.filter fun current => current.modified = version with
  | some current => s.enter i check (.looking current.entries version)
  | none => match s.file.text with
    | .error error => s.enter i check (.done (.error (password.broken error)))
    | .ok text => match parse crates text with
      | .error reason => s.enter i check (.done (.error (.broken reason)))
      | .ok entries => {s with loaded := some ⟨version,entries⟩}.enter i check (.clearing entries version)

def verify (s : State) (i : Nat) (check : Check) (entries : Table Str Str) (version : Nat) : State :=
  let known := entries[check.user]?
  if crates.bcryptVerify check.password (known.getD password.dummy) && known.isSome then
    s.enter i check (.storing version)
  else s.enter i check (.done (.error .challenge))

def advance (s : State) (i : Nat) (check : Check) : State :=
  match check.phase with
  | .begun => match s.file.modified with
    | .error error => s.enter i check (.done (.error (password.broken error)))
    | .ok version => s.enter i check (.stated version)
  | .stated version => load crates password s i check version
  | .clearing entries version => {s with remembered := ∅}.enter i check (.looking entries version)
  | .looking entries version =>
    if s.remembers (check.login crates) version then s.enter i check (.done (.ok check.user))
    else s.enter i check (.verifying entries version)
  | .verifying entries version => verify crates password s i check entries version
  | .storing version =>
    let kept := eraseRows s.remembered fun _ row => !decide (s.now - row.1 < remember)
    {s with remembered := kept.insert (check.login crates) (s.now,version)}.enter i check (.done (.ok check.user))
  | .done _ => s

def act (s : State) : Action → State
  | .replace file => {s with earlier := s.earlier ++ [s.file],file := file}
  | .wait time => {s with now := s.now + time}
  | .check user pass => {s with checks := s.checks ++ [⟨user,pass,s.earlier.length,.begun⟩]}
  | .advance i => match s.checks[i]? with
    | some check => advance crates password s i check
    | none => s
  -- The thread of a bcrypt that is lost answers no.
  | .lose i => match s.checks[i]? with
    | some check => match check.phase with
      | .verifying .. => s.enter i check (.done (.error .challenge))
      | _ => s
    | none => s

def run (file : File) (now : Nat) (actions : List Action) : State :=
  actions.foldl (act crates password) (opened file now)

end Steps

section Facts
variable (crates : Crates)

def Dated (history : List File) (r version : Nat) : Prop :=
  ∃ file,history[r]? = some file ∧ file.modified = .ok version

def Held (history : List File) (g : Nat) (entries : Table Str Str) : Prop :=
  ∃ file text,history[g]? = some file ∧ file.text = .ok text ∧ parse crates text = .ok entries

def Valid (entries : Table Str Str) (login : Login) : Prop :=
  ∃ password hash,crates.keyedHash password = login.2 ∧ entries[login.1]? = some hash ∧
    crates.bcryptVerify password hash = true

def Sourced (history : List File) (version : Nat) (entries : Table Str Str) : Prop :=
  ∃ r g,r ≤ g ∧ Dated history r version ∧ Held crates history g entries

def Vouched (history : List File) (version : Nat) (login : Login) : Prop :=
  ∃ entries,Sourced crates history version entries ∧ Valid crates entries login

def Known (history : List File) (check : Check) : Phase → Prop
  | .begun => True
  | .stated version => ∃ r,check.began ≤ r ∧ Dated history r version
  | .clearing entries version | .looking entries version | .verifying entries version =>
    (∃ r,check.began ≤ r ∧ Dated history r version) ∧ Sourced crates history version entries
  | .storing version => (∃ r,check.began ≤ r ∧ Dated history r version) ∧ Vouched crates history version (check.login crates)
  | .done (.ok user) => user = check.user ∧
    ∃ version,(∃ r,check.began ≤ r ∧ Dated history r version) ∧ Vouched crates history version (check.login crates)
  | .done (.error _) => True

structure Invariant (s : State) : Prop where
  loaded : ∀ current,s.loaded = some current → Sourced crates s.history current.modified current.entries
  remembered : ∀ login at_ version,s.remembered[login]? = some (at_,version) → Vouched crates s.history version login
  begun : ∀ check ∈ s.checks,check.began ≤ s.earlier.length
  known : ∀ check ∈ s.checks,Known crates s.history check check.phase

variable {crates} {history : List File}

theorem Dated.later (dated : Dated history r version) (more : List File) : Dated (history ++ more) r version := by
  obtain ⟨file,found,modified⟩ := dated
  have bound := (List.getElem?_eq_some_iff.mp found).1
  exact ⟨file,(List.getElem?_append_left bound).trans found,modified⟩

variable {version : Nat} {entries : Table Str Str}

theorem Sourced.later (sourced : Sourced crates history version entries)
    (more : List File) : Sourced crates (history ++ more) version entries := by
  obtain ⟨r,g,order,dated,file,text,found,readable,parsed⟩ := sourced
  have bound := (List.getElem?_eq_some_iff.mp found).1
  exact ⟨r,g,order,dated.later more,file,text,(List.getElem?_append_left bound).trans found,readable,parsed⟩

theorem Vouched.later (vouched : Vouched crates history version login)
    (more : List File) : Vouched crates (history ++ more) version login := by
  obtain ⟨entries,sourced,valid⟩ := vouched
  exact ⟨entries,sourced.later more,valid⟩

theorem Known.later (known : Known crates history check phase) (more : List File) :
    Known crates (history ++ more) check phase := by
  have dates {version : Nat} : (∃ r,check.began ≤ r ∧ Dated history r version) →
      ∃ r,check.began ≤ r ∧ Dated (history ++ more) r version := by
    rintro ⟨r,since,dated⟩
    exact ⟨r,since,dated.later more⟩
  cases phase with
  | begun => trivial
  | stated version => exact dates known
  | clearing entries version => exact ⟨dates known.1,known.2.later more⟩
  | looking entries version => exact ⟨dates known.1,known.2.later more⟩
  | verifying entries version => exact ⟨dates known.1,known.2.later more⟩
  | storing version => exact ⟨dates known.1,known.2.later more⟩
  | done result =>
    cases result with
    | error => trivial
    | ok user =>
      obtain ⟨same,version,dated,vouched⟩ := known
      exact ⟨same,version,dates dated,vouched.later more⟩

theorem opened_invariant (file : File) (now : Nat) : Invariant crates (opened file now) := by
  refine ⟨fun current same => (by cases same),fun login at_ version found => ?_,fun check member => (by cases member),
    fun check member => (by cases member)⟩
  simp [opened] at found

variable {s : State} {i : Nat} {check : Check} {phase : Phase}

theorem Invariant.enter (invariant : Invariant crates s) (found : s.checks[i]? = some check)
    (known : Known crates s.history check phase) : Invariant crates (s.enter i check phase) := by
  have present : check ∈ s.checks := mem_of_getElem? found
  refine ⟨invariant.loaded,invariant.remembered,fun other member => ?_,fun other member => ?_⟩
  · rcases mem_or_eq_of_mem_set member with old | rfl
    · exact invariant.begun other old
    · exact invariant.begun check present
  · rcases mem_or_eq_of_mem_set member with old | rfl
    · exact invariant.known other old
    · exact known

theorem Invariant.known_at (invariant : Invariant crates s) (found : s.checks[i]? = some check) :
    Known crates s.history check check.phase := invariant.known check (mem_of_getElem? found)

theorem current_held (readable : s.file.text = .ok text)
    (parsed : parse crates text = .ok entries) : Held crates s.history s.earlier.length entries :=
  ⟨s.file,text,by simp [State.history],readable,parsed⟩

theorem current_dated (modified : s.file.modified = .ok version) :
    Dated s.history s.earlier.length version := ⟨s.file,by simp [State.history],modified⟩

theorem Dated.past (dated : Dated s.history r version) : r ≤ s.earlier.length := by
  obtain ⟨file,found,_⟩ := dated
  have bound := (List.getElem?_eq_some_iff.mp found).1
  simp only [State.history,length_append,length_singleton] at bound
  omega

section Kept
variable {setup : Htpasswd}

theorem load_invariant (invariant : Invariant crates s) (found : s.checks[i]? = some check)
    (known : ∃ r,check.began ≤ r ∧ Dated s.history r version) : Invariant crates (load crates setup s i check version) := by
  unfold load
  split
  · rename_i current filtered
    obtain ⟨kept,same⟩ := Option.filter_eq_some_iff.mp filtered
    have version_ : current.modified = version := of_decide_eq_true same
    exact invariant.enter found ⟨known,version_ ▸ invariant.loaded current kept⟩
  · split
    · exact invariant.enter found trivial
    · rename_i text readable
      split
      · exact invariant.enter found trivial
      · rename_i entries parsed
        obtain ⟨r,since,dated⟩ := known
        have sourced : Sourced crates s.history version entries :=
          ⟨r,s.earlier.length,dated.past,dated,current_held readable parsed⟩
        have grown : Invariant crates {s with loaded := some ⟨version,entries⟩} :=
          ⟨fun current same => (by cases same; exact sourced),invariant.remembered,invariant.begun,invariant.known⟩
        exact grown.enter found ⟨⟨r,since,dated⟩,sourced⟩

theorem verify_invariant (invariant : Invariant crates s) (found : s.checks[i]? = some check)
    (known : Known crates s.history check (.verifying entries version)) :
    Invariant crates (verify crates setup s i check entries version) := by
  unfold verify
  dsimp only
  split
  · rename_i good
    obtain ⟨matched,listed⟩ := Bool.and_eq_true_iff.mp good
    obtain ⟨hash,named⟩ := Option.isSome_iff_exists.mp listed
    rw [named] at matched
    exact invariant.enter found ⟨known.1,entries,known.2,check.password,hash,rfl,named,matched⟩
  · exact invariant.enter found trivial

theorem advance_invariant (invariant : Invariant crates s) (found : s.checks[i]? = some check) :
    Invariant crates (advance crates setup s i check) := by
  have known := invariant.known_at found
  unfold advance
  cases phase : check.phase with
  | begun =>
    dsimp only
    split
    · exact invariant.enter found trivial
    · rename_i version modified
      exact invariant.enter found ⟨_,invariant.begun check (mem_of_getElem? found),current_dated modified⟩
  | stated version => rw [phase] at known; exact load_invariant invariant found known
  | clearing entries version =>
    rw [phase] at known
    have emptied : Invariant crates {s with remembered := ∅} :=
      ⟨invariant.loaded,fun login at_ version found => (by simp at found),invariant.begun,invariant.known⟩
    exact emptied.enter found known
  | looking entries version =>
    rw [phase] at known
    dsimp only
    split
    · rename_i hit
      unfold State.remembers at hit
      split at hit
      · rename_i at_ checked row
        obtain ⟨_,same⟩ := Bool.and_eq_true_iff.mp hit
        obtain rfl : checked = version := of_decide_eq_true same
        exact invariant.enter found ⟨rfl,checked,known.1,invariant.remembered _ at_ checked row⟩
      · cases hit
    · exact invariant.enter found known
  | verifying entries version => rw [phase] at known; exact verify_invariant invariant found known
  | storing version =>
    rw [phase] at known
    dsimp only
    refine Invariant.enter ⟨invariant.loaded,fun login at_ kept row => ?_,invariant.begun,invariant.known⟩ found
      ⟨rfl,version,known⟩
    dsimp only at row
    rw [get_insert] at row
    split at row
    · rename_i same
      cases row
      exact same ▸ known.2
    · rw [get_eraseRows] at row
      exact invariant.remembered login at_ kept (Option.filter_eq_some_iff.mp row).1
  | done result => exact invariant

theorem act_invariant (invariant : Invariant crates s) (action : Action) : Invariant crates (act crates setup s action) := by
  cases action with
  | replace file =>
    have grown : ({s with earlier := s.earlier ++ [s.file],file := file} : State).history = s.history ++ [file] := rfl
    refine ⟨fun current same => ?_,fun login at_ version row => ?_,fun check member => ?_,fun check member => ?_⟩
    · exact (invariant.loaded current same).later [file]
    · exact (invariant.remembered login at_ version row).later [file]
    · have before := invariant.begun check member
      simp only [act,length_append,length_singleton]
      omega
    · exact (invariant.known check member).later [file]
  | wait time => exact ⟨invariant.loaded,invariant.remembered,invariant.begun,invariant.known⟩
  | check user pass =>
    refine ⟨invariant.loaded,invariant.remembered,fun check member => ?_,fun check member => ?_⟩
    · rcases mem_append.mp member with old | new
      · exact invariant.begun check old
      · rw [mem_singleton.mp new]; exact Nat.le_refl _
    · rcases mem_append.mp member with old | new
      · exact invariant.known check old
      · rw [mem_singleton.mp new]; trivial
  | advance i =>
    simp only [act]
    split
    · rename_i check found
      exact advance_invariant invariant found
    · exact invariant
  | lose i =>
    simp only [act]
    split
    · rename_i check found
      split
      · exact invariant.enter found trivial
      · exact invariant
    · exact invariant

theorem run_invariant (file : File) (now : Nat) (actions : List Action) :
    Invariant crates (run crates setup file now actions) := by
  unfold run
  have begun : Invariant crates (opened file now) := opened_invariant file now
  generalize opened file now = s at begun
  induction actions generalizing s with
  | nil => exact begun
  | cons action rest ih => exact ih _ (act_invariant begun action)

-- In every run: a login is taken from memory only under the modification time the
-- check itself read of the file, and every accepted login was vouched for by
-- entries read no earlier than the file had that time. Where no modification time
-- comes back, these are entries of a file that came with or after the check.
theorem memory_fresh (setup : Htpasswd) (file : File) (now : Nat) (actions : List Action) :
    (∀ check ∈ (run crates setup file now actions).checks,∀ entries version,check.phase = .looking entries version →
      (run crates setup file now actions).remembers (check.login crates) version = true →
      (∃ r,check.began ≤ r ∧ Dated (run crates setup file now actions).history r version) ∧
        Vouched crates (run crates setup file now actions).history version (check.login crates)) ∧
    (∀ check ∈ (run crates setup file now actions).checks,∀ user,check.phase = .done (.ok user) →
      user = check.user ∧ ∃ version,
        (∃ r,check.began ≤ r ∧ Dated (run crates setup file now actions).history r version) ∧
          Vouched crates (run crates setup file now actions).history version (check.login crates)) ∧
    ((∀ r q version,Dated (run crates setup file now actions).history r version →
        Dated (run crates setup file now actions).history q version → r = q) →
      ∀ check ∈ (run crates setup file now actions).checks,∀ user,check.phase = .done (.ok user) →
        ∃ g entries,check.began ≤ g ∧ Held crates (run crates setup file now actions).history g entries ∧
          Valid crates entries (check.login crates)) := by
  have invariant := @run_invariant crates setup file now actions
  refine ⟨fun check member entries version phase hit => ?_,fun check member user phase => ?_,
    fun distinct check member user phase => ?_⟩
  · have known := invariant.known check member
    rw [phase] at known
    unfold State.remembers at hit
    split at hit
    · rename_i at_ checked row
      obtain ⟨_,same⟩ := Bool.and_eq_true_iff.mp hit
      obtain rfl : checked = version := of_decide_eq_true same
      exact ⟨known.1,invariant.remembered _ at_ checked row⟩
    · cases hit
  · have known := invariant.known check member
    rw [phase] at known
    exact known
  · have known := invariant.known check member
    rw [phase] at known
    obtain ⟨_,version,⟨r,since,dated⟩,entries,⟨q,g,order,also,held⟩,valid⟩ := known
    obtain rfl := distinct r q version dated also
    exact ⟨g,entries,Nat.le_trans since order,held,valid⟩

end Kept
end Facts

def plain : Crates := ⟨fun password hash => password = hash,toUtf8,id⟩

def fileOf (modified : Nat) (text : String) : File := ⟨.ok modified,.ok text.toList⟩

def racing : List Action :=
  .check ['u'] ['h'] :: replicate 6 (.advance 0) ++ [.check ['u'] ['h'],.advance 1,.advance 1,.replace (fileOf 2 "")]

-- The file is replaced twice, the second time by one with the first one's time,
-- while a check of the first file is at its bcrypt.
def restored : List Action :=
  .check ['u'] ['h'] :: replicate 4 (.advance 0) ++ [.replace (fileOf 2 ""),.check ['v'] ['h'],.advance 1,.advance 1,
    .advance 1,.replace (fileOf 1 ""),.check ['v'] ['h'],.advance 2,.advance 2,.advance 2,.advance 0,.advance 0,
    .check ['u'] ['h'],.advance 3,.advance 3,.advance 3]

def overtaken (s : State) (check : Check) : Bool :=
  match check.phase with
  | .looking _ version => s.remembers (check.login plain) version && decide (s.file.modified.toOption ≠ some version)
  | _ => false

def admitted (check : Check) : Bool :=
  match check.phase with
  | .done (.ok _) => decide (check.began = 2) && decide (check.user = ['u'])
  | _ => false

-- A check takes a login from memory while the file has another version already,
-- and, where a modification time comes back, one that only an older file had.
theorem memory_outdated :
    (∃ actions,∃ check ∈ (run plain ⟨[],['x']⟩ (fileOf 1 "u:h") 0 actions).checks,∃ entries version,
      check.phase = .looking entries version ∧
      (run plain ⟨[],['x']⟩ (fileOf 1 "u:h") 0 actions).remembers (check.login plain) version = true ∧
      (run plain ⟨[],['x']⟩ (fileOf 1 "u:h") 0 actions).file.modified ≠ .ok version) ∧
    (∃ actions,∃ check ∈ (run plain ⟨[],['x']⟩ (fileOf 1 "u:h") 0 actions).checks,∃ user,
      check.phase = .done (.ok user) ∧
      ¬∃ g entries,check.began ≤ g ∧ Held plain (run plain ⟨[],['x']⟩ (fileOf 1 "u:h") 0 actions).history g entries ∧
        Valid plain entries (check.login plain)) := by
  constructor
  · have shown : (run plain ⟨[],['x']⟩ (fileOf 1 "u:h") 0 racing).checks.any
        (overtaken (run plain ⟨[],['x']⟩ (fileOf 1 "u:h") 0 racing)) = true := by decide
    obtain ⟨check,member,late⟩ := any_eq_true.mp shown
    unfold overtaken at late
    split at late
    · rename_i entries version phase
      obtain ⟨hit,other⟩ := Bool.and_eq_true_iff.mp late
      refine ⟨racing,check,member,entries,version,phase,hit,fun same => ?_⟩
      rw [same] at other
      exact of_decide_eq_true other rfl
    · cases late
  · have shown : (run plain ⟨[],['x']⟩ (fileOf 1 "u:h") 0 restored).checks.any admitted = true := by decide
    obtain ⟨check,member,late⟩ := any_eq_true.mp shown
    unfold admitted at late
    split at late
    · rename_i user phase
      obtain ⟨began,named⟩ := Bool.and_eq_true_iff.mp late
      have since : check.began = 2 := of_decide_eq_true began
      have name : check.user = ['u'] := of_decide_eq_true named
      refine ⟨restored,check,member,user,phase,?_⟩
      rintro ⟨g,entries,after,⟨file,text,found,readable,parsed⟩,password,hash,_,listed,_⟩
      have history : (run plain ⟨[],['x']⟩ (fileOf 1 "u:h") 0 restored).history =
          [fileOf 1 "u:h",fileOf 2 "",fileOf 1 ""] := rfl
      rw [history] at found
      have last : g = 2 := by
        have bound := (List.getElem?_eq_some_iff.mp found).1
        simp only [length_cons,length_nil] at bound; omega
      subst last
      obtain rfl : fileOf 1 "" = file := Option.some.inj found
      obtain rfl : ([] : Str) = text := Except.ok.inj readable
      obtain rfl : (∅ : Table Str Str) = entries := Except.ok.inj parsed
      simp at listed
    · cases late

end HologramLive.LoginMemory
