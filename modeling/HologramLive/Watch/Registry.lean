import HologramLive.Oci.Types
namespace HologramLive.Watch
open Tables

-- A canonical path, by its components below the root.
abbrev Path := List Str

def manifestName : Str := "hologram.json".toList

structure WatchedHoloProject where
  id : Str
  name : Str
  directory : Path
  manifest : Path
  status : Str
  archiveKappa : Option Str
  archiveName : Option Str
  lastCompiledAtMillis : Option Nat
  error : Option Str
deriving DecidableEq, Repr

structure BuildRequest where
  id : Str
  manifest : Path
  projectName : Str
  output : Path
  previousKappa : Option Str
deriving DecidableEq, Repr

structure BuildResult where
  archiveKappa : Str
  archiveName : Str
deriving DecidableEq, Repr

def trimMatches (drop : Char → Bool) (text : Str) : Str :=
  ((text.dropWhile drop).reverse.dropWhile drop).reverse

def safeName (name : Str) : Str :=
  let value := trimMatches (· == '-') (name.map fun character =>
    if character.isAlphanum || character == '-' || character == '_' then character else '-')
  if value.isEmpty then "application".toList else value

def projectName (directory : Path) : Str := directory.getLast?.getD "Hologram application".toList

inductive EventKind where
  | any
  | access
  | create
  | modify
  | remove
  | other
deriving DecidableEq, Repr

structure Event where
  kind : EventKind
  paths : List Path
deriving DecidableEq, Repr

def ignoredNames : List Str :=
  [".git".toList,".venv".toList,"node_modules".toList,"target".toList,"__pycache__".toList]

def relevantPath (path : Path) : Bool :=
  !(path.any (ignoredNames.contains ·)) && path.getLast? != some ".DS_Store".toList

def isRelevantEvent (event : Event) : Bool := event.kind != .access && event.paths.any relevantPath

-- What the registry is created with, and the hash that names a directory.
structure Host where
  watchId : Path → Str
  buildRoot : Path

-- The file system and the platform's watcher as one call of `register` meets them.
structure Files where
  canonicalize : Path → Option Path
  isDir : Path → Bool
  isFile : Path → Bool
  watch : Path → Bool

-- An entry of the registry. The registration stands for the channel and the
-- watcher that one call of `register` made.
structure WatchHandle where
  record : WatchedHoloProject
  registration : Nat
deriving DecidableEq, Repr

-- How far the call of `register` is that made a registration. The rest are the
-- saved records that `restore` still has to register.
inductive Registering where
  | insert (record : WatchedHoloProject) (rest : List WatchedHoloProject)
  | persist (rest : List WatchedHoloProject)
  | persisting (rest : List WatchedHoloProject)
  | spawn (rest : List WatchedHoloProject)
  | start (rest : List WatchedHoloProject)
  | ended
deriving DecidableEq, Repr

-- Where the worker of a registration stands. A request carries the registration
-- whose record it was read from.
inductive Worker where
  | unstarted
  | waiting
  | debouncing
  | armed
  | requested (request : BuildRequest) (source : Nat)
  | building (request : BuildRequest) (source : Nat)
  | finished (result : Except Str BuildResult) (source : Nat)
  | recorded
  | persisting
  | exited

structure Registration where
  id : Str
  directory : Path
  queue : Nat
  call : Registering
  worker : Worker
  -- no build was requested since the last event the watcher delivered
  unserved : Bool

-- Other calls in progress. A removal holds the removed handle until it returns.
inductive Call where
  | register (directory : Path) (previous : Option WatchedHoloProject) (rest : List WatchedHoloProject)
  | persistRemoved (registration : Nat)
  | persistRolledBack (rest : List WatchedHoloProject)
  | persistMarked

-- Who holds the persistence lock, and what it goes on with.
inductive Holder where
  | registered (registration : Nat)
  | recorded (registration : Nat)
  | other (call : Call)

-- Between the listing and the rename. Live are the listed projects that the
-- user has not removed since.
structure Writing where
  snapshot : List WatchedHoloProject
  live : List Path
  holder : Holder

-- Whose result was recorded where.
structure Recording where
  worker : Nat
  source : Nat
  target : Nat
deriving DecidableEq, Repr

-- The registry, its threads and its file. Owed are the projects that a file
-- held and the user has not removed.
structure State where
  watches : Table Str WatchHandle
  registrations : List Registration
  calls : List Call
  writing : Option Writing
  file : Option (List WatchedHoloProject)
  owed : List Path
  recordings : List Recording

def State.list (s : State) : List WatchedHoloProject := s.watches.toList.map (·.2.record)
def State.saved (s : State) : List WatchedHoloProject := s.file.getD []

def State.started (file : Option (List WatchedHoloProject)) : State :=
  ⟨∅,[],[],none,file,(file.getD []).map (·.directory),[]⟩

def State.setRegistration (s : State) (at_ : Nat) (registration : Registration) : State :=
  {s with registrations := s.registrations.set at_ registration}

def State.updateRecord (s : State) (id : Str) (update : WatchedHoloProject → WatchedHoloProject) : State :=
  match s.watches[id]? with
  | none => s
  | some watched => {s with watches := s.watches.insert id {watched with record := update watched.record}}

def markFailed (error : Str) (record : WatchedHoloProject) : WatchedHoloProject :=
  {record with status := "failed".toList, error := some error}

variable (registration : Registration)

def Registration.isRegistered (at_ : Nat) (watches : Table Str WatchHandle) : Bool :=
  watches[registration.id]?.any (·.registration == at_)

def Call.removed : Call → Option Nat
  | .persistRemoved registration => some registration
  | _ => none

def Holder.removed : Holder → Option Nat
  | .other call => call.removed
  | _ => none

def State.removing (s : State) (at_ : Nat) : Bool :=
  s.calls.any (·.removed == some at_) || s.writing.any (·.holder.removed == some at_)

def Registering.isInsert : Registering → Bool
  | .insert _ _ => true
  | _ => false

def Registering.isOver : Registering → Bool
  | .ended => true
  | _ => false

def State.connected (s : State) (at_ : Nat) (registration : Registration) : Bool :=
  registration.isRegistered at_ s.watches || s.removing at_ || !registration.call.isOver

def State.observing (s : State) (at_ : Nat) (registration : Registration) : Bool :=
  registration.isRegistered at_ s.watches || s.removing at_ || registration.call.isInsert

def Worker.isExited : Worker → Bool
  | .exited => true
  | _ => false

def Registration.send : Registration :=
  if registration.worker.isExited then registration else {registration with queue := registration.queue + 1}

def saved (record : WatchedHoloProject) : WatchedHoloProject :=
  {record with status := "watching".toList, error := none}

def nextSaved : List WatchedHoloProject → List Call
  | [] => []
  | record :: rest => [.register record.directory (some (saved record)) rest]

def State.finishCall (s : State) (at_ : Nat) (next : List Call) : State :=
  {s with calls := s.calls.eraseIdx at_ ++ next}

-- The events the claims about builds speak of: a change below the watched
-- directory, judged by the path from there on.
def concerns (directory : Path) (event : Event) : Bool :=
  event.kind != .access && event.paths.any fun path =>
    directory.isPrefixOf path && relevantPath (path.drop directory.length)

def Registration.notice (event : Event) : Registration :=
  {(if isRelevantEvent event then registration.send else registration) with
    unserved := registration.unserved || concerns registration.directory event}

def restore (s : State) (readable : Bool) : State :=
  if readable then {s with calls := s.calls ++ nextSaved s.saved} else s

def add (s : State) (directory : Path) : State := {s with calls := s.calls ++ [.register directory none []]}

def forget (directory : Path) (kept : List Path) : List Path := kept.filter (· != directory)

def remove (s : State) (id : Str) : State :=
  match s.watches[id]? with
  | none => s
  | some removed =>
    {s with
      watches := s.watches.erase id
      calls := s.calls ++ [.persistRemoved removed.registration]
      owed := forget removed.record.directory s.owed
      writing := s.writing.map fun writing => {writing with live := forget removed.record.directory writing.live}}

def scheduleAll (s : State) : State :=
  {s with registrations := s.registrations.mapIdx fun at_ registration =>
    if registration.isRegistered at_ s.watches then registration.send else registration}

def watchEvent (s : State) (at_ : Nat) (event : Event) : Option State :=
  (s.registrations[at_]?).bind fun registration =>
    if s.observing at_ registration then some (s.setRegistration at_ (registration.notice event)) else none

def watchError (s : State) (at_ : Nat) (error : Str) : Option State :=
  (s.registrations[at_]?).bind fun registration =>
    if s.observing at_ registration then
      let marked := s.updateRecord registration.id (markFailed error)
      some {marked with calls := marked.calls ++ [.persistMarked]}
    else none

section Steps
variable (host : Host)

def recordFor (directory : Path) (previous : Option WatchedHoloProject) : WatchedHoloProject :=
  let record := previous.getD
    ⟨host.watchId directory,projectName directory,directory,directory ++ [manifestName],"watching".toList,none,none,none,none⟩
  {record with
    id := host.watchId directory
    name := projectName directory
    directory := directory
    manifest := directory ++ [manifestName]
    status := "watching".toList
    error := none}

-- A call of `register` up to the watcher. It ends at once where the directory
-- does not open, holds no manifest, is registered or cannot be watched.
def register (files : Files) (s : State) (at_ : Nat) : Option State :=
  match s.calls[at_]? with
  | some (.register directory previous rest) =>
    match (files.canonicalize directory).filter fun opened => files.isDir opened && files.isFile (opened ++ [manifestName]) with
    | none => some (s.finishCall at_ (nextSaved rest))
    | some opened =>
      if (s.watches[host.watchId opened]?).isSome || !files.watch opened then some (s.finishCall at_ (nextSaved rest))
      else some {s.finishCall at_ [] with
        registrations := s.registrations ++
          [⟨host.watchId opened,opened,0,.insert (recordFor host opened previous) rest,.unstarted,false⟩]}
  | _ => none

def insert (s : State) (at_ : Nat) : Option State :=
  match s.registrations[at_]? with
  | some registration => match registration.call with
    | .insert record rest =>
      some {s.setRegistration at_ {registration with call := .persist rest} with
        watches := s.watches.insert registration.id ⟨record,at_⟩}
    | _ => none
  | none => none

def spawn (s : State) (at_ : Nat) (started : Bool) : Option State :=
  match s.registrations[at_]? with
  | some registration => match registration.call with
    | .spawn rest =>
      if started then some (s.setRegistration at_ {registration with call := .start rest, worker := .waiting})
      else some {s.setRegistration at_ {registration with call := .ended, worker := .exited} with
        watches := s.watches.erase registration.id
        calls := s.calls ++ [.persistRolledBack rest]}
    | _ => none
  | none => none

def start (s : State) (at_ : Nat) : Option State :=
  match s.registrations[at_]? with
  | some registration => match registration.call with
    | .start rest =>
      some {s.setRegistration at_ {registration.send with call := .ended} with calls := s.calls ++ nextSaved rest}
    | _ => none
  | none => none

inductive Waiting where
  | registering (at_ : Nat)
  | worker (at_ : Nat)
  | call (at_ : Nat)
deriving DecidableEq, Repr

def Waiting.enter (s : State) : Waiting → Option (State × Holder)
  | .registering at_ => match s.registrations[at_]? with
    | some registration => match registration.call with
      | .persist rest => some (s.setRegistration at_ {registration with call := .persisting rest},.registered at_)
      | _ => none
    | none => none
  | .worker at_ => match s.registrations[at_]? with
    | some registration => match registration.worker with
      | .recorded => some (s.setRegistration at_ {registration with worker := .persisting},.recorded at_)
      | _ => none
    | none => none
  | .call at_ => match s.calls[at_]? with
    | some (.register _ _ _) => none
    | some entering => some (s.finishCall at_ [],.other entering)
    | none => none

def lock (s : State) (waiting : Waiting) : Option State :=
  match s.writing with
  | some _ => none
  | none => (waiting.enter s).map fun entered =>
    {entered.1 with writing := some ⟨s.list,s.list.map (·.directory),entered.2⟩}

def resume (s : State) (written : Bool) : Holder → State
  | .registered at_ => match s.registrations[at_]? with
    | some registration => match registration.call with
      | .persisting rest =>
        if written then s.setRegistration at_ {registration with call := .spawn rest}
        else {s.setRegistration at_ {registration with call := .ended, worker := .exited} with
          watches := s.watches.erase registration.id
          calls := s.calls ++ nextSaved rest}
      | _ => s
    | none => s
  | .recorded at_ => match s.registrations[at_]? with
    | some registration => match registration.worker with
      | .persisting => s.setRegistration at_ {registration with worker := .waiting}
      | _ => s
    | none => s
  | .other (.persistRolledBack rest) => {s with calls := s.calls ++ nextSaved rest}
  | .other _ => s

def write (s : State) (written : Bool) : Option State :=
  match s.writing with
  | none => none
  | some writing =>
    let released : State := {s with writing := none}
    if written then
      some (resume {released with file := some writing.snapshot, owed := s.owed ++ writing.live} true writing.holder)
    else some (resume released false writing.holder)

def receive (s : State) (at_ : Nat) : Option State :=
  match s.registrations[at_]? with
  | some registration =>
    match registration.worker,registration.queue with
    | .waiting,queue + 1 | .debouncing,queue + 1 =>
      some (s.setRegistration at_ {registration with worker := .debouncing, queue := queue})
    | _,_ => none
  | none => none

def timeout (s : State) (at_ : Nat) : Option State :=
  match s.registrations[at_]? with
  | some registration =>
    match registration.worker,registration.queue with
    | .debouncing,0 =>
      if s.connected at_ registration then some (s.setRegistration at_ {registration with worker := .armed}) else none
    | _,_ => none
  | none => none

def disconnect (s : State) (at_ : Nat) : Option State :=
  match s.registrations[at_]? with
  | some registration =>
    match registration.worker,registration.queue with
    | .waiting,0 | .debouncing,0 =>
      if s.connected at_ registration then none else some (s.setRegistration at_ {registration with worker := .exited})
    | _,_ => none
  | none => none

def projectBuildInput (s : State) (id : Str) : Option (BuildRequest × Nat) :=
  s.watches[id]?.map fun watched =>
    (⟨id,watched.record.manifest,watched.record.name,
      host.buildRoot ++ [id,safeName watched.record.name ++ ".holo".toList],watched.record.archiveKappa⟩,
      watched.registration)

def request (s : State) (at_ : Nat) : Option State :=
  match s.registrations[at_]? with
  | some registration => match registration.worker with
    | .armed => match projectBuildInput host s registration.id with
      | none => some (s.setRegistration at_ {registration with worker := .waiting})
      | some (input,source) =>
        some (s.setRegistration at_ {registration with worker := .requested input source, unserved := false})
    | _ => none
  | none => none

def compiling (record : WatchedHoloProject) : WatchedHoloProject :=
  {record with status := "compiling".toList, error := none}

def ready (build : BuildResult) (now : Nat) (record : WatchedHoloProject) : WatchedHoloProject :=
  {record with
    status := "ready".toList
    archiveKappa := some build.archiveKappa
    archiveName := some build.archiveName
    lastCompiledAtMillis := some now
    error := none}

def compile (s : State) (at_ : Nat) (created : Except Str Unit) : Option State :=
  match s.registrations[at_]? with
  | some registration => match registration.worker with
    | .requested input source =>
      let marked := s.updateRecord registration.id compiling
      some (marked.setRegistration at_ {registration with worker := match created with
        | .ok () => .building input source
        | .error error => .finished (.error error) source})
    | _ => none
  | none => none

def buildProject (s : State) (at_ : Nat) (result : Except Str BuildResult) : Option State :=
  match s.registrations[at_]? with
  | some registration => match registration.worker with
    | .building _ source => some (s.setRegistration at_ {registration with worker := .finished result source})
    | _ => none
  | none => none

def State.recordingsOf (s : State) (id : Str) (worker source : Nat) : List Recording :=
  match s.watches[id]? with
  | none => []
  | some watched => [⟨worker,source,watched.registration⟩]

def record (s : State) (at_ : Nat) (now : Nat) : Option State :=
  match s.registrations[at_]? with
  | some registration => match registration.worker with
    | .finished result source =>
      let marked := s.updateRecord registration.id (match result with
        | .ok build => ready build now
        | .error error => markFailed error)
      some {marked.setRegistration at_ {registration with worker := .recorded} with
        recordings := s.recordings ++ s.recordingsOf registration.id at_ source}
    | _ => none
  | none => none

def crash (s : State) : State := {State.started s.file with owed := s.owed}

-- One step, by the call from outside that begins or by the thread that takes it.
inductive Action where
  | restore (readable : Bool)
  | add (directory : Path)
  | remove (id : Str)
  | scheduleAll
  | event (at_ : Nat) (event : Event)
  | watchError (at_ : Nat) (error : Str)
  | crash
  | register (files : Files) (at_ : Nat)
  | insert (at_ : Nat)
  | spawn (at_ : Nat) (started : Bool)
  | start (at_ : Nat)
  | lock (waiting : Waiting)
  | write (written : Bool)
  | receive (at_ : Nat)
  | timeout (at_ : Nat)
  | disconnect (at_ : Nat)
  | request (at_ : Nat)
  | compile (at_ : Nat) (created : Except Str Unit)
  | build (at_ : Nat) (result : Except Str BuildResult)
  | record (at_ : Nat) (now : Nat)

def act (s : State) : Action → Option State
  | .restore readable => some (restore s readable)
  | .add directory => some (add s directory)
  | .remove id => some (remove s id)
  | .scheduleAll => some (scheduleAll s)
  | .event at_ event => watchEvent s at_ event
  | .watchError at_ error => watchError s at_ error
  | .crash => some (crash s)
  | .register files at_ => register host files s at_
  | .insert at_ => insert s at_
  | .spawn at_ started => spawn s at_ started
  | .start at_ => start s at_
  | .lock waiting => lock s waiting
  | .write written => write s written
  | .receive at_ => receive s at_
  | .timeout at_ => timeout s at_
  | .disconnect at_ => disconnect s at_
  | .request at_ => request host s at_
  | .compile at_ created => compile s at_ created
  | .build at_ result => buildProject s at_ result
  | .record at_ now => record s at_ now

end Steps

end HologramLive.Watch
