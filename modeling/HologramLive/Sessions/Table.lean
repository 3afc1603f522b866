import HologramLive.Oci.Types
namespace HologramLive.Sessions
open Tables

-- The keyed actors, by number, and the keys from the least to the most recently used.
structure SessionTable where
  actors : Table Str Nat
  recency : List Str

namespace SessionTable

variable (table : SessionTable)

def touch (key : Str) : SessionTable :=
  {table with recency := table.recency.filter (· != key) ++ [key]}

def remove (key : Str) : SessionTable :=
  ⟨table.actors.erase key,table.recency.filter (· != key)⟩

def get (alive : Nat → Bool) (key : Str) : Option Nat × SessionTable :=
  match table.actors[key]? with
  | none => (none,table)
  | some actor => if alive actor then (some actor,table.touch key) else (none,table.remove key)

def insert (table : SessionTable) (key : Str) (actor : Nat) : SessionTable :=
  ⟨table.actors.insert key actor,table.recency ++ [key]⟩

def popOldest (actors : Table Str Nat) : List Str → Option (Nat × SessionTable)
  | [] => none
  | oldest :: rest => match actors[oldest]? with
    | some actor => some (actor,⟨actors.erase oldest,rest⟩)
    | none => popOldest actors rest

end SessionTable

inductive Message where
  | turn
  | stop
  | halt
deriving DecidableEq, Repr

-- A session actor. Its child is there and running, there and dead, or not there;
-- the turn it handles is current; it broke when a turn of it failed without its
-- session staying alive.
structure Actor where
  key : Str
  child : Option Bool
  mailbox : List Message
  current : Bool
  answered : Bool
  stopped : Bool
  broken : Bool
deriving DecidableEq, Repr

def Actor.new (key : Str) : Actor := ⟨key,none,[],false,false,false,false⟩

structure SessionLine where
  response : Option Str
  text : Option Str
  output : Option Str
  error : Option (Str × Str)
deriving DecidableEq, Repr

-- How a turn ends for the actor: the line was not written, or this was read.
inductive Answer where
  | unwritten
  | timedOut
  | unreadable
  | exited
  | line (parsed : Option SessionLine)
deriving DecidableEq, Repr

def SessionLine.alive (line : SessionLine) : Bool :=
  line.error.isSome || (line.response.or (line.text.or line.output)).isSome

def Answer.alive : Answer → Bool
  | .line (some parsed) => parsed.alive
  | _ => false

-- How far a stop of an actor is: its request is not sent, is sent, or is over.
inductive Stopping where
  | ask
  | asked
  | halt
deriving DecidableEq, Repr

inductive Stage where
  | growing
  | evicting (stopping : Stopping) (actor : Nat)
  | leaving (actor : Nat)
deriving DecidableEq, Repr

-- The call that holds the lock of the table across awaits, to spawn a session.
structure Spawning where
  key : Str
  stage : Stage
deriving DecidableEq, Repr

inductive Call where
  | looking (key : Str)
  | asking (key : Str) (actor : Nat)
  | failed (key : Str) (actor : Nat)
  | shutdown (stopping : Stopping) (actor : Nat) (rest : List Nat)
deriving DecidableEq, Repr

-- A turn that an actor began, and a removal after a turn that failed.
structure Begun where
  key : Str
  afterBreak : Bool
  fresh : Bool
  registered : Bool
deriving DecidableEq, Repr

structure Removal where
  failed : Nat
  removed : Option Nat
deriving DecidableEq, Repr

structure State where
  table : SessionTable
  actors : List Actor
  calls : List Call
  spawning : Option Spawning
  breaks : List Str
  begun : List Begun
  removals : List Removal

def State.empty : State := ⟨⟨∅,[]⟩,[],[],none,[],[],[]⟩

def State.setActor (s : State) (at_ : Nat) (actor : Actor) : State := {s with actors := s.actors.set at_ actor}

def State.finishCall (s : State) (call : Nat) (next : List Call) : State := {s with calls := s.calls.eraseIdx call ++ next}

def State.alive (s : State) (at_ : Nat) : Bool := s.actors[at_]?.any (!·.stopped)

section Steps
variable (max capacity : Nat)

-- `session_actor` under the lock, up to the first await of `spawn`.
def look (s : State) (call : Nat) (artifact : Bool) : Option State :=
  match s.spawning,s.calls[call]? with
  | none,some (.looking key) =>
    match s.table.get s.alive key with
    | (some actor,table) => some {s.finishCall call [.asking key actor] with table := table}
    | (none,table) =>
      if artifact then some {s.finishCall call [] with table := table, spawning := some ⟨key,.growing⟩}
      else some {s.finishCall call [] with table := table}
  | _,_ => none

-- `spawn`: room is made first, then the actor is inserted and the lock is free.
def grow (s : State) : Option State :=
  match s.spawning with
  | some ⟨key,.growing⟩ =>
    if max ≤ s.table.actors.size then
      (SessionTable.popOldest s.table.actors s.table.recency).map fun (actor,table) =>
        {s with table := table, spawning := some ⟨key,.evicting .ask actor⟩}
    else some {s with
      table := s.table.insert key s.actors.length
      actors := s.actors ++ [.new key]
      calls := s.calls ++ [.asking key s.actors.length]
      spawning := none}
  | _ => none

variable (actor : Actor)

def Actor.accepts : Bool := !actor.stopped && decide (actor.mailbox.length < capacity)
def Actor.send (message : Message) : Actor := {actor with mailbox := actor.mailbox ++ [message]}

def ask (s : State) (call : Nat) : Option State :=
  match s.calls[call]? with
  | some (.asking key at_) => match s.actors[at_]? with
    | some actor =>
      if actor.stopped then some (s.finishCall call [.failed key at_])
      else if actor.accepts capacity then some ((s.finishCall call []).setActor at_ (actor.send .turn))
      else none
    | none => none
  | _ => none

def Actor.hasTurn : Bool := actor.current || actor.mailbox.contains .turn

def tearDown (s : State) (at_ : Nat) (actor : Actor) : State :=
  {(s.setActor at_ {actor with child := none, current := false, broken := true}) with
    calls := s.calls ++ [.failed actor.key at_]
    breaks := s.breaks ++ [actor.key]}

def State.begins (s : State) (at_ : Nat) (actor : Actor) : Begun :=
  ⟨actor.key,s.breaks.contains actor.key,!actor.broken,s.table.actors[actor.key]? == some at_⟩

def begin (s : State) (at_ : Nat) (spawned : Bool) : Option State :=
  match s.actors[at_]? with
  | some actor => match actor.current,actor.mailbox with
    | false,.turn :: rest =>
      let started : State := {s with begun := s.begun ++ [s.begins at_ actor]}
      if actor.child.isNone && !spawned then some (tearDown started at_ {actor with mailbox := rest})
      else some (started.setActor at_ {actor with
        child := some (actor.child.getD true), mailbox := rest, current := true})
    | _,_ => none
  | none => none

def finish (s : State) (at_ : Nat) (answer : Answer) : Option State :=
  match s.actors[at_]? with
  | some actor =>
    if actor.current then
      if answer.alive then some (s.setActor at_ {actor with current := false})
      else some (tearDown s at_ actor)
    else none
  | none => none

def stopSession (s : State) (at_ : Nat) : Option State :=
  match s.actors[at_]? with
  | some actor => match actor.current,actor.mailbox with
    | false,.stop :: rest => some (s.setActor at_ {actor with child := none, mailbox := rest, answered := true})
    | _,_ => none
  | none => none

-- The actor stops: its child is killed with it, and what is left in the mailbox
-- is answered with an error.
def stopActor (s : State) (at_ : Nat) (actor : Actor) : State :=
  {(s.setActor at_ {actor with child := none, mailbox := [], stopped := true}) with
    calls := s.calls ++ (actor.mailbox.filter (· == .turn)).map fun _ => .failed actor.key at_}

def haltActor (s : State) (at_ : Nat) : Option State :=
  match s.actors[at_]? with
  | some actor => match actor.current,actor.mailbox with
    | false,.halt :: _ => some (stopActor s at_ actor)
    | _,_ => none
  | none => none

def removeFailed (s : State) (call : Nat) : Option State :=
  match s.spawning,s.calls[call]? with
  | none,some (.failed key at_) =>
    some {s.finishCall call [] with
      table := s.table.remove key
      removals := s.removals ++ [⟨at_,s.table.actors[key]?⟩]}
  | _,_ => none

-- One step of stopping an actor: send the request, go on without or with its
-- answer, send the signal that ends the actor.
inductive StopStep where
  | send
  | proceed (timedOut : Bool)
deriving DecidableEq, Repr

def Stopping.step (stopping : Stopping) (step : StopStep) (s : State) (at_ : Nat) : Option (Option Stopping × State) :=
  match s.actors[at_]? with
  | some actor => match stopping,step with
    | .ask,.send => if actor.accepts capacity then some (some .asked,s.setActor at_ (actor.send .stop)) else none
    | .ask,.proceed timedOut => if timedOut || actor.stopped then some (some .halt,s) else none
    | .asked,.proceed timedOut => if timedOut || actor.answered || actor.stopped then some (some .halt,s) else none
    | .halt,.send => if actor.accepts capacity then some (none,s.setActor at_ (actor.send .halt)) else none
    | .halt,.proceed _ => if actor.stopped then some (none,s) else none
    | .asked,.send => none
  | none => none

def evict (s : State) (step : StopStep) : Option State :=
  match s.spawning with
  | some ⟨key,.evicting stopping at_⟩ => (stopping.step capacity step s at_).map fun (next,t) =>
    {t with spawning := some ⟨key,match next with
      | some later => .evicting later at_
      | none => .leaving at_⟩}
  | _ => none

def leave (s : State) : Option State :=
  match s.spawning with
  | some ⟨key,.leaving _⟩ => some {s with spawning := some ⟨key,.growing⟩}
  | _ => none

def nextStopped : List Nat → List Call
  | [] => []
  | actor :: rest => [.shutdown .ask actor rest]

def drain (s : State) (order : List Nat) : Option State :=
  match s.spawning with
  | none =>
    if order.isPerm (s.table.actors.toList.map (·.2)) then
      some {s with table := ⟨∅,[]⟩, calls := s.calls ++ nextStopped order}
    else none
  | some _ => none

def shutdown (s : State) (call : Nat) (step : StopStep) : Option State :=
  match s.calls[call]? with
  | some (.shutdown stopping at_ rest) => (stopping.step capacity step s at_).map fun (next,t) =>
    t.finishCall call (match next with
      | some later => [.shutdown later at_ rest]
      | none => nextStopped rest)
  | _ => none

def childDies (s : State) (at_ : Nat) : Option State :=
  match s.actors[at_]? with
  | some actor => match actor.child with
    | some _ => some (s.setActor at_ {actor with child := some false})
    | none => none
  | none => none

def Call.names (at_ : Nat) : Call → Bool
  | .looking _ => false
  | .asking _ actor | .failed _ actor => actor == at_
  | .shutdown _ actor rest => actor == at_ || rest.contains at_

def Stage.names (at_ : Nat) : Stage → Bool
  | .growing => false
  | .evicting _ actor | .leaving actor => actor == at_

def forgotten (s : State) (at_ : Nat) : Option State :=
  match s.actors[at_]? with
  | some actor =>
    if actor.hasTurn || !actor.mailbox.isEmpty || s.table.actors[actor.key]? == some at_ || s.calls.any (·.names at_) ||
        s.spawning.any (·.stage.names at_) then none
    else some (stopActor s at_ actor)
  | none => none

inductive Action where
  | complete (key : Str)
  | look (call : Nat) (artifact : Bool)
  | grow
  | evict (step : StopStep)
  | leave
  | ask (call : Nat)
  | begin (at_ : Nat) (spawned : Bool)
  | finish (at_ : Nat) (answer : Answer)
  | stopSession (at_ : Nat)
  | halt (at_ : Nat)
  | remove (call : Nat)
  | drain (order : List Nat)
  | shutdown (call : Nat) (step : StopStep)
  | childDies (at_ : Nat)
  | forgotten (at_ : Nat)

def act (s : State) : Action → Option State
  | .complete key => some {s with calls := s.calls ++ [.looking key]}
  | .look call artifact => look s call artifact
  | .grow => grow max s
  | .evict step => evict capacity s step
  | .leave => leave s
  | .ask call => ask capacity s call
  | .begin at_ spawned => begin s at_ spawned
  | .finish at_ answer => finish s at_ answer
  | .stopSession at_ => stopSession s at_
  | .halt at_ => haltActor s at_
  | .remove call => removeFailed s call
  | .drain order => drain s order
  | .shutdown call step => shutdown capacity s call step
  | .childDies at_ => childDies s at_
  | .forgotten at_ => forgotten s at_

end Steps

end HologramLive.Sessions
