import HologramLive.Lib.Runs
import HologramLive.Artifact.Reference
import HologramLive.Rpc.Protocol
import HologramLive.Lib.Linear
namespace HologramLive.History
open Tables Rpc

-- The blake3 crate's hex digest, the process id and the directory of the service.
structure Settings where
  hash : Bytes → Str
  processId : Nat
  root : Str

-- The conversations by the digests that name their `.json` files. `list` reads
-- no other file: the temporary ones of `atomic_write` have another extension.
abbrev Files := Table Str Conversation

inductive Op where
  | create (title : Str)
  | list (includeArchived : Bool)
  | get (id : Str)
  | append (id role content : Str)
  | appendExchange (id userContent assistantContent : Str)
  | setArchived (id : Str) (archived : Bool)
  | delete (id : Str)
deriving DecidableEq, Repr

inductive Reply where
  | conversation (conversation : Conversation)
  | conversations (conversations : List Conversation)
  | done
deriving DecidableEq, Repr

abbrev Answer := Except LiveError Reply

-- What a step reads outside the service: the clock, and the order of a directory.
structure Outside where
  now : Nat
  later : Nat
  names : List Str

variable (settings : Settings)

def pathFor (id : Str) : Except LiveError Str :=
  match "blake3:".toList.isPrefixOf? id with
  | none => .error (.notFound "conversation id must be a BLAKE3 address".toList)
  | some digest =>
    if digest.length = 64 ∧ digest.all isHexDigit then .ok digest
    else .error (.notFound "malformed conversation id".toList)

def missingFile (digest : Str) : LiveError :=
  .io (settings.root ++ "/".toList ++ digest ++ ".json: No such file or directory (os error 2)".toList)

def newConversation (title : Str) (now : Nat) : Except LiveError Conversation :=
  let title := trimWhitespace title
  if title.isEmpty then .error (.config "conversation title is empty".toList)
  else
    let nonce := title ++ '\x00' :: decimal now ++ '\x00' :: decimal settings.processId
    .ok ⟨"blake3:".toList ++ settings.hash (toUtf8 nonce),title,now,now,[],false⟩

variable (files : Files)

def persistUnlocked (conversation : Conversation) : Answer × Files :=
  match pathFor conversation.id with
  | .error error => (.error error,files)
  | .ok digest => (.ok (.conversation conversation),files.insert digest conversation)

def get (id : Str) : Except LiveError Conversation :=
  match pathFor id with
  | .error error => .error error
  | .ok digest =>
    match files[digest]? with
    | none => .error (.notFound ("conversation ".toList ++ id ++ " not found".toList))
    | some conversation => .ok conversation

def validateRole (role : Str) : Except LiveError Unit :=
  if role ∈ ["system".toList,"user".toList,"assistant".toList,"tool".toList] then .ok ()
  else .error (.config ("unsupported role ".toList ++ quoted role ++ "; expected system, user, assistant, or tool".toList))

def checked : Op → Except LiveError Unit
  | .append _ role content =>
    match validateRole role with
    | .error error => .error error
    | .ok () =>
      if (trimWhitespace content).isEmpty then .error (.config "message content is empty".toList) else .ok ()
  | .appendExchange _ userContent assistantContent =>
    if (trimWhitespace userContent).isEmpty then .error (.config "message content is empty".toList)
    else if (trimWhitespace assistantContent).isEmpty then .error (.config "assistant response is empty".toList)
    else .ok ()
  | _ => .ok ()

def Op.target : Op → Option Str
  | .append id .. | .appendExchange id .. | .setArchived id _ => some id
  | _ => none

def changed (outside : Outside) (conversation : Conversation) : Op → Conversation
  | .append _ role content =>
    {conversation with
      messages := conversation.messages ++ [⟨role,content,outside.now⟩]
      updatedAtMillis := outside.now}
  | .appendExchange _ userContent assistantContent =>
    let assistantCreatedAtMillis := max outside.later outside.now
    {conversation with
      messages := conversation.messages ++ [⟨"user".toList,userContent,outside.now⟩,
        ⟨"assistant".toList,assistantContent,assistantCreatedAtMillis⟩]
      updatedAtMillis := assistantCreatedAtMillis}
  | .setArchived _ archived => {conversation with archived := archived}
  | _ => conversation

def seen (includeArchived : Bool) (digest : Str) : Option Conversation :=
  files[digest]?.filter fun conversation => !conversation.archived || includeArchived

def newestFirst (conversations : List Conversation) : List Conversation :=
  conversations.insertionSort fun left right => right.updatedAtMillis ≤ left.updatedAtMillis

def serial (outside : Outside) (op : Op) : Answer × Files :=
  match op with
  | .create title =>
    match newConversation settings title outside.now with
    | .error error => (.error error,files)
    | .ok conversation => persistUnlocked files conversation
  | .list includeArchived =>
    (.ok (.conversations (newestFirst (outside.names.filterMap (seen files includeArchived)))),files)
  | .get id => ((get files id).map .conversation,files)
  | .delete id =>
    match pathFor id with
    | .error error => (.error error,files)
    | .ok digest => (.ok .done,files.erase digest)
  | .append id .. | .appendExchange id .. | .setArchived id _ =>
    match checked op with
    | .error error => (.error error,files)
    | .ok () =>
      match get files id with
      | .error error => (.error error,files)
      | .ok conversation => persistUnlocked files (changed outside conversation op)

def Serial (op : Op) (answer : Answer) (after : Files) : Prop :=
  ∃ outside,outside.names.Perm files.keys ∧ serial settings files outside op = (answer,after)

end HologramLive.History

namespace HologramLive.History
open Tables Rpc Runs

-- Where a call is. `missed` marks a listing that some write came too late for:
-- of a file that it had read, or of one that is not in its directory listing.
inductive Phase where
  | invoked
  | created (conversation : Conversation)
  | checked
  | locked
  | writing (conversation : Conversation)
  | unlinking (digest : Str)
  | reading (names : List Str) (output : List Conversation) (missed : Bool)
  | returned (answer : Answer)
deriving DecidableEq

-- `after` are the calls that had returned when this one was made.
structure Task where
  op : Op
  after : List Nat
  phase : Phase
deriving DecidableEq

-- `opened` is what the directory held when the service was opened.
structure State where
  opened : Files
  files : Files
  lock : Option Nat
  calls : List Task

def Phase.unsee (digest : Str) : Phase → Phase
  | .reading names output missed => .reading names output (missed || digest ∉ names)
  | phase => phase

def Task.unsee (digest : Str) (call : Task) : Task := {call with phase := call.phase.unsee digest}

def State.touch (s : State) (digest : Str) : State := {s with calls := s.calls.map (Task.unsee digest)}
def State.setPhase (s : State) (i : Nat) (call : Task) (phase : Phase) : State :=
  {s with calls := s.calls.set i {call with phase := phase}}

def Op.includesArchived : Op → Bool
  | .list includeArchived => includeArchived
  | _ => false

variable (call : Task)

def Task.hasReturned : Bool :=
  match call.phase with
  | .returned _ => true
  | _ => false

variable (settings : Settings)

def State.invoke (s : State) (i : Nat) (call : Task) (outside : Outside) : Option State :=
  match call.op with
  | .create title =>
    match newConversation settings title outside.now with
    | .error error => some (s.setPhase i call (.returned (.error error)))
    | .ok conversation => some (s.setPhase i call (.created conversation))
  | .list _ =>
    if outside.names.isPerm s.files.keys then some (s.setPhase i call (.reading outside.names [] false)) else none
  | .get id => some (s.setPhase i call (.returned ((get s.files id).map .conversation)))
  | .delete id =>
    match pathFor id with
    | .error error => some (s.setPhase i call (.returned (.error error)))
    | .ok digest =>
      if digest ∈ s.files then some (s.setPhase i call (.unlinking digest))
      else some (s.setPhase i call (.returned (.ok .done)))
  | .append .. | .appendExchange .. | .setArchived .. =>
    match checked call.op with
    | .error error => some (s.setPhase i call (.returned (.error error)))
    | .ok () => some (s.setPhase i call .checked)

def State.rename (s : State) (i : Nat) (call : Task) (conversation : Conversation) : State :=
  match pathFor conversation.id with
  | .error error => {s.setPhase i call (.returned (.error error)) with lock := none}
  | .ok digest =>
    {(s.touch digest).setPhase i call (.returned (.ok (.conversation conversation))) with
      files := s.files.insert digest conversation
      lock := none}

def State.unlink (s : State) (i : Nat) (call : Task) (digest : Str) : State :=
  match s.files[digest]? with
  | none => s.setPhase i call (.returned (.error (missingFile settings digest)))
  | some _ => {(s.touch digest).setPhase i call (.returned (.ok .done)) with files := s.files.erase digest}

def State.readNext (s : State) (i : Nat) (call : Task) (output : List Conversation) (missed : Bool) : List Str → State
  | [] => s.setPhase i call (.returned (.ok (.conversations (newestFirst output))))
  | digest :: names =>
    match s.files[digest]? with
    | none => s.setPhase i call (.returned (.error (missingFile settings digest)))
    | some _ => s.setPhase i call (.reading names (output ++ (seen s.files call.op.includesArchived digest).toList) missed)

def State.advance (s : State) (i : Nat) (call : Task) (outside : Outside) : Option State :=
  match call.phase with
  | .invoked => s.invoke settings i call outside
  | .created conversation =>
    if s.lock = none then some {s.setPhase i call (.writing conversation) with lock := some i} else none
  | .checked => if s.lock = none then some {s.setPhase i call .locked with lock := some i} else none
  | .locked =>
    match call.op.target with
    | none => none
    | some id =>
      match get s.files id with
      | .error error => some {s.setPhase i call (.returned (.error error)) with lock := none}
      | .ok conversation => some (s.setPhase i call (.writing (changed outside conversation call.op)))
  | .writing conversation => some (s.rename i call conversation)
  | .unlinking digest => some (s.unlink settings i call digest)
  | .reading names output missed => some (s.readNext settings i call output missed names)
  | .returned _ => none

inductive Action where
  | call (op : Op)
  | step (i : Nat) (outside : Outside)

def State.doneCalls (s : State) : List Nat :=
  (List.range s.calls.length).filter fun i => s.calls[i]?.any Task.hasReturned

def act (s : State) : Action → Option State
  | .call op => some {s with calls := s.calls ++ [⟨op,s.doneCalls,.invoked⟩]}
  | .step i outside => s.calls[i]?.bind fun call => s.advance settings i call outside

def Keyed (files : Files) : Prop :=
  ∀ (digest : Str) (conversation : Conversation),files[digest]? = some conversation → pathFor conversation.id = .ok digest

def Start (s : State) : Prop := s.opened = s.files ∧ Keyed s.files ∧ s.lock = none ∧ s.calls = []

def Task.made : Option Str :=
  match call.op,call.phase with
  | .create _,.created conversation | .create _,.writing conversation
  | .create _,.returned (.ok (.conversation conversation)) => some conversation.id
  | _,_ => none

def Task.waitsFor (digest : Str) : Prop :=
  match call.phase with
  | .reading names _ _ => digest ∈ names
  | _ => False

def Task.missed (call : Task) : Prop :=
  match call.phase with
  | .reading _ _ missed => missed = true
  | _ => False

def Task.writes (digest : Str) : Prop :=
  match call.phase with
  | .writing conversation => pathFor conversation.id = .ok digest
  | _ => False

def Unused (s : State) (id : Str) : Prop :=
  (∀ other ∈ s.calls,other.made ≠ some id) ∧ ∀ digest,pathFor id = .ok digest → digest ∉ s.opened

-- A new id is new; a file that is written is not one that a listing reads after it
-- missed a write; a file that is removed is there, nobody is about to write it back
-- and no listing has still to read it.
def Allowed (s : State) (outside : Outside) (call : Task) : Prop :=
  match call.phase with
  | .invoked =>
    match call.op with
    | .create title => ∀ conversation,newConversation settings title outside.now = .ok conversation → Unused s conversation.id
    | _ => True
  | .writing conversation => ∀ digest,pathFor conversation.id = .ok digest →
    ∀ other ∈ s.calls,other.missed → ¬other.waitsFor digest
  | .unlinking digest => digest ∈ s.files ∧ ∀ other ∈ s.calls,¬other.writes digest ∧ ¬other.waitsFor digest
  | _ => True

def fine (s : State) : Action → Prop
  | .call _ => True
  | .step i outside => ∀ (call : Task),s.calls[i]? = some call → Allowed settings s outside call

end HologramLive.History
