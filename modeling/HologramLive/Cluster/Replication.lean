import HologramLive.Cluster.Proof
import HologramLive.Objects.Providers
namespace HologramLive.Cluster
open Tables Rpc Objects
open Objects.ObjectStore (Read)

structure ClusterResponse where
  status : Nat
  headers : List (Str × Str)
  body : Bytes
deriving DecidableEq

def ClusterResponse.header (response : ClusterResponse) (name : Str) : Option Str :=
  (response.headers.find? fun row => row.1.map Char.toLower = name.map Char.toLower).map (·.2)

def ClusterResponse.isSuccess (response : ClusterResponse) : Bool := 200 ≤ response.status && response.status < 300

-- What a network offers besides requests: verified bytes into a local copy, and a
-- reader of the copy.
structure BlobChannel where
  fetch : Str → Except LiveError Nat
  reader : Str → Except LiveError (List Read)

-- An endpoint as the network that dials it gives it: the recipient of a proof, the
-- answer to a path, a query and a bound on the answer, and its blob channel.
structure Peer where
  endpoint : Str
  recipient : Option Str
  send : Str → Option Str → Option Nat → Except LiveError ClusterResponse
  blobChannel : Option BlobChannel

-- The node that replicates: its provider, the streaming put that only the local
-- provider has, and the bounds of its configuration.
structure Replicator (σ : Type) where
  registry : RegistryProvider σ
  localRegistry : Option (σ → Moment → Str → Str → Option Str → List Read → Except LiveError ObjectMetadata × σ)
  decodePage : Bytes → Except Str ObjectPage
  maxObjects : Nat
  maxBytes : Nat

def objectsPath : Str := "/api/v1/cluster/objects".toList
def inventoryMaxResponseBytes : Nat := ObjectQuery.maxLimit*4*1024 + 64*1024

def formByte (b : UInt8) : Str :=
  let c := Char.ofNat b.toNat
  if c.isAlphanum || c ∈ ['*','-','.','_'] then [c]
  else if c = ' ' then ['+']
  else '%' :: (hex [b]).map Char.toUpper

def formEncode (text : Str) : Str := (toUtf8 text).flatMap formByte

def inventoryQuery (limit : Nat) (cursor : Option Str) : Str :=
  "limit=".toList ++ formEncode (decimal limit) ++ match cursor with
    | some cursor => "&cursor=".toList ++ formEncode cursor
    | none => []

structure RoundOutcome where
  stored : Nat
  failed : Nat
deriving DecidableEq

def RoundOutcome.recordObjectStored (outcome : RoundOutcome) : RoundOutcome := {outcome with stored := outcome.stored+1}
def RoundOutcome.recordObjectFailure (outcome : RoundOutcome) : RoundOutcome := {outcome with failed := outcome.failed+1}

def endsReplicationRound : LiveError → Bool
  | .transport _ | .authentication _ | .authorization _ => true
  | _ => false

def fetchFailure (status : Nat) (message : Str) : LiveError :=
  if status = 401 then .authentication message
  else if status = 403 then .authorization message
  else .transport message

def signedGet (peer : Peer) (recipient path : Str) (query : Option Str) (maxResponseBytes : Option Nat) :
    Except LiveError ClusterResponse := do
  rejectSeparators "GET".toList path query recipient
  peer.send path query maxResponseBytes

section Objects
variable {σ : Type} (node : Replicator σ) (peer : Peer)

def exceedsBound (id : Str) : LiveError :=
  .capability ("cluster object ".toList ++ id ++ " exceeds ".toList ++ decimal node.maxBytes ++ " byte transfer bound".toList)
def digestMismatch (expected got : Str) : LiveError :=
  .protocol ("cluster object digest mismatch: expected ".toList ++ expected ++ ", got ".toList ++ got)

def checkStored (expected : Str) : Except LiveError ObjectMetadata × σ → Except LiveError Bool × σ
  | (.error e,registry) => (.error e,registry)
  | (.ok stored,registry) => if stored.id ≠ expected then (.error (digestMismatch expected stored.id),registry) else (.ok true,registry)

def readToEnd (bound : Nat) (got : Bytes) : List Read → Except LiveError Bytes
  | [] => .ok got
  | .bytes [] :: _ => .ok got
  | .bytes chunk :: rest =>
    if bound ≤ (got ++ chunk).length then .ok ((got ++ chunk).take bound) else readToEnd bound (got ++ chunk) rest
  | .interrupted :: rest => readToEnd bound got rest
  | .failed message :: _ => .error (.io message)

-- The local provider streams the copy; another one takes whole bytes, with the
-- bound of the transfer.
def importReader (now : Moment) (registry : σ) (metadata : ObjectMetadata) (reader : List Read) :
    Except LiveError ObjectMetadata × σ :=
  match node.localRegistry with
  | some putObjectReader => putObjectReader registry now metadata.kind metadata.mediaType metadata.filename reader
  | none =>
    match readToEnd (node.maxBytes+1) [] reader with
    | .error e => (.error e,registry)
    | .ok bytes =>
      if node.maxBytes < bytes.length then (.error (exceedsBound node metadata.id),registry)
      else node.registry.putObject registry now metadata.kind metadata.mediaType metadata.filename bytes

def fetchAndImportObject (channel : BlobChannel) (now : Moment) (registry : σ) (metadata : ObjectMetadata) :
    Except LiveError Bool × σ :=
  match channel.fetch metadata.id with
  | .error e => (.error e,registry)
  | .ok _ =>
    match channel.reader metadata.id with
    | .error e => (.error e,registry)
    | .ok reader => checkStored metadata.id (importReader node now registry metadata reader)

def fetchObject (recipient : Str) (now : Moment) (registry : σ) (metadata : ObjectMetadata) : Except LiveError Bool × σ :=
  match signedGet peer recipient (objectsPath ++ "/".toList ++ metadata.id) none (some node.maxBytes) with
  | .error e => (.error e,registry)
  | .ok response =>
    if !response.isSuccess then
      (.error (fetchFailure response.status ("fetch cluster object ".toList ++ metadata.id ++ " from ".toList ++
        peer.endpoint ++ ": HTTP ".toList ++ decimal response.status)),registry)
    else
      let mediaType := (response.header "content-type".toList).getD "application/octet-stream".toList
      let filename := response.header "x-hologram-object-filename".toList
      if node.maxBytes < response.body.length then (.error (exceedsBound node metadata.id),registry)
      else checkStored metadata.id (node.registry.putObject registry now metadata.kind mediaType filename response.body)

def replicateObject (recipient : Str) (now : Moment) (registry : σ) (metadata : ObjectMetadata) : Except LiveError Bool × σ :=
  match node.registry.getObject registry now metadata.id with
  | (.ok _,registry) => (.ok false,registry)
  | (.error _,registry) =>
    match peer.blobChannel with
    | some channel => fetchAndImportObject node channel now registry metadata
    | none => fetchObject node peer recipient now registry metadata

structure Round (σ : Type) where
  registry : σ
  transferred : Nat
  outcome : RoundOutcome

variable (clock : Nat → Moment)

def replicateEntry (recipient : Str) (round : Round σ) (metadata : ObjectMetadata) : Round σ × Option LiveError :=
  let round := {round with transferred := round.transferred+1}
  if node.maxBytes < metadata.size then (round,none)
  else match replicateObject node peer recipient (clock round.transferred) round.registry metadata with
    | (.ok true,registry) => ({round with registry := registry,outcome := round.outcome.recordObjectStored},none)
    | (.ok false,registry) => ({round with registry := registry},none)
    | (.error e,registry) =>
      if endsReplicationRound e then ({round with registry := registry},some e)
      else ({round with registry := registry,outcome := round.outcome.recordObjectFailure},none)

def replicateEntries (recipient : Str) (round : Round σ) : List ObjectMetadata → Round σ × Option LiveError
  | [] => (round,none)
  | metadata :: rest =>
    match replicateEntry node peer clock recipient round metadata with
    | (round,some e) => (round,some e)
    | (round,none) => replicateEntries recipient round rest

def inventoryPage (recipient : Str) (limit : Nat) (cursor : Option Str) : Except LiveError ObjectPage := do
  let response ← signedGet peer recipient objectsPath (some (inventoryQuery limit cursor)) (some inventoryMaxResponseBytes)
  match node.decodePage response.body with
  | .error e => .error (.protocol ("decode cluster object inventory from ".toList ++ peer.endpoint ++ ": ".toList ++ e))
  | .ok inventory =>
    if inventory.truncated then
      .error (.capability ("cluster object inventory from ".toList ++ peer.endpoint ++ " was truncated by its provider".toList))
    else .ok inventory

-- The pages of a round, at most as many as the first argument says.
def replicatePages (recipient : Str) : Nat → Option Str → Round σ → Option (Except LiveError RoundOutcome × σ)
  | 0,_,_ => none
  | pages+1,cursor,round =>
    let remaining := node.maxObjects - round.transferred
    if remaining = 0 then some (.ok round.outcome,round.registry)
    else match inventoryPage node peer recipient (min remaining ObjectQuery.maxLimit) cursor with
      | .error e => some (.error e,round.registry)
      | .ok inventory =>
        match replicateEntries node peer clock recipient round inventory.objects with
        | (round,some e) => some (.error e,round.registry)
        | (round,none) =>
          match inventory.nextCursor with
          | some next => replicatePages recipient pages (some next) round
          | none => some (.ok round.outcome,round.registry)

def replicatePeer (pages : Nat) (registry : σ) : Option (Except LiveError RoundOutcome × σ) :=
  match peer.recipient with
  | none => some (.error (.config ("no cluster network can reach ".toList ++ peer.endpoint)),registry)
  | some recipient => replicatePages node peer clock recipient pages none ⟨registry,0,⟨0,0⟩⟩

end Objects

end HologramLive.Cluster
