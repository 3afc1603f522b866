import HologramLive.Cluster.Requests
import HologramLive.Rpc.Protocol
namespace HologramLive.Cluster
open Tables Std Rpc

def baseBackoffMillis : Nat := 15000

def normalizeEndpoint (endpoint : Str) : Str := endpoint.rdropWhile (· = '/')

-- `str::parse` into an IPv4 address. An IPv6 host carries its brackets, and no
-- address parses with them.
def parseOctet (text : Str) : Option Nat :=
  if text = [] ∨ 3 < text.length ∨ ¬text.all Char.isDigit ∨ (1 < text.length ∧ text.head? = some '0') then none
  else
    let n := Nat.ofDigitChars 10 text 0
    if n < 256 then some n else none
def loopbackAddress (host : Str) : Bool :=
  match (host.splitOn '.').mapM parseOctet with
  | some [first,_,_,_] => decide (first = 127)
  | _ => false

def validateClusterEndpoint (crates : ClusterCrates) (p2p : Bool) (endpoint : Str) : Except LiveError Unit :=
  match stripPrefix "iroh:".toList endpoint with
  | some rest =>
    if !p2p then .error (.config ("cluster endpoint ".toList ++ endpoint ++
      " is key-addressed (iroh) and requires a build with the `p2p` feature".toList))
    else match parseNodeId crates rest with
      | .error e => .error (.config ("invalid iroh cluster endpoint ".toList ++ endpoint ++ ": ".toList ++ e.message))
      | .ok _ => .ok ()
  | none => match crates.parseUrl endpoint with
    | .error e => .error (.config ("invalid cluster endpoint: ".toList ++ e))
    | .ok parsed => match parsed.hostStr with
      | none => .error (.config ("cluster endpoint has no host: ".toList ++ endpoint))
      | some host =>
        let loopback := host = "localhost".toList || loopbackAddress host
        if parsed.scheme ≠ "https".toList ∧ ¬(parsed.scheme = "http".toList ∧ loopback = true) then
          .error (.config ("cluster endpoint must use HTTPS unless it is loopback: ".toList ++ endpoint))
        else if parsed.path ≠ ['/'] ∨ parsed.query.isSome ∨ parsed.fragment.isSome ∨ parsed.username ≠ [] ∨
            parsed.password.isSome then
          .error (.config ("cluster endpoint must be a credential-free origin: ".toList ++ endpoint))
        else .ok ()

structure PeerState where
  isSeed : Bool
  failures : Nat
  nextAttemptMillis : Nat
  insertedMillis : Nat
  lastReplicatedMillis : Nat
deriving DecidableEq, Repr

structure PeerTable where
  peers : Table Str PeerState
  cursor : Nat

namespace PeerTable

def new (seeds : List Str) : PeerTable :=
  ⟨seeds.foldl (fun peers seed => peers.insert seed ⟨true,0,0,0,0⟩) ∅,0⟩

variable (table : PeerTable) (endpoint : Str)

def len : Nat := table.peers.size

def insert (table : PeerTable) (endpoint : Str) (nowMillis : Nat) : PeerTable :=
  match table.peers[endpoint]? with
  | some _ => table
  | none => {table with peers := table.peers.insert endpoint ⟨false,0,0,nowMillis,0⟩}

def seedOne (endpoint selfEndpoint : Str) (maxPeers nowMillis : Nat) : Bool × PeerTable :=
  if table.len ≥ maxPeers then (false,table)
  else
    let endpoint := normalizeEndpoint endpoint
    (true,if endpoint ≠ selfEndpoint then table.insert endpoint nowMillis else table)

def seedFromEndpoints (selfEndpoint : Str) (maxPeers nowMillis : Nat) : List Str → PeerTable → PeerTable
  | [],table => table
  | endpoint :: rest,table =>
    match table.seedOne endpoint selfEndpoint maxPeers nowMillis with
    | (false,table) => table
    | (true,table) => seedFromEndpoints selfEndpoint maxPeers nowMillis rest table

def seedFromDirectory (selfEndpoint : Str) (maxPeers nowMillis : Nat) : List NodeRecord → PeerTable → PeerTable
  | [],table => table
  | node :: rest,table =>
    if node.endpoint = [] then seedFromDirectory selfEndpoint maxPeers nowMillis rest table
    else match table.seedOne node.endpoint selfEndpoint maxPeers nowMillis with
      | (false,table) => table
      | (true,table) => seedFromDirectory selfEndpoint maxPeers nowMillis rest table

-- The next peers whose backoff has elapsed, from the cursor on and around. The
-- cursor moves on by the fanout, whichever of them were due.
def due (nowMillis fanout : Nat) : List Str × PeerTable :=
  let ordered := table.peers.toList
  if ordered = [] ∨ fanout = 0 then ([],table)
  else
    let start := table.cursor % ordered.length
    let scanned := ordered.drop start ++ ordered.take start
    (((scanned.filter fun row => row.2.nextAttemptMillis ≤ nowMillis).map (·.1)).take fanout,
      {table with cursor := (start + min ordered.length fanout) % ordered.length})

def modify (change : PeerState → PeerState) : PeerTable :=
  match table.peers[endpoint]? with
  | some state => {table with peers := table.peers.insert endpoint (change state)}
  | none => table

def recordSuccess : PeerTable :=
  table.modify endpoint fun state => {state with failures := 0,nextAttemptMillis := 0}

def recordFailure (nowMillis ceilingMillis : Nat) : PeerTable :=
  table.modify endpoint fun state =>
    let failures := min (state.failures + 1) u32Max
    let delay := min (saturated (baseBackoffMillis * 2 ^ min failures 12)) (max ceilingMillis baseBackoffMillis)
    {state with failures := failures,nextAttemptMillis := saturatingAdd nowMillis delay}

def replicationDue (nowMillis intervalMillis : Nat) : Bool :=
  match table.peers[endpoint]? with
  | some state => decide (nowMillis - state.lastReplicatedMillis ≥ intervalMillis)
  | none => true

def recordReplication (nowMillis : Nat) : PeerTable :=
  table.modify endpoint fun state => {state with lastReplicatedMillis := nowMillis}

def evict : PeerTable :=
  match table.peers[endpoint]? with
  | some state => if state.isSeed then table else {table with peers := table.peers.erase endpoint}
  | none => table

def evictNeverJoined (nowMillis ttlMillis : Nat) (joined : KeySet Str) : List Str × PeerTable :=
  let stale := (table.peers.toList.filter fun row =>
    !row.2.isSeed && decide (nowMillis - row.2.insertedMillis ≥ ttlMillis) && !joined.contains row.1).map (·.1)
  (stale,{table with peers := eraseKeys table.peers stale})

end PeerTable

structure LoopConfig where
  crates : ClusterCrates
  p2p : Bool
  selfNodeId : Str
  selfEndpoint : Str
  maxPeers : Nat
  configured : List Str

def LoopConfig.seeds (config : LoopConfig) : List Str :=
  (config.configured.map normalizeEndpoint).filter (· ≠ config.selfEndpoint)

def learn (config : LoopConfig) (nowMillis : Nat) : List NodeRecord → PeerTable → PeerTable
  | [],table => table
  | peer :: rest,table =>
    if table.len ≥ config.maxPeers then table
    else if peer.nodeId = config.selfNodeId ∨ peer.endpoint = [] then learn config nowMillis rest table
    else match validateClusterEndpoint config.crates config.p2p peer.endpoint with
      | .error _ => learn config nowMillis rest table
      | .ok _ =>
        let endpoint := normalizeEndpoint peer.endpoint
        learn config nowMillis rest (if endpoint ≠ config.selfEndpoint then table.insert endpoint nowMillis else table)

variable (before after : List NodeRecord)

-- Endpoints whose record did not survive pruning and that no surviving record claims.
def pruneEvictions : List Str :=
  ((before.filter fun node => after.all fun kept => kept.nodeId ≠ node.nodeId).map fun node =>
    normalizeEndpoint node.endpoint).filter fun endpoint => after.all fun kept => normalizeEndpoint kept.endpoint ≠ endpoint

def dropDialled (dialled : KeySet Str) (endpoint : Str) : KeySet Str × Bool :=
  (dialled.erase endpoint,dialled.contains endpoint)

def evictPruned (table : PeerTable) (dialled : KeySet Str) : PeerTable × KeySet Str × Bool :=
  (pruneEvictions before after).foldl (fun state endpoint =>
    let (dialled,removed) := dropDialled state.2.1 endpoint
    (state.1.evict endpoint,dialled,state.2.2 || removed)) (table,dialled,false)

def evictNeverJoined (nodes : List NodeRecord) (nowMillis ttlMillis : Nat) (table : PeerTable) (dialled : KeySet Str) :
    PeerTable × KeySet Str × Bool :=
  let (stale,table) := table.evictNeverJoined nowMillis ttlMillis (collect (nodes.map fun node => normalizeEndpoint node.endpoint))
  (table,stale.foldl (fun state endpoint =>
    let (dialled,removed) := dropDialled state.1 endpoint
    (dialled,state.2 || removed)) (dialled,false))

end HologramLive.Cluster
