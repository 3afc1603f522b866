import HologramLive.Cluster.Membership
import HologramLive.Cluster.Replication
namespace HologramLive.Cluster
open Tables Rpc

-- The records in memory, and those of the last write that went through.
structure NodeDirectory where
  nodes : Table Str NodeRecord
  file : Option (Table Str NodeRecord)

namespace NodeDirectory

def opened (file : Option (Table Str NodeRecord)) : NodeDirectory := ⟨file.getD ∅,file⟩

variable (directory : NodeDirectory)

def list : List NodeRecord := directory.nodes.toList.map (·.2)

def persist (nodes : Table Str NodeRecord) (fault : Option LiveError) : Except LiveError Unit × NodeDirectory :=
  match fault with
  | some e => (.error e,{directory with nodes := nodes})
  | none => (.ok (),⟨nodes,some nodes⟩)

def heartbeat (now : Nat) (fault : Option LiveError) (node : NodeRecord) : Except LiveError Unit × NodeDirectory :=
  directory.persist (directory.nodes.insert node.nodeId {node with lastSeenMillis := now}) fault

def pruneOlderThan (cutoffMillis : Nat) (preserveNodeId : Str) (fault : Option LiveError) :
    Except LiveError Nat × NodeDirectory :=
  let kept := directory.nodes.filter fun nodeId node => nodeId = preserveNodeId || cutoffMillis ≤ node.lastSeenMillis
  let removed := directory.nodes.size - kept.size
  if 0 < removed then
    match directory.persist kept fault with
    | (.error e,directory) => (.error e,directory)
    | (.ok _,directory) => (.ok removed,directory)
  else (.ok removed,{directory with nodes := kept})

end NodeDirectory

def validateNodeRecordShape (node : NodeRecord) : Except LiveError Unit :=
  if node.nodeId = [] ∨ 256 < (toUtf8 node.nodeId).length then
    .error (.protocol "cluster node_id must contain 1 to 256 bytes".toList)
  else if 128 < (toUtf8 node.version).length then .error (.protocol "cluster node version exceeds 128 bytes".toList)
  else if 1024 < node.operations.length ∨ node.operations.any (fun operation => 256 < (toUtf8 operation).length) then
    .error (.protocol "cluster node advertises invalid operations".toList)
  else .ok ()

def validateNodeRecord (crates : ClusterCrates) (p2p : Bool) (node : NodeRecord) : Except LiveError Unit := do
  validateNodeRecordShape node
  validateClusterEndpoint crates p2p node.endpoint

-- The operator signs nothing, and need not give an endpoint.
def validateOperatorNodeRecord (crates : ClusterCrates) (p2p : Bool) (node : NodeRecord) : Except LiveError Unit := do
  validateNodeRecordShape node
  if node.endpoint = [] then return
  validateClusterEndpoint crates p2p node.endpoint

structure ClusterJoinRequest where
  node : NodeRecord

structure ClusterJoinResponse where
  node : NodeRecord
  peers : List NodeRecord

-- What of a node stays over its restarts: its crates and build, its identity, what
-- it can do, and the readers of what peers send.
structure Runtime where
  crates : ClusterCrates
  p2p : Bool
  nodeId : Str
  version : Str
  operations : List Str
  decodeRequest : Bytes → Except Str ClusterJoinRequest
  decodeResponse : Bytes → Except Str ClusterJoinResponse

variable (runtime : Runtime)

def Runtime.localNodeRecord (endpoint : Str) (now : Nat) : NodeRecord :=
  ⟨runtime.nodeId,runtime.version,runtime.operations,endpoint,now⟩

def maxJoinBytes : Nat := 1024*1024
def joinPath : Str := "/api/v1/cluster/join".toList

-- A request to the join route, when it comes, and whether the pin file can be written.
structure JoinCall where
  now : Nat
  written : Bool
  headers : Headers
  body : Bytes

def JoinCall.request (call : JoinCall) : ProvenRequest := ⟨"POST".toList,joinPath,none,call.body⟩

def recordMatchesSigner (node : NodeRecord) (signer : Str) : Except LiveError Unit :=
  if node.nodeId ≠ signer then .error (.authentication "cluster node record does not match the signing identity".toList)
  else .ok ()

def joiningRecord (signer : Str) (body : Bytes) : Except LiveError NodeRecord := do
  let request ← (runtime.decodeRequest body).mapError LiveError.protocol
  validateNodeRecord runtime.crates runtime.p2p request.node
  recordMatchesSigner request.node signer
  return request.node

def joinCluster (authority : ClusterAuthority) (call : JoinCall) : Except LiveError NodeRecord × Admission :=
  if maxJoinBytes < call.body.length then
    (.error (.protocol ("cluster join request exceeds ".toList ++ decimal maxJoinBytes ++ " bytes".toList)),authority.admission)
  else match authority.endpoint with
    | none => (.error (.notFound "cluster membership is not enabled".toList),authority.admission)
    | some _ =>
      match authorizeProof runtime.crates call.now call.written authority call.headers call.request with
      | (.error e,admission) => (.error e,admission)
      | (.ok signer,admission) => (joiningRecord runtime signer call.body,admission)

def contactPeer (peer : Peer) (answer : Except LiveError ClusterResponse) : Except LiveError ClusterJoinResponse :=
  match peer.recipient with
  | none => .error (.config ("no cluster network can reach ".toList ++ peer.endpoint))
  | some recipient => do
    rejectSeparators "POST".toList joinPath none recipient
    let response ← answer
    if !response.isSuccess then
      .error (.transport ("join cluster peer ".toList ++ peer.endpoint ++ ": HTTP ".toList ++ decimal response.status))
    else if maxJoinBytes < response.body.length then
      .error (.protocol ("cluster peer ".toList ++ peer.endpoint ++ " response exceeds ".toList ++ decimal maxJoinBytes ++ " bytes".toList))
    else
      let reply ← (runtime.decodeResponse response.body).mapError fun e =>
        LiveError.protocol ("decode cluster peer ".toList ++ peer.endpoint ++ " response: ".toList ++ e)
      validateNodeRecord runtime.crates runtime.p2p reply.node
      return reply

-- A call that proves itself under the id of a record it carries, while the policy
-- admits that id.
structure Proven (runtime : Runtime) (authority : ClusterAuthority) (call : JoinCall) (node : NodeRecord) : Prop where
  authentic : Nonempty (Authentic runtime.crates call.now authority call.headers call.request node.nodeId)
  admitted : (authority.admission.authorize runtime.crates call.written node.nodeId
    ((call.headers.get ticketHeader).bind toStr)).1 = .admitted
  carried : ∃ request,runtime.decodeRequest call.body = .ok request ∧ request.node = node

variable {node : NodeRecord}

theorem joiningRecord_ok {runtime : Runtime} (read : joiningRecord runtime signer body = .ok node) :
    node.nodeId = signer ∧ ∃ request,runtime.decodeRequest body = .ok request ∧ request.node = node := by
  unfold joiningRecord at read
  obtain ⟨request,decoded,read⟩ := Fallible.bind_ok read
  obtain ⟨_,-,read⟩ := Fallible.bind_ok read
  obtain ⟨_,matched,read⟩ := Fallible.bind_ok read
  cases read
  refine ⟨?_,request,?_,rfl⟩
  · unfold recordMatchesSigner at matched
    split at matched
    · cases matched
    · rename_i same
      exact not_not.mp same
  · cases found : runtime.decodeRequest body with
    | error e => rw [found] at decoded; cases decoded
    | ok read =>
      rw [found] at decoded
      cases decoded
      rfl

theorem joinCluster_ok {runtime : Runtime} {authority : ClusterAuthority}
    (joined : joinCluster runtime authority call = (.ok node,after)) : Proven runtime authority call node := by
  unfold joinCluster at joined
  split at joined
  · cases joined
  · split at joined
    · cases joined
    · split at joined
      · cases joined
      · rename_i signer admission authorized
        obtain ⟨read,-⟩ := Prod.mk.inj joined
        obtain ⟨rfl,carried⟩ := joiningRecord_ok read
        obtain ⟨authentic,admitted⟩ := authorizeProof_ok authorized
        exact ⟨authentic,by rw [admitted],carried⟩

namespace NodeDirectory
variable {directory : NodeDirectory} {nodes : Table Str NodeRecord} {fault : Option LiveError} {k : Str} {record : NodeRecord}

def Holds (directory : NodeDirectory) (k : Str) (record : NodeRecord) : Prop :=
  directory.nodes[k]? = some record ∨ ∃ saved ∈ directory.file,saved[k]? = some record

theorem opened_holds {file : Option (Table Str NodeRecord)} (held : (opened file).Holds k record) :
    ∃ saved ∈ file,saved[k]? = some record := by
  rcases held with memory | saved
  · cases file with
    | none => cases memory
    | some saved => exact ⟨saved,rfl,memory⟩
  · exact saved

theorem persist_holds (held : (directory.persist nodes fault).2.Holds k record) :
    directory.Holds k record ∨ nodes[k]? = some record := by
  unfold persist at held
  split at held
  · rcases held with memory | saved
    · exact .inr memory
    · exact .inl (.inr saved)
  · rcases held with memory | ⟨saved,among,there⟩
    · exact .inr memory
    · cases among
      exact .inr there

theorem heartbeat_holds (held : (directory.heartbeat now fault node).2.Holds k record) :
    directory.Holds k record ∨ k = node.nodeId ∧ record = {node with lastSeenMillis := now} := by
  rcases persist_holds held with before | there
  · exact .inl before
  · rw [get_insert] at there
    split at there
    · rename_i same
      cases there
      exact .inr ⟨same.symm,rfl⟩
    · exact .inl (.inl there)

theorem prune_holds (held : (directory.pruneOlderThan cutoff preserved fault).2.Holds k record) :
    directory.Holds k record := by
  have among (there : (directory.nodes.filter fun nodeId node => nodeId = preserved || cutoff ≤ node.lastSeenMillis)[k]? = some record) :
      directory.Holds k record := by
    rw [Std.ExtTreeMap.getElem?_filter'] at there
    exact .inl (Option.filter_eq_some_iff.mp there).1
  unfold pruneOlderThan at held
  dsimp only at held
  split at held
  · have persisted : ∀ fault,(directory.persist (directory.nodes.filter fun nodeId node => nodeId = preserved || cutoff ≤ node.lastSeenMillis)
        fault).2.Holds k record → directory.Holds k record := fun fault held => (persist_holds held).elim id among
    split at held
    · rename_i wrote
      exact persisted fault (by rw [wrote]; exact held)
    · rename_i wrote
      exact persisted fault (by rw [wrote]; exact held)
  · rcases held with memory | saved
    · exact among memory
    · exact .inr saved

end NodeDirectory

end HologramLive.Cluster

namespace HologramLive.Cluster
open Tables Rpc

structure ClusterSettings where
  advertiseEndpoint : Option Str
  selfEndpoint : Str
  maxPeers : Nat
  seeds : List Str
  nodeTtlSecs : Nat
  replicationIntervalSecs : Nat

variable (settings : ClusterSettings)

def ClusterSettings.backoffCeilingMillis : Nat := saturated (settings.nodeTtlSecs*1000)
def ClusterSettings.replicationIntervalMillis : Nat := saturated (settings.replicationIntervalSecs*1000)

def Runtime.loopConfig (runtime : Runtime) (settings : ClusterSettings) : LoopConfig :=
  ⟨runtime.crates,runtime.p2p,runtime.nodeId,settings.selfEndpoint,settings.maxPeers,settings.seeds⟩

def loadDialled (runtime : Runtime) (settings : ClusterSettings) (file : KeySet Str) : KeySet Str :=
  collect (((file.toList.filter fun endpoint => (validateClusterEndpoint runtime.crates runtime.p2p endpoint).toOption.isSome).map
    normalizeEndpoint).filter fun endpoint => endpoint ≠ settings.selfEndpoint)

-- A node: its directory and policy, the joins that were let in and have not written
-- their record yet, those that have and not the local one, and what the loop has.
structure ClusterNode (σ : Type) where
  settings : ClusterSettings
  admission : Admission
  directory : NodeDirectory
  joining : List (NodeRecord × Str)
  answering : List Str
  table : PeerTable
  dialled : KeySet Str
  dialledFile : KeySet Str
  registry : σ

-- The instants of one answer in a round, whether the dial list can be written, and
-- how many pages the replication reads.
structure Exchange where
  roundStarted : Nat
  answered : Nat
  finished : Nat
  saved : Bool
  pages : Nat
  clock : Nat → Objects.Moment

inductive NodeAction where
  | join (call : JoinCall)
  | read (now : Nat) (written : Bool) (headers : Headers) (request : ProvenRequest)
  | record (i now : Nat) (fault : Option LiveError)
  | answer (i now : Nat) (fault : Option LiveError)
  | operator (node : NodeRecord) (now : Nat) (fault : Option LiveError)
  | heartbeat (now : Nat) (fault : Option LiveError)
  | seed (now : Nat)
  | contact (now fanout : Nat)
  | reply (peer : Peer) (answer : Except LiveError ClusterResponse) (exchange : Exchange)
  | prune (now : Nat) (fault : Option LiveError) (saved : Bool)
  | evictNeverJoined (now : Nat) (saved : Bool)
  | restart (settings : ClusterSettings) (admission : Admission) (now : Nat)

def NodeAction.isReply : NodeAction → Bool
  | .reply .. => true
  | _ => false

namespace ClusterNode
variable {σ : Type}

def start (runtime : Runtime) (settings : ClusterSettings) (admission : Admission) (file : Option (Table Str NodeRecord))
    (dialledFile : KeySet Str) (registry : σ) (now : Nat) : ClusterNode σ :=
  let directory := NodeDirectory.opened file
  let dialled := loadDialled runtime settings dialledFile
  let table := PeerTable.new (runtime.loopConfig settings).seeds
  let table := PeerTable.seedFromDirectory settings.selfEndpoint settings.maxPeers now directory.list table
  let table := PeerTable.seedFromEndpoints settings.selfEndpoint settings.maxPeers now dialled.toList table
  ⟨settings,admission,directory,[],[],table,dialled,dialledFile,registry⟩

section Steps
variable (runtime : Runtime) (replicator : Replicator σ) (node : ClusterNode σ)

def authority : ClusterAuthority := ⟨runtime.nodeId,node.settings.advertiseEndpoint,node.admission⟩

def storeDialled (saved : Bool) : ClusterNode σ := if saved then {node with dialledFile := node.dialled} else node

def joinedBy (call : JoinCall) : ClusterNode σ :=
  match joinCluster runtime (node.authority runtime) call with
  | (.error _,admission) => {node with admission := admission}
  | (.ok joining,admission) => {node with
      admission := admission
      joining := node.joining ++ [(joining,normalizeEndpoint (node.settings.advertiseEndpoint.getD []))]}

def recorded (i now : Nat) (fault : Option LiveError) : ClusterNode σ :=
  match node.joining[i]? with
  | none => node
  | some (joining,endpoint) =>
    match node.directory.heartbeat now fault joining with
    | (.error _,directory) => {node with directory := directory,joining := node.joining.eraseIdx i}
    | (.ok _,directory) => {node with
        directory := directory
        joining := node.joining.eraseIdx i
        answering := node.answering ++ [endpoint]}

def answered (i now : Nat) (fault : Option LiveError) : ClusterNode σ :=
  match node.answering[i]? with
  | none => node
  | some endpoint => {node with
      directory := (node.directory.heartbeat now fault (runtime.localNodeRecord endpoint now)).2
      answering := node.answering.eraseIdx i}

def operated (given : NodeRecord) (now : Nat) (fault : Option LiveError) : ClusterNode σ :=
  match validateOperatorNodeRecord runtime.crates runtime.p2p given with
  | .error _ => node
  | .ok _ => {node with directory := (node.directory.heartbeat now fault given).2}

def replied (peer : Peer) (answer : Except LiveError ClusterResponse) (exchange : Exchange) : ClusterNode σ :=
  match contactPeer runtime peer answer with
  | .error _ => {node with
      table := node.table.recordFailure peer.endpoint exchange.finished node.settings.backoffCeilingMillis}
  | .ok response =>
    let node := {node with table := node.table.recordSuccess peer.endpoint}
    let node :=
      if node.dialled.size < node.settings.maxPeers ∧ peer.endpoint ∉ node.dialled then
        {node with dialled := node.dialled.insert peer.endpoint}.storeDialled exchange.saved
      else node
    let node :=
      if node.table.replicationDue peer.endpoint exchange.answered node.settings.replicationIntervalMillis then {node with
        registry := match replicatePeer replicator peer exchange.clock exchange.pages node.registry with
          | some (_,registry) => registry
          | none => node.registry
        table := node.table.recordReplication peer.endpoint exchange.finished}
      else node
    {node with table := learn (runtime.loopConfig node.settings) exchange.roundStarted response.peers node.table}

def pruned (now : Nat) (fault : Option LiveError) (saved : Bool) : ClusterNode σ :=
  match node.directory.pruneOlderThan (now - node.settings.backoffCeilingMillis) runtime.nodeId fault with
  | (.error _,directory) => {node with directory := directory}
  | (.ok removed,directory) =>
    if removed = 0 then {node with directory := directory}
    else
      let (table,dialled,changed) := evictPruned node.directory.list directory.list node.table node.dialled
      let node := {node with directory := directory,table := table,dialled := dialled}
      if changed then node.storeDialled saved else node

def evicted (now : Nat) (saved : Bool) : ClusterNode σ :=
  let (table,dialled,changed) := Cluster.evictNeverJoined node.directory.list now (saturated (node.settings.backoffCeilingMillis*2))
    node.table node.dialled
  let node := {node with table := table,dialled := dialled}
  if changed then node.storeDialled saved else node

def step : NodeAction → ClusterNode σ
  | .join call => node.joinedBy runtime call
  | .read now written headers request => {node with
      admission := (authorizeProof runtime.crates now written (node.authority runtime) headers request).2}
  | .record i now fault => node.recorded i now fault
  | .answer i now fault => node.answered runtime i now fault
  | .operator given now fault => node.operated runtime given now fault
  | .heartbeat now fault => {node with
      directory := (node.directory.heartbeat now fault (runtime.localNodeRecord node.settings.selfEndpoint now)).2}
  | .seed now => {node with table :=
      PeerTable.seedFromDirectory node.settings.selfEndpoint node.settings.maxPeers now node.directory.list node.table}
  | .contact now fanout => {node with table := (node.table.due now fanout).2}
  | .reply peer answer exchange => node.replied runtime replicator peer answer exchange
  | .prune now fault saved => node.pruned runtime now fault saved
  | .evictNeverJoined now saved => node.evicted now saved
  | .restart settings admission now => start runtime settings admission node.directory.file node.dialledFile node.registry now

def run (actions : List NodeAction) : ClusterNode σ := actions.foldl (step runtime replicator) node

def core : ClusterSettings × Admission × NodeDirectory × List (NodeRecord × Str) × List Str :=
  (node.settings,node.admission,node.directory,node.joining,node.answering)

def Wrote (k : Str) (record : NodeRecord) : NodeAction → Prop
  | .join call => ∃ joining,Proven runtime (node.authority runtime) call joining ∧ joining.nodeId = k ∧
      ∃ millis,record = {joining with lastSeenMillis := millis}
  | .operator given now _ => given.nodeId = k ∧ record = {given with lastSeenMillis := now}
  | _ => False

end Steps

section Origins
variable {runtime : Runtime} {replicator : Replicator σ} {node : ClusterNode σ} {action : NodeAction} {k : Str} {record : NodeRecord}

theorem core_parts {other : ClusterNode σ} (same : node.core = other.core) :
    node.directory = other.directory ∧ node.joining = other.joining :=
  ⟨congrArg (·.2.2.1) same,congrArg (·.2.2.2.1) same⟩

theorem storeDialled_core (saved : Bool) : (node.storeDialled saved).core = node.core := by
  unfold storeDialled
  split <;> rfl

theorem replied_core (peer : Peer) (answer : Except LiveError ClusterResponse) (exchange : Exchange) :
    (node.replied runtime replicator peer answer exchange).core = node.core := by
  unfold replied storeDialled
  split
  · rfl
  · dsimp only
    (repeat' split) <;> rfl

theorem evicted_core (now : Nat) (saved : Bool) : (node.evicted now saved).core = node.core := by
  unfold evicted
  dsimp only
  split
  · exact storeDialled_core saved
  · rfl

theorem pruned_core (now : Nat) (fault : Option LiveError) (saved : Bool) : (node.pruned runtime now fault saved).core =
    {node with directory :=
      (node.directory.pruneOlderThan (now - node.settings.backoffCeilingMillis) runtime.nodeId fault).2}.core := by
  unfold pruned
  split
  · rename_i wrote
    rw [wrote]
  · rename_i wrote
    rw [wrote]
    split
    · rfl
    · dsimp only
      split
      · exact storeDialled_core saved
      · rfl

theorem joinedBy_directory (call : JoinCall) : (node.joinedBy runtime call).directory = node.directory := by
  unfold joinedBy
  split <;> rfl

variable {fault : Option LiveError}

open NodeDirectory

theorem recorded_holds (held : (node.recorded i now fault).directory.Holds k record) : node.directory.Holds k record ∨
      ∃ joining ∈ node.joining,k = joining.1.nodeId ∧ record = {joining.1 with lastSeenMillis := now} := by
  unfold recorded at held
  split at held
  · exact .inl held
  · rename_i joining endpoint found
    have beat : (node.directory.heartbeat now fault joining).2.Holds k record := by
      split at held
      · rename_i wrote; rw [wrote]
        exact held
      · rename_i wrote; rw [wrote]
        exact held
    rcases heartbeat_holds beat with before | ⟨same,written⟩
    · exact .inl before
    · exact .inr ⟨_,List.mem_of_getElem? found,same,written⟩

theorem own_holds
    (held : (node.directory.heartbeat now fault (runtime.localNodeRecord endpoint stored)).2.Holds k record) :
    node.directory.Holds k record ∨ k = runtime.nodeId ∧ record.nodeId = runtime.nodeId := by
  rcases heartbeat_holds held with before | ⟨rfl,rfl⟩
  · exact .inl before
  · exact .inr ⟨rfl,rfl⟩

theorem answered_holds (held : (node.answered runtime i now fault).directory.Holds k record) :
    node.directory.Holds k record ∨ k = runtime.nodeId ∧ record.nodeId = runtime.nodeId := by
  unfold answered at held
  split at held
  · exact .inl held
  · exact own_holds held

theorem operated_holds (held : (node.operated runtime given now fault).directory.Holds k record) :
    node.directory.Holds k record ∨ given.nodeId = k ∧ record = {given with lastSeenMillis := now} := by
  unfold operated at held
  split at held
  · exact .inl held
  · exact (heartbeat_holds held).imp_right fun written => ⟨written.1.symm,written.2⟩

-- What a step leaves in the directory was there, is the node's own record, is of a
-- join that was let in, or is the operator's.
theorem step_holds (held : (node.step runtime replicator action).directory.Holds k record) :
    node.directory.Holds k record ∨ k = runtime.nodeId ∧ record.nodeId = runtime.nodeId ∨
      (∃ joining ∈ node.joining,k = joining.1.nodeId ∧ ∃ millis,record = {joining.1 with lastSeenMillis := millis}) ∨
      node.Wrote runtime k record action := by
  cases action with
  | join call => exact .inl (by rw [←joinedBy_directory call]; exact held)
  | read now written headers request => exact .inl held
  | record i now fault =>
    rcases recorded_holds held with before | ⟨joining,among,same,written⟩
    · exact .inl before
    · exact .inr (.inr (.inl ⟨joining,among,same,now,written⟩))
  | answer i now fault => exact (answered_holds held).imp_right .inl
  | operator given now fault => exact (operated_holds held).imp_right fun written => .inr (.inr written)
  | heartbeat now fault => exact (own_holds held).imp_right .inl
  | seed now => exact .inl held
  | contact now fanout => exact .inl held
  | reply peer answer exchange => exact .inl (by rw [←(core_parts (replied_core peer answer exchange)).1]; exact held)
  | prune now fault saved =>
    change (node.pruned runtime now fault saved).directory.Holds k record at held
    rw [(core_parts (pruned_core now fault saved)).1] at held
    exact .inl (prune_holds held)
  | evictNeverJoined now saved => exact .inl (by rw [←(core_parts (evicted_core now saved)).1]; exact held)
  | restart settings admission now =>
    obtain ⟨saved,among,there⟩ := opened_holds held
    exact .inl (.inr ⟨saved,among,there⟩)

-- A join that is let in proved itself in that step, under the policy of that state.
theorem step_joining {joining : NodeRecord × Str} (among : joining ∈ (node.step runtime replicator action).joining) :
    joining ∈ node.joining ∨ ∀ millis,node.Wrote runtime joining.1.nodeId {joining.1 with lastSeenMillis := millis} action := by
  cases action with
  | join call =>
    change joining ∈ (node.joinedBy runtime call).joining at among
    unfold joinedBy at among
    split at among
    · exact .inl among
    · rename_i record after joined
      rcases List.mem_append.mp among with before | new
      · exact .inl before
      · obtain rfl := List.mem_singleton.mp new
        exact .inr fun millis => ⟨record,joinCluster_ok joined,rfl,millis,rfl⟩
  | record i now fault =>
    change joining ∈ (node.recorded i now fault).joining at among
    unfold recorded at among
    split at among
    · exact .inl among
    · split at among <;> exact .inl (List.mem_of_mem_eraseIdx among)
  | answer i now fault =>
    change joining ∈ (node.answered runtime i now fault).joining at among
    unfold answered at among
    split at among <;> exact .inl among
  | operator given now fault =>
    change joining ∈ (node.operated runtime given now fault).joining at among
    unfold operated at among
    split at among <;> exact .inl among
  | reply peer answer exchange => exact .inl (by rw [←(core_parts (replied_core peer answer exchange)).2]; exact among)
  | prune now fault saved =>
    change joining ∈ (node.pruned runtime now fault saved).joining at among
    rw [(core_parts (pruned_core now fault saved)).2] at among
    exact .inl among
  | evictNeverJoined now saved => exact .inl (by rw [←(core_parts (evicted_core now saved)).2]; exact among)
  | restart settings admission now => cases among
  | read => exact .inl among
  | heartbeat => exact .inl among
  | seed => exact .inl among
  | contact => exact .inl among

theorem Wrote.named (wrote : node.Wrote runtime k record action) : record.nodeId = k := by
  cases action with
  | join call =>
    obtain ⟨joining,-,same,millis,rfl⟩ := wrote
    exact same
  | operator given now fault =>
    obtain ⟨same,rfl⟩ := wrote
    exact same
  | _ => cases wrote

end Origins

section Runs
variable (runtime : Runtime) (replicator : Replicator σ) (node : ClusterNode σ)

def Written (actions : List NodeAction) (k : Str) (record : NodeRecord) : Prop := ∃ before action later,
  actions = before ++ action :: later ∧ (node.run runtime replicator before).Wrote runtime k record action

-- Every record is accounted for, and so is that of every join that has been let in.
structure Accounted (actions : List NodeAction) : Prop where
  held : ∀ k record,(node.run runtime replicator actions).directory.Holds k record →
    record.nodeId = k ∧ (k = runtime.nodeId ∨ node.Written runtime replicator actions k record)
  joining : ∀ joining ∈ (node.run runtime replicator actions).joining,∀ millis,
    node.Written runtime replicator actions joining.1.nodeId {joining.1 with lastSeenMillis := millis}

variable {runtime} {replicator} {node} {k : Str} {record : NodeRecord} {actions : List NodeAction}

theorem run_snoc (actions : List NodeAction) (action : NodeAction) :
    node.run runtime replicator (actions ++ [action]) = (node.run runtime replicator actions).step runtime replicator action :=
  List.foldl_concat _ _ _ _

theorem Written.later (written : node.Written runtime replicator actions k record) (action : NodeAction) :
    node.Written runtime replicator (actions ++ [action]) k record := by
  obtain ⟨before,first,later,rfl,wrote⟩ := written
  exact ⟨before,first,later ++ [action],by rw [List.append_assoc,List.cons_append],wrote⟩

theorem Accounted.step (accounted : node.Accounted runtime replicator actions) (action : NodeAction) :
    node.Accounted runtime replicator (actions ++ [action]) := by
  have now {k : Str} {record : NodeRecord} (wrote : (node.run runtime replicator actions).Wrote runtime k record action) :
      node.Written runtime replicator (actions ++ [action]) k record := ⟨actions,action,[],rfl,wrote⟩
  constructor
  · intro k record held
    rw [run_snoc] at held
    rcases step_holds held with before | ⟨rfl,same⟩ | ⟨joining,among,rfl,millis,rfl⟩ | wrote
    · obtain ⟨named,origin⟩ := accounted.held k record before
      exact ⟨named,origin.imp_right (Written.later · action)⟩
    · exact ⟨same,.inl rfl⟩
    · exact ⟨rfl,.inr ((accounted.joining joining among millis).later action)⟩
    · exact ⟨wrote.named,.inr (now wrote)⟩
  · intro joining among millis
    rw [run_snoc] at among
    rcases step_joining among with before | wrote
    · exact (accounted.joining joining before millis).later action
    · exact now (wrote millis)

theorem accounted (admission : Admission) (dialledFile : KeySet Str) (registry : σ) (now : Nat)
    (actions : List NodeAction) :
    (start runtime settings admission none dialledFile registry now).Accounted runtime replicator actions := by
  induction actions using List.reverseRecOn with
  | nil =>
    refine ⟨fun k record held => ?_,fun joining among => by cases among⟩
    obtain ⟨saved,among,-⟩ := NodeDirectory.opened_holds held
    cases among
  | append_singleton actions action ih => exact ih.step action

variable {other : ClusterNode σ}

theorem step_core (same : node.core = other.core) (action : NodeAction) :
    (node.step runtime replicator action).core = (other.step runtime replicator action).core := by
  obtain ⟨settings,admission,directory,joining,answering,table,dialled,dialledFile,registry⟩ := node
  obtain ⟨_,_,_,_,_,table',dialled',dialledFile',registry'⟩ := other
  simp only [core,Prod.mk.injEq] at same
  obtain ⟨rfl,rfl,rfl,rfl,rfl⟩ := same
  cases action with
  | join call =>
    show (joinedBy runtime _ call).core = (joinedBy runtime _ call).core
    unfold joinedBy authority
    dsimp only
    split <;> rfl
  | record i now fault =>
    show (recorded _ i now fault).core = (recorded _ i now fault).core
    unfold recorded
    dsimp only
    split
    · rfl
    · split <;> rfl
  | answer i now fault =>
    show (answered runtime _ i now fault).core = (answered runtime _ i now fault).core
    unfold answered
    dsimp only
    split <;> rfl
  | operator given now fault =>
    show (operated runtime _ given now fault).core = (operated runtime _ given now fault).core
    unfold operated
    dsimp only
    split <;> rfl
  | reply peer answer exchange =>
    show (replied runtime replicator _ peer answer exchange).core = (replied runtime replicator _ peer answer exchange).core
    rw [replied_core,replied_core]
    rfl
  | prune now fault saved =>
    show (pruned runtime _ now fault saved).core = (pruned runtime _ now fault saved).core
    rw [pruned_core,pruned_core]
    rfl
  | evictNeverJoined now saved =>
    show (evicted _ now saved).core = (evicted _ now saved).core
    rw [evicted_core,evicted_core]
    rfl
  | _ => rfl

theorem run_core (same : node.core = other.core) (actions : List NodeAction) :
    (node.run runtime replicator actions).core =
      (other.run runtime replicator (actions.filter fun action => !action.isReply)).core := by
  induction actions generalizing node other with
  | nil => exact same
  | cons action rest ih =>
    rw [List.filter_cons]
    cases reply : action.isReply with
    | false => exact ih (step_core same action)
    | true =>
      cases action with
      | reply peer answer exchange => exact ih ((replied_core peer answer exchange).trans same)
      | _ => cases reply

end Runs

end ClusterNode

-- In every run from an empty directory, a record in memory or in the file is that of
-- its key, and is the node's own, or of a join that proved that key in a state whose
-- policy admitted it, or of the operator. Without the answers of peers the run
-- comes to the same directory.
theorem directory_provenance {σ : Type} (runtime : Runtime) (replicator : Replicator σ) (settings : ClusterSettings)
    (admission : Admission) (dialledFile : KeySet Str) (registry : σ) (now : Nat) (actions : List NodeAction) :
    (∀ k record,
      ((ClusterNode.start runtime settings admission none dialledFile registry now).run runtime replicator actions).directory.Holds k record →
      record.nodeId = k ∧ (k = runtime.nodeId ∨ ∃ before action later,actions = before ++ action :: later ∧
        ((ClusterNode.start runtime settings admission none dialledFile registry now).run runtime replicator before).Wrote
          runtime k record action)) ∧
    ((ClusterNode.start runtime settings admission none dialledFile registry now).run runtime replicator actions).directory =
      ((ClusterNode.start runtime settings admission none dialledFile registry now).run runtime replicator
        (actions.filter fun action => !action.isReply)).directory :=
  ⟨(ClusterNode.accounted settings admission dialledFile registry now actions).held,
    (ClusterNode.core_parts (ClusterNode.run_core rfl actions)).1⟩

end HologramLive.Cluster
