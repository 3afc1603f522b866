import HologramLive.Rpc.Protocol
import HologramLive.Lib.Runs
namespace HologramLive.Plugins
open Tables Runs Rpc List

structure PluginOperation where
  id : Str
  kind : Int
deriving DecidableEq, Repr

structure PluginDescriptor where
  id : Str
  name : Str
  version : Str
  operations : List PluginOperation
  minProtocol : Nat
deriving DecidableEq, Repr

variable (descriptor : PluginDescriptor)

def PluginDescriptor.ids : List Str := descriptor.operations.map (·.id)

def operationKind (kind : Int) : OperationKind :=
  if kind = 1 then .read else if kind = 3 then .stream else .mutation

def protocolVersion : Nat := 1

-- What a start meets: the executable does not come up to the point where it
-- describes itself, or it does and is pinged.
inductive Launch where
  | refused (error : LiveError)
  | described (descriptor : PluginDescriptor) (ping : Option LiveError)
deriving DecidableEq, Repr

def startVerified (expectedId : Str) : Launch → Except LiveError PluginDescriptor
  | .refused error => .error error
  | .described descriptor ping =>
    if descriptor.id ≠ expectedId then
      .error (.protocol ("plugin handshook as ".toList ++ descriptor.id ++ " but the allowlist expects ".toList ++ expectedId))
    else if protocolVersion < descriptor.minProtocol then
      .error (.capability ("plugin ".toList ++ expectedId ++ " requires protocol v".toList ++ decimal descriptor.minProtocol ++
        " but this server speaks v".toList ++ decimal protocolVersion))
    else match ping with
      | some error => .error error
      | none => .ok descriptor

-- The client's process is known by the descriptor of its own handshake; the last
-- handshake of all outlives the process.
structure PluginSupervisor where
  client : Option PluginDescriptor
  described : Option PluginDescriptor
  restartCount : Nat
deriving DecidableEq, Repr

def PluginSupervisor.new : PluginSupervisor := ⟨none,none,0⟩

def PluginSupervisor.start (s : PluginSupervisor) (id : Str) (launch : Launch) : Except LiveError PluginDescriptor × PluginSupervisor :=
  match startVerified id launch with
  | .ok descriptor => (.ok descriptor,{s with client := some descriptor, described := some descriptor})
  | .error error => (.error error,{s with client := none})

def PluginSupervisor.connected (s : PluginSupervisor) (id : Str) (launch : Launch) :
    Except LiveError PluginDescriptor × PluginSupervisor :=
  match s.client with
  | some process => (.ok process,s)
  | none => s.start id launch

inductive Code where
  | unavailable
  | unknown
  | unimplemented
  | notFound
  | invalidArgument
  | other
deriving DecidableEq, Repr

-- A response of the plugin, or the status of a call that failed.
inductive Reply where
  | response (result : Except LiveError Str)
  | status (code : Code) (message : Str)

def restartable (code : Code) : Bool := code = .unavailable || code = .unknown

def statusError (code : Code) (message : Str) : LiveError :=
  match code with
  | .unimplemented => .capability message
  | .notFound => .notFound message
  | .invalidArgument => .protocol message
  | _ => .transport ("plugin transport failure: ".toList ++ message)

def maxRestarts : Nat := 3

structure Invoked where
  result : Except LiveError Str
  supervisor : PluginSupervisor
  sent : List PluginDescriptor

-- The loop of the `Invoke` handler, by the restarts that are left. The n-th
-- attempt meets the n-th launch and the n-th reply.
def attempt (id : Str) (launches : Nat → Launch) (replies : Nat → Reply) : Nat → PluginSupervisor → Invoked
  | left,s =>
    match s.connected id (launches (maxRestarts-left)) with
    | (.error error,s) => ⟨.error error,s,[]⟩
    | (.ok process,s) => match replies (maxRestarts-left) with
      | .response result => ⟨result,s,[process]⟩
      | .status code message => match left with
        | left+1 =>
          if restartable code then
            let rest := attempt id launches replies left {s with client := none, restartCount := s.restartCount+1}
            ⟨rest.result,rest.supervisor,process :: rest.sent⟩
          else ⟨.error (statusError code message),s,[process]⟩
        | 0 => ⟨.error (statusError code message),s,[process]⟩

structure PluginEntry where
  id : Str
  name : Str
  version : Str
  operations : List (Str × OperationKind)
  startError : Option LiveError
deriving DecidableEq, Repr

def PluginEntry.ids (entry : PluginEntry) : List Str := entry.operations.map (·.1)

structure PluginRegistry where
  entries : List PluginEntry
  operations : Table Str OperationKind

variable (registry : PluginRegistry)

def PluginRegistry.add (id : Str) : Except LiveError PluginDescriptor → PluginRegistry
  | .ok descriptor => {
    entries := registry.entries ++ [⟨id,descriptor.name,descriptor.version,
      descriptor.operations.map fun operation => (operation.id,operationKind operation.kind),none⟩]
    operations := descriptor.operations.foldl (fun table operation => table.insert operation.id (operationKind operation.kind))
      registry.operations}
  | .error error => {registry with entries := registry.entries ++ [⟨id,[],[],[],some error⟩]}

def PluginRegistry.operationInfos : List OperationInfo :=
  registry.operations.toList.map fun row => ⟨row.1,row.2,row.2 = .read⟩
def PluginRegistry.info : List ModuleInfo :=
  registry.entries.map fun entry => ⟨entry.id,entry.name,entry.version,
    if entry.startError.isSome then "failed".toList else "ready".toList,[],entry.ids⟩

-- The registry with its supervisors, and every operation that was sent to a process.
structure Daemon where
  registry : PluginRegistry
  supervisors : Str → PluginSupervisor
  sent : List (PluginDescriptor × Str)

def Daemon.put (s : Daemon) (id : Str) (supervisor : PluginSupervisor) : Daemon :=
  {s with supervisors := fun other => if other = id then supervisor else s.supervisors other}

def Daemon.add (s : Daemon) (module : Str × Launch) : Daemon :=
  let (started,supervisor) := PluginSupervisor.new.start module.1 module.2
  {s.put module.1 supervisor with registry := s.registry.add module.1 started}

def build (enabled : Bool) (modules : List (Str × Launch)) : Daemon :=
  let empty : Daemon := ⟨⟨[],∅⟩,fun _ => .new,[]⟩
  if enabled then modules.foldl Daemon.add empty else empty

-- A call of `invoke`: the parse error of its payload, whether the supervisor's
-- mailbox takes it, and what the attempts meet.
structure Invocation where
  plugin : Str
  operation : Str
  invalid : Option Str
  mailbox : Option Str
  launches : Nat → Launch
  replies : Nat → Reply

def PluginRegistry.find (registry : PluginRegistry) (plugin : Str) : Option PluginEntry :=
  registry.entries.find? fun entry => entry.id = plugin

def Daemon.invoke (s : Daemon) (call : Invocation) : Except LiveError Str × Daemon :=
  match call.invalid with
  | some error => (.error (.protocol ("plugin.call payload must be valid JSON: ".toList ++ error)),s)
  | none => match s.registry.find call.plugin with
    | none => (.error (.capability ("plugin ".toList ++ call.plugin ++ " is not enabled on this server".toList)),s)
    | some entry =>
      if entry.operations ≠ [] ∧ call.operation ∉ entry.ids then
        (.error (.capability ("plugin ".toList ++ call.plugin ++ " does not provide operation ".toList ++ call.operation)),s)
      else match call.mailbox with
        | some error =>
          (.error (.transport ("plugin ".toList ++ call.plugin ++ " supervisor is unavailable: ".toList ++ error)),s)
        | none =>
          let invoked := attempt entry.id call.launches call.replies maxRestarts (s.supervisors entry.id)
          (invoked.result,{s.put entry.id invoked.supervisor with
            sent := s.sent ++ invoked.sent.map fun process => (process,call.operation)})

def act (s : Daemon) (call : Invocation) : Option Daemon := some (s.invoke call).2

def Start (s : Daemon) : Prop := ∃ enabled modules,(modules.map (·.1)).Nodup ∧ s = build enabled modules

def Declares (entry : PluginEntry) : Prop :=
  ∀ operation,operation ∈ descriptor.ids ↔ operation ∈ entry.ids

-- A plugin that is called has declared operations when the daemon started it, and
-- declares the same ones whenever it is started again; one of which no operations
-- are known has no process and does not start.
def Meets (s : Daemon) (call : Invocation) : Prop :=
  call.invalid = none → call.mailbox = none → ∀ entry,s.registry.find call.plugin = some entry →
    (entry.operations = [] →
      (s.supervisors entry.id).client = none ∧ ∀ descriptor,startVerified entry.id (call.launches 0) ≠ .ok descriptor) ∧
    (call.operation ∈ entry.ids →
      ∀ turn descriptor,startVerified entry.id (call.launches turn) = .ok descriptor → Declares descriptor entry)

section Supervision
variable {entry : PluginEntry} {s : PluginSupervisor} {id operation : Str} {launches : Nat → Launch} {replies : Nat → Reply}

open PluginSupervisor

theorem start_cases (s : PluginSupervisor) (id : Str) (launch : Launch) :
    (∃ descriptor,startVerified id launch = .ok descriptor ∧
      s.start id launch = (.ok descriptor,{s with client := some descriptor, described := some descriptor})) ∨
    (∃ error,startVerified id launch = .error error ∧ s.start id launch = (.error error,{s with client := none})) := by
  unfold PluginSupervisor.start
  cases startVerified id launch with
  | ok descriptor => exact .inl ⟨descriptor,rfl,rfl⟩
  | error error => exact .inr ⟨error,rfl,rfl⟩

-- What a supervisor knows of its plugin's processes, by the entry of the plugin.
structure Matches (entry : PluginEntry) (s : PluginSupervisor) : Prop where
  process : ∀ descriptor,s.client = some descriptor → s.described = some descriptor
  described : ∀ descriptor,s.described = some descriptor → Declares descriptor entry
  idle : s.described = none → entry.operations = []

theorem Matches.without (matched : Matches entry s) (restarts : Nat) :
    Matches entry {s with client := none, restartCount := restarts} :=
  ⟨fun _ held => (by cases held),matched.described,matched.idle⟩

theorem connected_matches (matched : Matches entry s)
    (same : ∀ descriptor,startVerified id launch = .ok descriptor → Declares descriptor entry) :
    Matches entry (s.connected id launch).2 ∧
      ∀ process,(s.connected id launch).1 = .ok process → Declares process entry := by
  unfold connected
  cases held : s.client with
  | some process =>
    refine ⟨matched,fun other ok => ?_⟩
    cases ok
    exact matched.described _ (matched.process _ held)
  | none =>
    obtain ⟨descriptor,verified,started⟩ | ⟨error,_,failed⟩ := start_cases s id launch
    · dsimp only
      rw [started]
      refine ⟨⟨fun _ held => held,fun other held => ?_,fun none => (by cases none)⟩,fun other ok => ?_⟩
      · cases held; exact same _ verified
      · cases ok; exact same _ verified
    · dsimp only
      rw [failed]
      exact ⟨matched.without _,fun _ ok => (by cases ok)⟩

-- By induction on the restarts that are left: every process that the loop comes
-- to declares what the entry does.
theorem attempt_matches (matched : Matches entry s) (declared : operation ∈ entry.ids)
    (same : ∀ turn descriptor,startVerified id (launches turn) = .ok descriptor → Declares descriptor entry) (left : Nat) :
    Matches entry (attempt id launches replies left s).supervisor ∧
      ∀ process ∈ (attempt id launches replies left s).sent,operation ∈ process.ids := by
  induction left generalizing s with
  | zero =>
    have reached := connected_matches matched (same (maxRestarts-0))
    unfold attempt
    generalize s.connected id (launches (maxRestarts-0)) = started at reached
    obtain ⟨started,after⟩ := started
    cases started with
    | error error => exact ⟨reached.1,fun _ member => (by cases member)⟩
    | ok process =>
      have one : ∀ other ∈ [process],operation ∈ other.ids := fun other member => by
        rw [mem_singleton.mp member]; exact (reached.2 _ rfl operation).mpr declared
      dsimp only
      cases replies (maxRestarts-0) with
      | response result => exact ⟨reached.1,one⟩
      | status code message => exact ⟨reached.1,one⟩
  | succ left ih =>
    have reached := connected_matches matched (same (maxRestarts-(left+1)))
    unfold attempt
    generalize s.connected id (launches (maxRestarts-(left+1))) = started at reached
    obtain ⟨started,after⟩ := started
    cases started with
    | error error => exact ⟨reached.1,fun _ member => (by cases member)⟩
    | ok process =>
      have declares := (reached.2 _ rfl operation).mpr declared
      have one : ∀ other ∈ [process],operation ∈ other.ids := fun other member => by
        rw [mem_singleton.mp member]; exact declares
      dsimp only
      cases replies (maxRestarts-(left+1)) with
      | response result => exact ⟨reached.1,one⟩
      | status code message =>
        dsimp only; split
        · have later := ih (reached.1.without (after.restartCount+1))
          refine ⟨later.1,fun other member => ?_⟩
          obtain rfl | rest := mem_cons.mp member
          · exact declares
          · exact later.2 other rest
        · exact ⟨reached.1,one⟩

theorem connected_restartCount (launch : Launch) : (s.connected id launch).2.restartCount = s.restartCount := by
  unfold connected
  cases s.client with
  | some process => rfl
  | none => obtain ⟨_,_,started⟩ | ⟨_,_,started⟩ := start_cases s id launch <;> (dsimp only; rw [started])

theorem attempt_restarts (left : Nat) :
    (attempt id launches replies left s).supervisor.restartCount ≤ s.restartCount+left ∧
      (attempt id launches replies left s).sent.length ≤ left+1 := by
  induction left generalizing s with
  | zero =>
    have counted := @connected_restartCount s id (launches (maxRestarts-0))
    unfold attempt
    generalize s.connected id (launches (maxRestarts-0)) = started at counted
    obtain ⟨started,after⟩ := started
    cases started with
    | error error => exact ⟨Nat.le_of_eq counted,Nat.zero_le _⟩
    | ok process =>
      dsimp only
      cases replies (maxRestarts-0) with
      | response result => exact ⟨Nat.le_of_eq counted,Nat.le_refl _⟩
      | status code message => exact ⟨Nat.le_of_eq counted,Nat.le_refl _⟩
  | succ left ih =>
    have counted : (s.connected id (launches (maxRestarts-(left+1)))).2.restartCount = s.restartCount :=
      connected_restartCount _
    unfold attempt
    generalize s.connected id (launches (maxRestarts-(left+1))) = started at counted
    obtain ⟨started,after⟩ := started
    dsimp only at counted
    have within : after.restartCount ≤ s.restartCount+(left+1) := by omega
    cases started with
    | error error => exact ⟨within,Nat.zero_le _⟩
    | ok process =>
      dsimp only
      cases replies (maxRestarts-(left+1)) with
      | response result => exact ⟨within,Nat.le_add_left 1 _⟩
      | status code message =>
        dsimp only; split
        · have later := @ih {after with client := none, restartCount := after.restartCount+1}
          dsimp only at later ⊢; rw [length_cons]
          omega
        · exact ⟨within,Nat.le_add_left 1 _⟩

theorem attempt_refused (client : s.client = none) {left : Nat}
    (refused : ∀ descriptor,startVerified id (launches (maxRestarts-left)) ≠ .ok descriptor) :
    (attempt id launches replies left s).supervisor = s ∧ (attempt id launches replies left s).sent = [] := by
  have failed : ∃ error,s.connected id (launches (maxRestarts-left)) = (.error error,s) := by
    unfold connected
    rw [client]
    obtain ⟨descriptor,verified,_⟩ | ⟨error,_,failed⟩ := start_cases s id (launches (maxRestarts-left))
    · exact absurd verified (refused descriptor)
    · refine ⟨error,failed.trans ?_⟩
      rw [← client]
  obtain ⟨error,failed⟩ := failed
  unfold attempt
  rw [failed]
  exact ⟨rfl,rfl⟩

end Supervision

section Registry
variable {s t : Daemon} {operation : Str}

theorem get_declared (operations : List PluginOperation) (table : Table Str OperationKind) :
    ((operations.foldl (fun table operation => table.insert operation.id (operationKind operation.kind)) table)[operation]?).isSome ↔
      operation ∈ operations.map (·.id) ∨ (table[operation]?).isSome := by
  induction operations generalizing table with
  | nil => simp
  | cons first rest ih =>
    rw [foldl_cons,ih,get_insert,map_cons,mem_cons]
    by_cases same : first.id = operation
    · rw [if_pos same]
      simp [same]
    · rw [if_neg same]
      have other : operation ≠ first.id := fun equal => same equal.symm
      simp only [other,false_or]

-- The invariant of the runs: an entry for every plugin, all operations of the
-- entries in the manifest, and only declared operations sent.
structure Settled (s : Daemon) : Prop where
  distinct : (s.registry.entries.map (·.id)).Nodup
  matched : ∀ entry ∈ s.registry.entries,Matches entry (s.supervisors entry.id)
  listed : ∀ operation,(s.registry.operations[operation]?).isSome ↔ ∃ entry ∈ s.registry.entries,operation ∈ entry.ids
  sent : ∀ process operation,(process,operation) ∈ s.sent → operation ∈ process.ids

theorem add_settled (settled : Settled s) (fresh : module.1 ∉ s.registry.entries.map (·.id)) :
    Settled (s.add module) ∧ (s.add module).registry.entries.map (·.id) = s.registry.entries.map (·.id) ++ [module.1] := by
  have kept (supervisor : PluginSupervisor) : ∀ entry ∈ s.registry.entries,
      Matches entry ((s.put module.1 supervisor).supervisors entry.id) := fun entry member => by
    have other : entry.id ≠ module.1 := fun same => fresh (same ▸ mem_map_of_mem member)
    exact (congrArg (Matches entry) (if_neg other)).mpr (settled.matched entry member)
  have distinct : (s.registry.entries.map (·.id) ++ [module.1]).Nodup := by
    refine nodup_append.mpr ⟨settled.distinct,nodup_singleton _,fun id member other one => ?_⟩
    rw [mem_singleton.mp one]
    exact fun same => fresh (same ▸ member)
  unfold Daemon.add
  obtain ⟨descriptor,_,started⟩ | ⟨error,_,failed⟩ := start_cases .new module.1 module.2
  · rw [started]
    let entry : PluginEntry := ⟨module.1,descriptor.name,descriptor.version,
      descriptor.operations.map fun operation => (operation.id,operationKind operation.kind),none⟩
    have ids : entry.ids = descriptor.ids := by
      show (descriptor.operations.map _).map _ = descriptor.operations.map _
      rw [map_map]
      rfl
    have grown : (s.registry.entries ++ [entry]).map (·.id) = s.registry.entries.map (·.id) ++ [module.1] := map_append
    refine ⟨⟨grown ▸ distinct,fun other member => ?_,fun operation => ?_,settled.sent⟩,grown⟩
    · obtain old | new := mem_append.mp member
      · exact kept _ other old
      · rw [mem_singleton.mp new]
        refine (congrArg (Matches entry) (if_pos rfl)).mpr ⟨fun _ held => held,fun other held => ?_,fun none => (by cases none)⟩
        cases held; intro operation
        rw [ids]
    · refine (get_declared descriptor.operations s.registry.operations).trans ?_
      rw [settled.listed operation]
      constructor
      · rintro (declared | ⟨entry,member,held⟩)
        · exact ⟨entry,mem_append_right _ (mem_singleton_self entry),by rw [ids]; exact declared⟩
        · exact ⟨entry,mem_append_left _ member,held⟩
      · rintro ⟨other,member,held⟩
        obtain old | new := mem_append.mp member
        · exact .inr ⟨other,old,held⟩
        · rw [mem_singleton.mp new,ids] at held; exact .inl held
  · rw [failed]
    let entry : PluginEntry := ⟨module.1,[],[],[],some error⟩
    have grown : (s.registry.entries ++ [entry]).map (·.id) = s.registry.entries.map (·.id) ++ [module.1] := map_append
    refine ⟨⟨grown ▸ distinct,fun other member => ?_,fun operation => ?_,settled.sent⟩,grown⟩
    · obtain old | new := mem_append.mp member
      · exact kept _ other old
      · rw [mem_singleton.mp new]
        exact (congrArg (Matches entry) (if_pos rfl)).mpr
          ⟨fun _ held => (by cases held),fun _ held => (by cases held),fun _ => rfl⟩
    · refine (settled.listed operation).trans ⟨fun ⟨other,member,held⟩ => ⟨other,mem_append_left _ member,held⟩,?_⟩
      rintro ⟨other,member,held⟩
      obtain old | new := mem_append.mp member
      · exact ⟨other,old,held⟩
      · rw [mem_singleton.mp new] at held; cases held

theorem build_settled (enabled : Bool) (distinct : (modules.map (·.1)).Nodup) : Settled (build enabled modules) := by
  have empty : Settled ⟨⟨[],∅⟩,fun _ => .new,[]⟩ :=
    ⟨nodup_nil,fun _ member => (by cases member),fun operation => (by simp),fun _ _ member => (by cases member)⟩
  have folded : ∀ (modules : List (Str × Launch)) (s : Daemon),Settled s →
      (s.registry.entries.map (·.id) ++ modules.map (·.1)).Nodup → Settled (modules.foldl Daemon.add s) := by
    intro modules
    induction modules with
    | nil => exact fun _ settled _ => settled
    | cons module rest ih =>
      intro s settled distinct
      have fresh : module.1 ∉ s.registry.entries.map (·.id) := fun member =>
        (nodup_append.mp distinct).2.2 _ member _ mem_cons_self rfl
      obtain ⟨added,ids⟩ := add_settled settled fresh
      refine ih (s.add module) added ?_
      rw [ids,append_assoc]
      exact distinct
  unfold build
  cases enabled with
  | true => exact folded modules _ empty distinct
  | false => exact empty

theorem find_mem (found : s.registry.find plugin = some entry) : entry ∈ s.registry.entries ∧ entry.id = plugin := by
  unfold PluginRegistry.find at found
  have named := find?_some found
  exact ⟨mem_of_find?_eq_some found,of_decide_eq_true named⟩

theorem put_settled (settled : Settled s) (member : entry ∈ s.registry.entries) (matched : Matches entry supervisor) {processes : List PluginDescriptor}
    (declared : ∀ process ∈ processes,operation ∈ process.ids) :
    Settled {s.put entry.id supervisor with sent := s.sent ++ processes.map fun process => (process,operation)} := by
  refine ⟨settled.distinct,fun other among => ?_,settled.listed,fun process operation sent => ?_⟩
  · by_cases same : other.id = entry.id
    · rw [inj_on_of_nodup_map settled.distinct among member same]
      exact (congrArg (Matches entry) (if_pos rfl)).mpr matched
    · exact (congrArg (Matches other) (if_neg same)).mpr (settled.matched other among)
  · obtain old | new := mem_append.mp sent
    · exact settled.sent _ _ old
    · obtain ⟨other,among,same⟩ := mem_map.mp new
      cases same
      exact declared _ among

theorem act_settled (settled : Settled s) {call : Invocation} (meets : Meets s call) (moved : act s call = some t) : Settled t := by
  cases moved
  unfold Daemon.invoke
  cases valid : call.invalid with
  | some error => exact settled
  | none => cases found : s.registry.find call.plugin with
    | none => exact settled
    | some entry =>
      dsimp only
      split
      · exact settled
      · rename_i provided
        cases taken : call.mailbox with
        | some error => exact settled
        | none =>
          obtain ⟨unknown,known⟩ := meets valid taken entry found
          have member := (find_mem found).1
          have matched := settled.matched entry member
          by_cases empty : entry.operations = []
          · obtain ⟨idle,refused⟩ := unknown empty
            have still := @attempt_refused (s.supervisors entry.id) entry.id call.launches call.replies idle maxRestarts refused
            refine put_settled settled member (by rw [still.1]; exact matched) fun process sent => ?_
            rw [still.2] at sent; cases sent
          · have declared : call.operation ∈ entry.ids := by
              by_contra missing
              exact provided ⟨empty,missing⟩
            have attempted := @attempt_matches _ _ _ _ _ call.replies matched declared (known declared) maxRestarts
            exact put_settled settled member attempted.1 attempted.2

-- In a run of such calls plugins receive declared operations only, the manifest
-- has exactly the operations that a plugin which can be called declares, and no
-- call restarts a plugin more often than it may.
theorem plugins_declared (reached : Reached Start (Taken act Meets) s) :
    (∀ process operation,(process,operation) ∈ s.sent → operation ∈ process.ids) ∧
    (∀ operation,operation ∈ s.registry.operationInfos.map (·.id) ↔ ∃ plugin entry descriptor,
      s.registry.find plugin = some entry ∧ (s.supervisors entry.id).described = some descriptor ∧
        operation ∈ descriptor.ids) ∧ ∀ (call : Invocation) (plugin : Str),
      ((s.invoke call).2.supervisors plugin).restartCount ≤ (s.supervisors plugin).restartCount+maxRestarts := by
  have settled : Settled s := by
    refine reached.invariant Settled (fun s begun => ?_) fun _ _ _ settled moved => ?_
    · obtain ⟨enabled,modules,distinct,rfl⟩ := begun
      exact build_settled enabled distinct
    · obtain ⟨call,meets,taken⟩ := moved
      exact act_settled settled meets taken
  refine ⟨settled.sent,fun operation => ?_,fun call plugin => ?_⟩
  · have among : operation ∈ s.registry.operationInfos.map (·.id) ↔ (s.registry.operations[operation]?).isSome := by
      unfold PluginRegistry.operationInfos
      rw [map_map,mem_map,Option.isSome_iff_exists]
      constructor
      · rintro ⟨⟨id,kind⟩,member,rfl⟩
        exact ⟨kind,mem_rows.mp member⟩
      · rintro ⟨kind,held⟩
        exact ⟨(operation,kind),mem_rows.mpr held,rfl⟩
    rw [among,settled.listed operation]
    constructor
    · rintro ⟨entry,member,declared⟩
      have matched := settled.matched entry member
      have found : s.registry.find entry.id = some entry := by
        unfold PluginRegistry.find
        cases found : s.registry.entries.find? fun other => other.id = entry.id with
        | none => exact absurd (find?_eq_none.mp found entry member) (by simp)
        | some other =>
          obtain ⟨among,same⟩ := find_mem found
          rw [inj_on_of_nodup_map settled.distinct among member same]
      cases described : (s.supervisors entry.id).described with
      | none => rw [PluginEntry.ids,matched.idle described] at declared; cases declared
      | some descriptor =>
        exact ⟨entry.id,entry,descriptor,found,described,(matched.described _ described operation).mpr declared⟩
    · rintro ⟨plugin,entry,descriptor,found,described,declared⟩
      have member := (find_mem found).1
      exact ⟨entry,member,((settled.matched entry member).described _ described operation).mp declared⟩
  · unfold Daemon.invoke
    cases call.invalid with
    | some error => exact Nat.le_add_right _ _
    | none => cases s.registry.find call.plugin with
      | none => exact Nat.le_add_right _ _
      | some entry =>
        dsimp only; split
        · exact Nat.le_add_right _ _
        · cases call.mailbox with
          | some error => exact Nat.le_add_right _ _
          | none =>
            dsimp only [Daemon.put]; split
            · rename_i same; rw [same]
              exact (attempt_restarts maxRestarts).1
            · exact Nat.le_add_right _ _

end Registry

def sampleDescriptor (operation : String) : PluginDescriptor :=
  ⟨"echo".toList,"Echo".toList,"1".toList,[⟨operation.toList,1⟩],1⟩

def sampleCall (operation : String) : Invocation :=
  ⟨"echo".toList,operation.toList,none,none,fun _ => .described (sampleDescriptor "echo.say") none,fun _ => .response (.ok [])⟩

theorem sample_distinct (launch : Launch) : ([("echo".toList,launch)].map (·.1)).Nodup := nodup_singleton _

-- A plugin that failed to start with the daemon gets any operation.
theorem undeclared_sent : ¬∀ s : Daemon,Reached Start (Taken act fun _ _ => True) s →
    ∀ process operation,(process,operation) ∈ s.sent → operation ∈ process.ids := by
  intro all
  have reached : Reached Start (Taken act fun _ _ => True) _ :=
    .step (.start ⟨true,_,sample_distinct (.refused (.io "spawn".toList)),rfl⟩) ⟨sampleCall "echo.delete",trivial,rfl⟩
  have declared := all _ reached (sampleDescriptor "echo.say") "echo.delete".toList mem_cons_self
  exact absurd declared (by decide)

theorem plugins_declared_sample : ∃ s : Daemon,(sampleDescriptor "echo.say","echo.say".toList) ∈ s.sent ∧
    ∀ process operation,(process,operation) ∈ s.sent → operation ∈ process.ids := by
  let begun := build true [("echo".toList,.described (sampleDescriptor "echo.say") none)]
  have entries : begun.registry.find "echo".toList =
      some ⟨"echo".toList,"Echo".toList,"1".toList,[("echo.say".toList,.read)],none⟩ := rfl
  have meets : Meets begun (sampleCall "echo.say") := by
    intro _ _ entry found
    cases entries.symm.trans found
    refine ⟨fun empty => (by cases empty),fun _ _ descriptor verified => ?_⟩
    cases verified
    exact fun _ => Iff.rfl
  have reached : Reached Start (Taken act Meets) _ :=
    .step (.start ⟨true,_,sample_distinct _,rfl⟩) ⟨sampleCall "echo.say",meets,rfl⟩
  exact ⟨_,mem_cons_self,(plugins_declared reached).1⟩

end HologramLive.Plugins
