import HologramLive.Holo.Types
namespace HologramLive.Rpc

inductive OperationKind where
  | read
  | mutation
  | stream
deriving DecidableEq, Repr

structure OperationInfo where
  id : Str
  kind : OperationKind
  fallbackSafeBeforeDispatch : Bool
deriving DecidableEq, Repr

structure ModuleInfo where
  id : Str
  name : Str
  version : Str
  state : Str
  dependencies : List Str
  operations : List Str
deriving DecidableEq, Repr

-- A number that the conversions do not narrow is a `Nat`.
structure CapabilityManifest where
  protocolVersion : UInt16
  serverVersion : Str
  serverId : Str
  role : Str
  operations : List OperationInfo
  modules : List ModuleInfo
  maximumMessageBytes : Nat
deriving DecidableEq, Repr

structure HealthResponse where
  status : Str
  version : Str
  role : Str
  modulesReady : USize
deriving DecidableEq, Repr

structure ObjectMetadata where
  id : Str
  kind : Str
  mediaType : Str
  filename : Option Str
  size : Nat
  createdAtMillis : Nat
deriving DecidableEq, Repr

structure ObjectQuery where
  kind : Option Str
  mediaType : Option Str
  filenameContains : Option Str
  minSize : Option Nat
  maxSize : Option Nat
  createdAfterMillis : Option Nat
  createdBeforeMillis : Option Nat
  limit : Nat
  cursor : Option Str
deriving DecidableEq, Repr

structure ObjectPage where
  objects : List ObjectMetadata
  nextCursor : Option Str
  truncated : Bool
deriving DecidableEq, Repr

structure ObjectContent where
  metadata : ObjectMetadata
  bytes : Bytes
deriving DecidableEq, Repr

structure HoloSection where
  kind : Str
  offset : Nat
  length : Nat
deriving DecidableEq, Repr

structure HoloInspection where
  kappa : Kappa
  applicationKappa : Option Kappa
  name : Str
  formatVersion : UInt16
  byteLength : Nat
  archiveFingerprint : Str
  footerVerified : Bool
  sections : List HoloSection
  directory : Option HoloDirectory
  directoryEmbedded : Bool
deriving DecidableEq, Repr

structure HoloPlanObject where
  kappa : Kappa
  resolutionSource : Option Str
  byteLength : Option Nat
deriving DecidableEq, Repr

structure HoloPlanProvider where
  status : Str
  name : Option Str
  reason : Option Str
deriving DecidableEq, Repr

structure HoloPlanLayer where
  position : Nat
  kind : Str
  contentKappa : Kappa
  entry : Str
  contract : Option Str
  architecture : Option Str
  surface : Option Str
  engine : Option Str
  primary : Bool
  resolutionSource : Option Str
  byteLength : Option Nat
  provider : HoloPlanProvider
deriving DecidableEq, Repr

structure HoloPlanLimits where
  maxLayers : Nat
  maxApplications : Nat
  maxDepth : Nat
  maxObjects : Nat
  maxResolvedBytes : Nat
deriving DecidableEq, Repr

structure HoloPlanBlocker where
  kind : Str
  errorCode : Str
  message : Str
deriving DecidableEq, Repr

structure HoloPlan where
  archiveKappa : Kappa
  archiveFingerprint : Str
  applicationKappa : Kappa
  executionTarget : Str
  packaging : Str
  primaryLayer : Option Nat
  capabilities : HoloPlanObject
  layers : List HoloPlanLayer
  children : List HoloChild
  resolvedObjectCount : Nat
  resolvedBytes : Nat
  applicationCount : Nat
  maxDepth : Nat
  limits : HoloPlanLimits
  runnable : Bool
  blockers : List HoloPlanBlocker
deriving DecidableEq, Repr

structure ResidentHolo where
  kappa : Kappa
  state : Str
  inputCount : USize
  outputCount : USize
  residentBytes : USize
  queued : USize
  processed : USize
  requestedCapabilitiesKappa : Kappa
  effectiveGrantKappa : Kappa
  grantSource : Str
  authorization : Str
deriving DecidableEq, Repr

inductive ApplicationCompletion where
  | returned
  | exited (code : Int)
deriving DecidableEq, Repr

structure HoloRunResult where
  kappa : Kappa
  outputs : List Bytes
  elapsedMicros : Nat
  residentBytes : USize
  completion : ApplicationCompletion
  requestedCapabilitiesKappa : Kappa
  effectiveGrantKappa : Kappa
  grantSource : Str
  authorization : Str
deriving DecidableEq, Repr

structure ConversationMessage where
  role : Str
  content : Str
  createdAtMillis : Nat
deriving DecidableEq, Repr

structure Conversation where
  id : Str
  title : Str
  createdAtMillis : Nat
  updatedAtMillis : Nat
  messages : List ConversationMessage
  archived : Bool
deriving DecidableEq, Repr

structure ModelInfo where
  id : Str
  name : Str
  engine : Str
  source : Str
  size : Nat
  createdAtMillis : Nat
deriving DecidableEq, Repr

structure NodeRecord where
  nodeId : Str
  version : Str
  operations : List Str
  endpoint : Str
  lastSeenMillis : Nat
deriving DecidableEq, Repr

structure PluginStatus where
  id : Str
  name : Str
  version : Str
  operations : List Str
  running : Bool
  restartCount : Nat
  lastError : Option Str
deriving DecidableEq, Repr

structure ApiError where
  code : Str
  message : Str
deriving DecidableEq, Repr

inductive RpcRequest where
  | handshake
  | health
  | shutdown
  | modulesList
  | tracingGet
  | tracingSet (filter : Str)
  | registryList
  | registryPut (kind mediaType : Str) (filename : Option Str) (bytes : Bytes)
  | registryGet (id : Str)
  | registrySearch (query : ObjectQuery)
  | filesList
  | filesPut (mediaType : Str) (filename : Option Str) (bytes : Bytes)
  | filesGet (id : Str)
  | filesRename (id filename : Str)
  | filesSearch (query : ObjectQuery)
  | holoImport (name : Str) (bytes : Bytes)
  | holoList
  | holoInspect (kappa : Kappa)
  | holoPlan (kappa : Kappa)
  | holoVerify (kappa : Kappa)
  | holoRemove (kappa : Kappa)
  | holoLoad (kappa : Kappa)
  | holoUnload (kappa : Kappa)
  | holoRun (kappa : Kappa) (inputs : List Bytes)
  | holoResident
  | historyCreate (title : Str)
  | historyList (includeArchived : Bool)
  | historyGet (id : Str)
  | historyAppend (id role content : Str)
  | historyDelete (id : Str)
  | historyArchive (id : Str) (archived : Bool)
  | chatSend (id content : Str)
  | modelList
  | modelImport (path : Str)
  | modelRemove (id : Str)
  | nodesList
  | nodeHeartbeat (node : NodeRecord)
  | pluginList
  | pluginCall (pluginId operation payload : Str)
deriving DecidableEq, Repr

namespace RpcRequest

def operation : RpcRequest → Str
  | .handshake => "system.handshake".toList
  | .health => "system.health".toList
  | .shutdown => "system.shutdown".toList
  | .modulesList => "modules.list".toList
  | .tracingGet => "tracing.get".toList
  | .tracingSet _ => "tracing.set".toList
  | .registryList => "registry.list".toList
  | .registryPut .. => "registry.put".toList
  | .registryGet _ => "registry.get".toList
  | .registrySearch _ => "registry.search".toList
  | .filesList => "files.list".toList
  | .filesPut .. => "files.put".toList
  | .filesGet _ => "files.get".toList
  | .filesRename .. => "files.rename".toList
  | .filesSearch _ => "files.search".toList
  | .holoImport .. => "holo.import".toList
  | .holoList => "holo.list".toList
  | .holoInspect _ => "holo.inspect".toList
  | .holoPlan _ => "holo.plan".toList
  | .holoVerify _ => "holo.verify".toList
  | .holoRemove _ => "holo.remove".toList
  | .holoLoad _ => "holo.load".toList
  | .holoUnload _ => "holo.unload".toList
  | .holoRun .. => "holo.run".toList
  | .holoResident => "holo.resident".toList
  | .historyCreate _ => "history.create".toList
  | .historyList _ => "history.list".toList
  | .historyGet _ => "history.get".toList
  | .historyAppend .. => "history.append".toList
  | .historyDelete _ => "history.delete".toList
  | .historyArchive .. => "history.archive".toList
  | .chatSend .. => "chat.send".toList
  | .modelList => "model.list".toList
  | .modelImport _ => "model.import".toList
  | .modelRemove _ => "model.remove".toList
  | .nodesList => "nodes.list".toList
  | .nodeHeartbeat _ => "nodes.heartbeat".toList
  | .pluginList => "plugin.list".toList
  | .pluginCall .. => "plugin.call".toList

def kind : RpcRequest → OperationKind
  | .handshake | .health | .modulesList | .tracingGet | .registryList | .registryGet _ | .registrySearch _
  | .filesSearch _ | .filesList | .filesGet _ | .holoList | .holoInspect _ | .holoPlan _ | .holoVerify _
  | .holoResident | .historyList _ | .historyGet _ | .modelList | .nodesList | .pluginList => .read
  | .holoRun .. => .stream
  | _ => .mutation

end RpcRequest

inductive RpcResponse where
  | capabilityManifest (manifest : CapabilityManifest)
  | health (health : HealthResponse)
  | modules (items : List ModuleInfo)
  | objects (items : List ObjectMetadata)
  | objectPage (page : ObjectPage)
  | object (metadata : ObjectMetadata)
  | objectContent (content : ObjectContent)
  | holoInspection (inspection : HoloInspection)
  | holoPlan (plan : HoloPlan)
  | holoList (items : List HoloInspection)
  | holoResident (items : List ResidentHolo)
  | holoRun (result : HoloRunResult)
  | conversation (conversation : Conversation)
  | conversations (items : List Conversation)
  | model (model : ModelInfo)
  | models (items : List ModelInfo)
  | nodes (items : List NodeRecord)
  | pluginResult (json : Str)
  | plugins (items : List PluginStatus)
  | tracingFilter (filter : Str)
  | accepted
  | error (error : ApiError)
deriving DecidableEq, Repr

end HologramLive.Rpc

namespace HologramLive

def LiveError.code : LiveError → Str
  | .io _ => "LIVE_IO".toList
  | .config _ => "LIVE_CONFIG_INVALID".toList
  | .protocol _ => "LIVE_PROTOCOL_ERROR".toList
  | .transport _ => "LIVE_TRANSPORT_UNAVAILABLE".toList
  | .authentication _ => "LIVE_AUTHENTICATION_FAILED".toList
  | .authorization _ => "LIVE_AUTHORIZATION_DENIED".toList
  | .capability _ => "LIVE_CAPABILITY_MISSING".toList
  | .notFound _ => "LIVE_NOT_FOUND".toList
  | .conflict _ => "LIVE_CONFLICT".toList
  | .invalidHolo _ => "LIVE_HOLO_INVALID".toList
  | .unknownCommitState _ => "LIVE_UNKNOWN_COMMIT_STATE".toList

namespace Rpc.ApiError

def ofLiveError (error : LiveError) : ApiError := ⟨error.code,error.message⟩

def toLiveError (error : ApiError) : LiveError :=
  if error.code = "LIVE_AUTHENTICATION_FAILED".toList then .authentication error.message
  else if error.code = "LIVE_AUTHORIZATION_DENIED".toList then .authorization error.message
  else if error.code = "LIVE_CAPABILITY_MISSING".toList then .capability error.message
  else if error.code = "LIVE_NOT_FOUND".toList then .notFound error.message
  else if error.code = "LIVE_CONFLICT".toList then .conflict error.message
  else if error.code = "LIVE_HOLO_INVALID".toList then .invalidHolo error.message
  else if error.code = "LIVE_UNKNOWN_COMMIT_STATE".toList then .unknownCommitState error.message
  else .protocol (error.code ++ ": ".toList ++ error.message)

end Rpc.ApiError
end HologramLive
