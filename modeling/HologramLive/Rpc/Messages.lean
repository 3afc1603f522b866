import HologramLive.Holo.Types
namespace HologramLive.Rpc.Pb

-- The generated message types. A field of a message type is absent or present;
-- an enumeration travels as its number.
structure IdRequest where
  id : Str
deriving DecidableEq, Repr

structure TracingSetRequest where
  filter : Str
deriving DecidableEq, Repr

structure HoloImportRequest where
  name : Str
  content : Bytes
deriving DecidableEq, Repr

structure HoloRunRequest where
  kappa : Str
  inputs : List Bytes
deriving DecidableEq, Repr

structure HistoryCreateRequest where
  title : Str
deriving DecidableEq, Repr

structure HistoryAppendRequest where
  id : Str
  role : Str
  content : Str
deriving DecidableEq, Repr

structure HistoryListRequest where
  includeArchived : Bool
deriving DecidableEq, Repr

structure HistoryArchiveRequest where
  id : Str
  archived : Bool
deriving DecidableEq, Repr

structure ChatSendRequest where
  id : Str
  content : Str
deriving DecidableEq, Repr

structure FileRenameRequest where
  id : Str
  filename : Str
deriving DecidableEq, Repr

structure ModelImportRequest where
  path : Str
deriving DecidableEq, Repr

structure PluginCallRequest where
  pluginId : Str
  operation : Str
  payload : Str
deriving DecidableEq, Repr

structure ObjectPutRequest where
  kind : Str
  mediaType : Str
  filename : Option Str
  content : Bytes
deriving DecidableEq, Repr

structure ObjectQuery where
  kind : Option Str
  mediaType : Option Str
  filenameContains : Option Str
  minSize : Option Nat
  maxSize : Option Nat
  createdAfterMillis : Option Nat
  createdBeforeMillis : Option Nat
  limit : Nat
  cursor : Option Str
deriving DecidableEq, Repr

structure NodeRecord where
  nodeId : Str
  version : Str
  operations : List Str
  lastSeenMillis : Nat
  endpoint : Str
deriving DecidableEq, Repr

inductive Request where
  | handshake
  | health
  | shutdown
  | modulesList
  | tracingGet
  | tracingSet (value : TracingSetRequest)
  | registryList
  | filesList
  | holoImport (value : HoloImportRequest)
  | holoList
  | holoInspect (value : IdRequest)
  | holoVerify (value : IdRequest)
  | holoRemove (value : IdRequest)
  | holoLoad (value : IdRequest)
  | holoUnload (value : IdRequest)
  | holoRun (value : HoloRunRequest)
  | holoResident
  | historyCreate (value : HistoryCreateRequest)
  | historyList (value : HistoryListRequest)
  | historyGet (value : IdRequest)
  | historyAppend (value : HistoryAppendRequest)
  | historyDelete (value : IdRequest)
  | nodesList
  | nodeHeartbeat (value : NodeRecord)
  | registryPut (value : ObjectPutRequest)
  | registryGet (value : IdRequest)
  | filesPut (value : ObjectPutRequest)
  | filesGet (value : IdRequest)
  | chatSend (value : ChatSendRequest)
  | filesRename (value : FileRenameRequest)
  | historyArchive (value : HistoryArchiveRequest)
  | modelList
  | modelImport (value : ModelImportRequest)
  | modelRemove (value : IdRequest)
  | pluginCall (value : PluginCallRequest)
  | pluginList
  | holoPlan (value : IdRequest)
  | registrySearch (query : ObjectQuery)
  | filesSearch (query : ObjectQuery)
deriving DecidableEq, Repr

structure RpcRequest where
  request : Option Request
deriving DecidableEq, Repr

inductive OperationKind where
  | unspecified
  | read
  | mutation
  | stream
deriving DecidableEq, Repr

structure OperationInfo where
  id : Str
  kind : Int
  fallbackSafeBeforeDispatch : Bool
deriving DecidableEq, Repr

structure ModuleInfo where
  id : Str
  name : Str
  version : Str
  state : Str
  dependencies : List Str
  operations : List Str
deriving DecidableEq, Repr

structure CapabilityManifest where
  protocolVersion : Nat
  serverVersion : Str
  serverId : Str
  role : Str
  operations : List OperationInfo
  modules : List ModuleInfo
  maximumMessageBytes : Nat
deriving DecidableEq, Repr

structure HealthResponse where
  status : Str
  version : Str
  role : Str
  modulesReady : Nat
deriving DecidableEq, Repr

structure ObjectMetadata where
  id : Str
  kind : Str
  mediaType : Str
  filename : Option Str
  size : Nat
  createdAtMillis : Nat
deriving DecidableEq, Repr

structure ObjectPage where
  objects : List ObjectMetadata
  nextCursor : Option Str
  truncated : Bool
deriving DecidableEq, Repr

structure ObjectContent where
  metadata : Option ObjectMetadata
  content : Bytes
deriving DecidableEq, Repr

structure HoloSection where
  kind : Str
  offset : Nat
  length : Nat
deriving DecidableEq, Repr

structure HoloLayer where
  position : Nat
  kind : Str
  contentKappa : Str
  entry : Str
  architecture : Option Str
  surface : Option Str
  engine : Option Str
  contract : Option Str
deriving DecidableEq, Repr

structure HoloChild where
  position : Nat
  applicationKappa : Str
  capabilitiesKappa : Str
  parentApplicationKappa : Option Str
  depth : Option Nat
  requiresKappa : Option Str
  applicationResolutionSource : Option Str
  capabilitiesResolutionSource : Option Str
deriving DecidableEq, Repr

structure HoloBlob where
  kappa : Str
  byteLength : Nat
deriving DecidableEq, Repr

structure HoloDirectory where
  schemaVersion : Nat
  primaryLayer : Option Nat
  requiresKappa : Str
  layers : List HoloLayer
  children : List HoloChild
  blobs : List HoloBlob
deriving DecidableEq, Repr

structure HoloInspection where
  kappa : Str
  name : Str
  formatVersion : Nat
  byteLength : Nat
  archiveFingerprint : Str
  footerVerified : Bool
  sections : List HoloSection
  directory : Option HoloDirectory
  directoryEmbedded : Bool
  applicationKappa : Option Str
deriving DecidableEq, Repr

structure HoloPlanObject where
  kappa : Str
  resolutionSource : Option Str
  byteLength : Option Nat
deriving DecidableEq, Repr

structure HoloPlanProvider where
  status : Str
  name : Option Str
  reason : Option Str
deriving DecidableEq, Repr

structure HoloPlanLayer where
  position : Nat
  kind : Str
  contentKappa : Str
  entry : Str
  architecture : Option Str
  surface : Option Str
  engine : Option Str
  primary : Bool
  resolutionSource : Option Str
  byteLength : Option Nat
  provider : Option HoloPlanProvider
  contract : Option Str
deriving DecidableEq, Repr

structure HoloPlanLimits where
  maxLayers : Nat
  maxObjects : Nat
  maxResolvedBytes : Nat
  maxApplications : Nat
  maxDepth : Nat
deriving DecidableEq, Repr

structure HoloPlanBlocker where
  kind : Str
  errorCode : Str
  message : Str
deriving DecidableEq, Repr

structure HoloPlan where
  archiveKappa : Str
  archiveFingerprint : Str
  applicationKappa : Str
  executionTarget : Str
  packaging : Str
  primaryLayer : Option Nat
  capabilities : Option HoloPlanObject
  layers : List HoloPlanLayer
  children : List HoloChild
  resolvedObjectCount : Nat
  resolvedBytes : Nat
  limits : Option HoloPlanLimits
  runnable : Bool
  blockers : List HoloPlanBlocker
  applicationCount : Nat
  maxDepth : Nat
deriving DecidableEq, Repr

structure ResidentHolo where
  kappa : Str
  inputCount : Nat
  outputCount : Nat
  residentBytes : Nat
  queued : Nat
  processed : Nat
  state : Str
  requestedCapabilitiesKappa : Str
  effectiveGrantKappa : Str
  grantSource : Str
  authorization : Str
deriving DecidableEq, Repr

structure ApplicationCompletion where
  kind : Str
  code : Option Int
deriving DecidableEq, Repr

structure HoloRunResult where
  kappa : Str
  outputs : List Bytes
  elapsedMicros : Nat
  residentBytes : Nat
  requestedCapabilitiesKappa : Str
  effectiveGrantKappa : Str
  grantSource : Str
  authorization : Str
  completion : Option ApplicationCompletion
deriving DecidableEq, Repr

structure ConversationMessage where
  role : Str
  content : Str
  createdAtMillis : Nat
deriving DecidableEq, Repr

structure Conversation where
  id : Str
  title : Str
  createdAtMillis : Nat
  updatedAtMillis : Nat
  messages : List ConversationMessage
  archived : Bool
deriving DecidableEq, Repr

structure ModelInfo where
  id : Str
  name : Str
  engine : Str
  source : Str
  size : Nat
  createdAtMillis : Nat
deriving DecidableEq, Repr

structure PluginStatus where
  id : Str
  name : Str
  version : Str
  operations : List Str
  running : Bool
  restartCount : Nat
  lastError : Option Str
deriving DecidableEq, Repr

structure ApiError where
  code : Str
  message : Str
deriving DecidableEq, Repr

-- `ModuleList`, `ObjectList` and the other lists each hold their `items`.
inductive Response where
  | capabilityManifest (value : CapabilityManifest)
  | health (value : HealthResponse)
  | modules (items : List ModuleInfo)
  | objects (items : List ObjectMetadata)
  | holoInspection (value : HoloInspection)
  | holoList (items : List HoloInspection)
  | holoResident (items : List ResidentHolo)
  | holoRun (value : HoloRunResult)
  | conversation (value : Conversation)
  | conversations (items : List Conversation)
  | nodes (items : List NodeRecord)
  | tracingFilter (filter : Str)
  | accepted
  | error (value : ApiError)
  | object (value : ObjectMetadata)
  | objectContent (value : ObjectContent)
  | model (value : ModelInfo)
  | models (items : List ModelInfo)
  | pluginResult (json : Str)
  | plugins (items : List PluginStatus)
  | holoPlan (value : HoloPlan)
  | objectPage (page : ObjectPage)
deriving DecidableEq, Repr

structure RpcResponse where
  response : Option Response
deriving DecidableEq, Repr

end HologramLive.Rpc.Pb
