import HologramLive.Holo.Directory
import HologramLive.Rpc.Messages
import HologramLive.Rpc.Protocol
namespace HologramLive
open Rpc

def HoloLayer.into (value : HoloLayer) : Pb.HoloLayer where
  position := value.position
  kind := value.kind
  contentKappa := value.contentKappa
  entry := value.entry
  contract := value.contract
  architecture := value.architecture
  surface := value.surface
  engine := value.engine

def HoloChild.into (value : HoloChild) : Pb.HoloChild where
  position := value.position
  applicationKappa := value.applicationKappa
  capabilitiesKappa := value.capabilitiesKappa
  parentApplicationKappa := value.parentApplicationKappa
  depth := value.depth
  requiresKappa := value.requiresKappa
  applicationResolutionSource := value.applicationResolutionSource
  capabilitiesResolutionSource := value.capabilitiesResolutionSource

def HoloBlob.into (value : HoloBlob) : Pb.HoloBlob where
  kappa := value.kappa
  byteLength := value.byteLength

def HoloDirectory.into (value : HoloDirectory) : Pb.HoloDirectory where
  schemaVersion := value.schemaVersion
  primaryLayer := value.primaryLayer
  requiresKappa := value.requiresKappa
  layers := value.layers.map (·.into)
  children := value.children.map (·.into)
  blobs := value.blobs.map (·.into)

end HologramLive

namespace HologramLive.Rpc

def narrow {U : Type} (size : Nat) (ofNat : Nat → U) (value : Nat) (field : String) : Except LiveError U :=
  if value < size then .ok (ofNat value)
  else .error (.protocol (field.toList ++ " does not fit this platform".toList))

def narrowU16 : Nat → String → Except LiveError UInt16 := narrow UInt16.size UInt16.ofNat
def narrowUsize : Nat → String → Except LiveError USize := narrow USize.size USize.ofNat

def OperationKind.into : OperationKind → Pb.OperationKind
  | .read => .read
  | .mutation => .mutation
  | .stream => .stream

def Pb.OperationKind.tryInto : Pb.OperationKind → Except LiveError Rpc.OperationKind
  | .read => .ok .read
  | .mutation => .ok .mutation
  | .stream => .ok .stream
  | .unspecified => .error (.protocol "operation kind is unspecified".toList)

def Pb.OperationKind.number : Pb.OperationKind → Int
  | .unspecified => 0
  | .read => 1
  | .mutation => 2
  | .stream => 3

def Pb.OperationKind.ofNumber (number : Int) : Option Pb.OperationKind :=
  if number = 0 then some .unspecified
  else if number = 1 then some .read
  else if number = 2 then some .mutation
  else if number = 3 then some .stream
  else none

def decimalInt (number : Int) : Str := if number < 0 then '-' :: decimal number.natAbs else decimal number.natAbs

def OperationInfo.into (value : OperationInfo) : Pb.OperationInfo where
  id := value.id
  kind := value.kind.into.number
  fallbackSafeBeforeDispatch := value.fallbackSafeBeforeDispatch

def Pb.OperationInfo.tryInto (value : Pb.OperationInfo) : Except LiveError Rpc.OperationInfo := do
  match Pb.OperationKind.ofNumber value.kind with
  | none => .error (.protocol ("unknown operation kind ".toList ++ decimalInt value.kind))
  | some kind =>
    let kind ← kind.tryInto
    return {id := value.id,kind := kind,fallbackSafeBeforeDispatch := value.fallbackSafeBeforeDispatch}

def ModuleInfo.into (value : ModuleInfo) : Pb.ModuleInfo where
  id := value.id
  name := value.name
  version := value.version
  state := value.state
  dependencies := value.dependencies
  operations := value.operations

def Pb.ModuleInfo.into (value : Pb.ModuleInfo) : Rpc.ModuleInfo where
  id := value.id
  name := value.name
  version := value.version
  state := value.state
  dependencies := value.dependencies
  operations := value.operations

def CapabilityManifest.into (value : CapabilityManifest) : Pb.CapabilityManifest where
  protocolVersion := value.protocolVersion.toNat
  serverVersion := value.serverVersion
  serverId := value.serverId
  role := value.role
  operations := value.operations.map (·.into)
  modules := value.modules.map (·.into)
  maximumMessageBytes := value.maximumMessageBytes

def Pb.CapabilityManifest.tryInto (value : Pb.CapabilityManifest) : Except LiveError Rpc.CapabilityManifest := do
  let protocolVersion ← narrowU16 value.protocolVersion "protocol_version"
  let operations ← value.operations.mapM Pb.OperationInfo.tryInto
  return {
    protocolVersion := protocolVersion
    serverVersion := value.serverVersion
    serverId := value.serverId
    role := value.role
    operations := operations
    modules := value.modules.map (·.into)
    maximumMessageBytes := value.maximumMessageBytes}

def HealthResponse.into (value : HealthResponse) : Pb.HealthResponse where
  status := value.status
  version := value.version
  role := value.role
  modulesReady := saturated value.modulesReady.toNat

def Pb.HealthResponse.tryInto (value : Pb.HealthResponse) : Except LiveError Rpc.HealthResponse := do
  let modulesReady ← narrowUsize value.modulesReady "modules_ready"
  return {status := value.status,version := value.version,role := value.role,modulesReady := modulesReady}

def ObjectMetadata.into (value : ObjectMetadata) : Pb.ObjectMetadata where
  id := value.id
  kind := value.kind
  mediaType := value.mediaType
  filename := value.filename
  size := value.size
  createdAtMillis := value.createdAtMillis

def Pb.ObjectMetadata.into (value : Pb.ObjectMetadata) : Rpc.ObjectMetadata where
  id := value.id
  kind := value.kind
  mediaType := value.mediaType
  filename := value.filename
  size := value.size
  createdAtMillis := value.createdAtMillis

def ObjectPage.into (value : ObjectPage) : Pb.ObjectPage where
  objects := value.objects.map (·.into)
  nextCursor := value.nextCursor
  truncated := value.truncated

def Pb.ObjectPage.into (value : Pb.ObjectPage) : Rpc.ObjectPage where
  objects := value.objects.map (·.into)
  nextCursor := value.nextCursor
  truncated := value.truncated

def ObjectContent.into (value : ObjectContent) : Pb.ObjectContent where
  metadata := some value.metadata.into
  content := value.bytes

def Pb.ObjectContent.tryInto (value : Pb.ObjectContent) : Except LiveError Rpc.ObjectContent :=
  match value.metadata with
  | none => .error (.protocol "object content response has no metadata".toList)
  | some metadata => .ok {metadata := metadata.into,bytes := value.content}

def HoloSection.into (value : HoloSection) : Pb.HoloSection where
  kind := value.kind
  offset := value.offset
  length := value.length

def Pb.HoloSection.into (value : Pb.HoloSection) : Rpc.HoloSection where
  kind := value.kind
  offset := value.offset
  length := value.length

def Pb.HoloChild.into (value : Pb.HoloChild) : HologramLive.HoloChild where
  position := value.position
  applicationKappa := value.applicationKappa
  capabilitiesKappa := value.capabilitiesKappa
  parentApplicationKappa := value.parentApplicationKappa
  depth := value.depth
  requiresKappa := value.requiresKappa
  applicationResolutionSource := value.applicationResolutionSource
  capabilitiesResolutionSource := value.capabilitiesResolutionSource

def Pb.HoloBlob.into (value : Pb.HoloBlob) : HologramLive.HoloBlob where
  kappa := value.kappa
  byteLength := value.byteLength

section
variable (hologram : Hologram)

def validateWireContract (kind : Str) (contract : Option Str) : Except LiveError (Option Str) :=
  if kind = "wasm".toList then
    match contract with
    | none => .error (.protocol "gRPC Wasm layer has no guest contract".toList)
    | some contract => do
      let normalized ← (normalizeWasmContract hologram contract).mapError .protocol
      return some normalized
  else if contract.isSome then
    .error (.protocol ("gRPC ".toList ++ kind ++ " layer cannot carry a Wasm guest contract".toList))
  else .ok none

def Pb.HoloLayer.tryInto (value : Pb.HoloLayer) : Except LiveError HologramLive.HoloLayer := do
  let contract ← validateWireContract hologram value.kind value.contract
  return {
    position := value.position
    kind := value.kind
    contentKappa := value.contentKappa
    entry := value.entry
    contract := contract
    architecture := value.architecture
    surface := value.surface
    engine := value.engine}

def Pb.HoloDirectory.tryInto (value : Pb.HoloDirectory) : Except LiveError HologramLive.HoloDirectory := do
  let schemaVersion ← narrow UInt16.size id value.schemaVersion "directory schema_version"
  if schemaVersion ≠ Directory.schemaVersion then
    .error (.protocol ("unsupported application directory schema ".toList ++ decimal schemaVersion ++
      "; expected ".toList ++ decimal Directory.schemaVersion))
  else
    let layers ← value.layers.mapM (Pb.HoloLayer.tryInto hologram)
    return {
      schemaVersion := schemaVersion
      primaryLayer := value.primaryLayer
      requiresKappa := value.requiresKappa
      layers := layers
      children := value.children.map (·.into)
      blobs := value.blobs.map (·.into)}

def HoloInspection.into (value : HoloInspection) : Pb.HoloInspection where
  kappa := value.kappa
  applicationKappa := value.applicationKappa
  name := value.name
  formatVersion := value.formatVersion.toNat
  byteLength := value.byteLength
  archiveFingerprint := value.archiveFingerprint
  footerVerified := value.footerVerified
  sections := value.sections.map (·.into)
  directory := value.directory.map (·.into)
  directoryEmbedded := value.directoryEmbedded

def Pb.HoloInspection.tryInto (value : Pb.HoloInspection) : Except LiveError Rpc.HoloInspection := do
  let formatVersion ← narrowU16 value.formatVersion "format_version"
  if formatVersion.toNat ≠ currentHoloVersion then
    .error (.protocol ("unsupported .holo format version ".toList ++ decimal formatVersion.toNat ++
      "; expected ".toList ++ decimal currentHoloVersion))
  else
    let directory ← value.directory.mapM (Pb.HoloDirectory.tryInto hologram)
    if value.applicationKappa.isSome && (!value.directoryEmbedded || directory.isNone) then
      .error (.protocol "application inspection requires an embedded application directory".toList)
    else return {
      kappa := value.kappa
      applicationKappa := value.applicationKappa
      name := value.name
      formatVersion := formatVersion
      byteLength := value.byteLength
      archiveFingerprint := value.archiveFingerprint
      footerVerified := value.footerVerified
      sections := value.sections.map (·.into)
      directory := directory
      directoryEmbedded := value.directoryEmbedded}

end

def HoloPlanObject.into (value : HoloPlanObject) : Pb.HoloPlanObject where
  kappa := value.kappa
  resolutionSource := value.resolutionSource
  byteLength := value.byteLength

def Pb.HoloPlanObject.into (value : Pb.HoloPlanObject) : Rpc.HoloPlanObject where
  kappa := value.kappa
  resolutionSource := value.resolutionSource
  byteLength := value.byteLength

def HoloPlanProvider.into (value : HoloPlanProvider) : Pb.HoloPlanProvider where
  status := value.status
  name := value.name
  reason := value.reason

def Pb.HoloPlanProvider.into (value : Pb.HoloPlanProvider) : Rpc.HoloPlanProvider where
  status := value.status
  name := value.name
  reason := value.reason

def HoloPlanLayer.into (value : HoloPlanLayer) : Pb.HoloPlanLayer where
  position := value.position
  kind := value.kind
  contentKappa := value.contentKappa
  entry := value.entry
  contract := value.contract
  architecture := value.architecture
  surface := value.surface
  engine := value.engine
  primary := value.primary
  resolutionSource := value.resolutionSource
  byteLength := value.byteLength
  provider := some value.provider.into

def Pb.HoloPlanLayer.tryInto (hologram : Hologram) (value : Pb.HoloPlanLayer) : Except LiveError Rpc.HoloPlanLayer := do
  let contract ← validateWireContract hologram value.kind value.contract
  match value.provider with
  | none => .error (.protocol "gRPC holo plan layer has no provider status".toList)
  | some provider => return {
      position := value.position
      kind := value.kind
      contentKappa := value.contentKappa
      entry := value.entry
      contract := contract
      architecture := value.architecture
      surface := value.surface
      engine := value.engine
      primary := value.primary
      resolutionSource := value.resolutionSource
      byteLength := value.byteLength
      provider := provider.into}

def HoloPlanLimits.into (value : HoloPlanLimits) : Pb.HoloPlanLimits where
  maxLayers := value.maxLayers
  maxObjects := value.maxObjects
  maxResolvedBytes := value.maxResolvedBytes
  maxApplications := value.maxApplications
  maxDepth := value.maxDepth

def Pb.HoloPlanLimits.into (value : Pb.HoloPlanLimits) : Rpc.HoloPlanLimits where
  maxLayers := value.maxLayers
  maxObjects := value.maxObjects
  maxResolvedBytes := value.maxResolvedBytes
  maxApplications := value.maxApplications
  maxDepth := value.maxDepth

def HoloPlanBlocker.into (value : HoloPlanBlocker) : Pb.HoloPlanBlocker where
  kind := value.kind
  errorCode := value.errorCode
  message := value.message

def Pb.HoloPlanBlocker.into (value : Pb.HoloPlanBlocker) : Rpc.HoloPlanBlocker where
  kind := value.kind
  errorCode := value.errorCode
  message := value.message

def HoloPlan.into (value : HoloPlan) : Pb.HoloPlan where
  archiveKappa := value.archiveKappa
  archiveFingerprint := value.archiveFingerprint
  applicationKappa := value.applicationKappa
  executionTarget := value.executionTarget
  packaging := value.packaging
  primaryLayer := value.primaryLayer
  capabilities := some value.capabilities.into
  layers := value.layers.map (·.into)
  children := value.children.map (·.into)
  resolvedObjectCount := value.resolvedObjectCount
  resolvedBytes := value.resolvedBytes
  applicationCount := value.applicationCount
  maxDepth := value.maxDepth
  limits := some value.limits.into
  runnable := value.runnable
  blockers := value.blockers.map (·.into)

def Pb.HoloPlan.tryInto (hologram : Hologram) (value : Pb.HoloPlan) : Except LiveError Rpc.HoloPlan :=
  match value.capabilities with
  | none => .error (.protocol "gRPC holo plan has no capabilities object".toList)
  | some capabilities => do
    let layers ← value.layers.mapM (Pb.HoloPlanLayer.tryInto hologram)
    match value.limits with
    | none => .error (.protocol "gRPC holo plan has no limits".toList)
    | some limits => return {
        archiveKappa := value.archiveKappa
        archiveFingerprint := value.archiveFingerprint
        applicationKappa := value.applicationKappa
        executionTarget := value.executionTarget
        packaging := value.packaging
        primaryLayer := value.primaryLayer
        capabilities := capabilities.into
        layers := layers
        children := value.children.map (·.into)
        resolvedObjectCount := value.resolvedObjectCount
        resolvedBytes := value.resolvedBytes
        applicationCount := value.applicationCount
        maxDepth := value.maxDepth
        limits := limits.into
        runnable := value.runnable
        blockers := value.blockers.map (·.into)}

def requireNonempty (value : Str) (field : String) : Except LiveError Unit :=
  if value.isEmpty then .error (.protocol ("missing ".toList ++ field.toList)) else .ok ()

def ResidentHolo.into (value : ResidentHolo) : Pb.ResidentHolo where
  kappa := value.kappa
  state := value.state
  inputCount := saturated value.inputCount.toNat
  outputCount := saturated value.outputCount.toNat
  residentBytes := saturated value.residentBytes.toNat
  queued := saturated value.queued.toNat
  processed := saturated value.processed.toNat
  requestedCapabilitiesKappa := value.requestedCapabilitiesKappa
  effectiveGrantKappa := value.effectiveGrantKappa
  grantSource := value.grantSource
  authorization := value.authorization

def Pb.ResidentHolo.tryInto (value : Pb.ResidentHolo) : Except LiveError Rpc.ResidentHolo := do
  requireNonempty value.state "resident state"
  requireNonempty value.requestedCapabilitiesKappa "requested capabilities kappa"
  requireNonempty value.effectiveGrantKappa "effective grant kappa"
  requireNonempty value.grantSource "grant source"
  requireNonempty value.authorization "authorization decision"
  let inputCount ← narrowUsize value.inputCount "input_count"
  let outputCount ← narrowUsize value.outputCount "output_count"
  let residentBytes ← narrowUsize value.residentBytes "resident_bytes"
  let queued ← narrowUsize value.queued "queued"
  let processed ← narrowUsize value.processed "processed"
  return {
    kappa := value.kappa
    state := value.state
    inputCount := inputCount
    outputCount := outputCount
    residentBytes := residentBytes
    queued := queued
    processed := processed
    requestedCapabilitiesKappa := value.requestedCapabilitiesKappa
    effectiveGrantKappa := value.effectiveGrantKappa
    grantSource := value.grantSource
    authorization := value.authorization}

def ApplicationCompletion.into : ApplicationCompletion → Pb.ApplicationCompletion
  | .returned => {kind := "returned".toList,code := none}
  | .exited code => {kind := "exited".toList,code := some code}

def debugCode : Option Int → Str
  | none => "None".toList
  | some code => "Some(".toList ++ decimalInt code ++ ")".toList

def Pb.ApplicationCompletion.tryInto (value : Pb.ApplicationCompletion) : Except LiveError Rpc.ApplicationCompletion :=
  let unknown : Except LiveError Rpc.ApplicationCompletion :=
    .error (.protocol ("invalid application completion kind ".toList ++ quoted value.kind ++
      " with code ".toList ++ debugCode value.code))
  match value.code with
  | none => if value.kind = "returned".toList then .ok .returned else unknown
  | some code => if value.kind = "exited".toList then .ok (.exited code) else unknown

def HoloRunResult.into (value : HoloRunResult) : Pb.HoloRunResult where
  kappa := value.kappa
  outputs := value.outputs
  elapsedMicros := value.elapsedMicros
  residentBytes := saturated value.residentBytes.toNat
  requestedCapabilitiesKappa := value.requestedCapabilitiesKappa
  effectiveGrantKappa := value.effectiveGrantKappa
  grantSource := value.grantSource
  authorization := value.authorization
  completion := some value.completion.into

def Pb.HoloRunResult.tryInto (value : Pb.HoloRunResult) : Except LiveError Rpc.HoloRunResult := do
  requireNonempty value.requestedCapabilitiesKappa "requested capabilities kappa"
  requireNonempty value.effectiveGrantKappa "effective grant kappa"
  requireNonempty value.grantSource "grant source"
  requireNonempty value.authorization "authorization decision"
  let residentBytes ← narrowUsize value.residentBytes "resident_bytes"
  match value.completion with
  | none => .error (.protocol "missing application completion".toList)
  | some completion =>
    let completion ← completion.tryInto
    return {
      kappa := value.kappa
      outputs := value.outputs
      elapsedMicros := value.elapsedMicros
      residentBytes := residentBytes
      completion := completion
      requestedCapabilitiesKappa := value.requestedCapabilitiesKappa
      effectiveGrantKappa := value.effectiveGrantKappa
      grantSource := value.grantSource
      authorization := value.authorization}

def ConversationMessage.into (value : ConversationMessage) : Pb.ConversationMessage where
  role := value.role
  content := value.content
  createdAtMillis := value.createdAtMillis

def Pb.ConversationMessage.into (value : Pb.ConversationMessage) : Rpc.ConversationMessage where
  role := value.role
  content := value.content
  createdAtMillis := value.createdAtMillis

def Conversation.into (value : Conversation) : Pb.Conversation where
  id := value.id
  title := value.title
  createdAtMillis := value.createdAtMillis
  updatedAtMillis := value.updatedAtMillis
  messages := value.messages.map (·.into)
  archived := value.archived

def Pb.Conversation.into (value : Pb.Conversation) : Rpc.Conversation where
  id := value.id
  title := value.title
  createdAtMillis := value.createdAtMillis
  updatedAtMillis := value.updatedAtMillis
  messages := value.messages.map (·.into)
  archived := value.archived

def NodeRecord.into (value : NodeRecord) : Pb.NodeRecord where
  nodeId := value.nodeId
  version := value.version
  operations := value.operations
  lastSeenMillis := value.lastSeenMillis
  endpoint := value.endpoint

def Pb.NodeRecord.into (value : Pb.NodeRecord) : Rpc.NodeRecord where
  nodeId := value.nodeId
  version := value.version
  operations := value.operations
  endpoint := value.endpoint
  lastSeenMillis := value.lastSeenMillis

def ModelInfo.into (value : ModelInfo) : Pb.ModelInfo where
  id := value.id
  name := value.name
  engine := value.engine
  source := value.source
  size := value.size
  createdAtMillis := value.createdAtMillis

def Pb.ModelInfo.into (value : Pb.ModelInfo) : Rpc.ModelInfo where
  id := value.id
  name := value.name
  engine := value.engine
  source := value.source
  size := value.size
  createdAtMillis := value.createdAtMillis

def PluginStatus.into (value : PluginStatus) : Pb.PluginStatus where
  id := value.id
  name := value.name
  version := value.version
  operations := value.operations
  running := value.running
  restartCount := value.restartCount
  lastError := value.lastError

def Pb.PluginStatus.into (value : Pb.PluginStatus) : Rpc.PluginStatus where
  id := value.id
  name := value.name
  version := value.version
  operations := value.operations
  running := value.running
  restartCount := value.restartCount
  lastError := value.lastError

def ApiError.into (value : ApiError) : Pb.ApiError where
  code := value.code
  message := value.message

def Pb.ApiError.into (value : Pb.ApiError) : Rpc.ApiError where
  code := value.code
  message := value.message

def RpcResponse.into (value : RpcResponse) : Pb.RpcResponse where
  response := some <| match value with
    | .capabilityManifest value => .capabilityManifest value.into
    | .health value => .health value.into
    | .modules items => .modules (items.map (·.into))
    | .objects items => .objects (items.map (·.into))
    | .objectPage page => .objectPage page.into
    | .object value => .object value.into
    | .objectContent value => .objectContent value.into
    | .holoInspection value => .holoInspection value.into
    | .holoPlan value => .holoPlan value.into
    | .holoList items => .holoList (items.map (·.into))
    | .holoResident items => .holoResident (items.map (·.into))
    | .holoRun value => .holoRun value.into
    | .conversation value => .conversation value.into
    | .conversations items => .conversations (items.map (·.into))
    | .model value => .model value.into
    | .models items => .models (items.map (·.into))
    | .nodes items => .nodes (items.map (·.into))
    | .pluginResult json => .pluginResult json
    | .plugins items => .plugins (items.map (·.into))
    | .tracingFilter filter => .tracingFilter filter
    | .accepted => .accepted
    | .error value => .error value.into

def Pb.RpcResponse.tryInto (hologram : Hologram) (value : Pb.RpcResponse) : Except LiveError Rpc.RpcResponse :=
  match value.response with
  | none => .error (.protocol "gRPC response has no body".toList)
  | some response => match response with
    | .capabilityManifest value => value.tryInto.map .capabilityManifest
    | .health value => value.tryInto.map .health
    | .modules items => .ok (.modules (items.map (·.into)))
    | .objects items => .ok (.objects (items.map (·.into)))
    | .objectPage value => .ok (.objectPage value.into)
    | .object value => .ok (.object value.into)
    | .objectContent value => value.tryInto.map .objectContent
    | .holoInspection value => (value.tryInto hologram).map .holoInspection
    | .holoPlan value => (value.tryInto hologram).map .holoPlan
    | .holoList items => (items.mapM (Pb.HoloInspection.tryInto hologram)).map .holoList
    | .holoResident items => (items.mapM Pb.ResidentHolo.tryInto).map .holoResident
    | .holoRun value => value.tryInto.map .holoRun
    | .conversation value => .ok (.conversation value.into)
    | .conversations items => .ok (.conversations (items.map (·.into)))
    | .model value => .ok (.model value.into)
    | .models items => .ok (.models (items.map (·.into)))
    | .nodes items => .ok (.nodes (items.map (·.into)))
    | .pluginResult json => .ok (.pluginResult json)
    | .plugins items => .ok (.plugins (items.map (·.into)))
    | .tracingFilter filter => .ok (.tracingFilter filter)
    | .accepted => .ok .accepted
    | .error value => .ok (.error value.into)

end HologramLive.Rpc
