import HologramLive.Holo.Plan
import HologramLive.Rpc.Protocol
namespace HologramLive

def PlanBlocker.kind : PlanBlocker → Str
  | .missingObject .. => "missing_object".toList
  | .contentMismatch .. => "content_mismatch".toList
  | .invalidCapabilitySet .. => "invalid_capability_set".toList
  | .providerUnavailable .. => "provider_unavailable".toList
  | .invalidChildManifest .. => "invalid_child_manifest".toList
  | .childCycle _ => "child_cycle".toList
  | .limitExceeded .. => "limit_exceeded".toList
  | .executionShapeUnsupported _ => "execution_shape_unsupported".toList
  | .libraryArchive => "library_archive".toList

def PlanBlocker.errorCode : PlanBlocker → Str
  | .missingObject .. => "LIVE_NOT_FOUND".toList
  | .contentMismatch .. | .invalidCapabilitySet .. | .invalidChildManifest .. | .childCycle _ | .limitExceeded .. =>
    "LIVE_HOLO_INVALID".toList
  | .providerUnavailable .. | .executionShapeUnsupported _ | .libraryArchive => "LIVE_CAPABILITY_MISSING".toList

namespace Rpc

def resolutionSourceName : ResolutionSource → Str
  | .embedded => "embedded".toList
  | .localStore => "local_store".toList

def planObject (report : ApplicationPlanReport) (kappa : Kappa) : HoloPlanObject :=
  let object := report.objects[kappa]?
  ⟨kappa,object.map fun object => resolutionSourceName object.source,
    object.map fun object => saturated object.bytes.length⟩

def providerReport : ProviderAvailability → HoloPlanProvider
  | .unchecked => ⟨"unchecked".toList,none,none⟩
  | .available provider => ⟨"available".toList,some provider,none⟩
  | .unavailable reason => ⟨"unavailable".toList,none,some reason⟩

def packaging (report : ApplicationPlanReport) : Str :=
  if report.embeddedObjectCount = 0 then "thin".toList
  else if report.referencedObjectCount ≤ report.embeddedObjectCount then "fat".toList
  else "hybrid".toList

variable (hologram : Hologram)

def planLayer (report : ApplicationPlanReport) (layer : PlannedLayer) : HoloPlanLayer :=
  let object := report.objects[layer.contentKappa]?
  let row (contract architecture surface engine : Option Str) : HoloPlanLayer := {
    position := layer.position
    kind := layerKindName layer.kind
    contentKappa := layer.contentKappa
    entry := layer.entry
    contract := contract
    architecture := architecture
    surface := surface
    engine := engine
    primary := layer.primary
    resolutionSource := layer.resolutionSource.map resolutionSourceName
    byteLength := object.map fun object => saturated object.bytes.length
    provider := providerReport layer.provider}
  match layer.kind with
  | .wasmCodemodule => row (normalizeWasmContract hologram layer.aux).toOption none none none
  | .rootfsImage => row none (some layer.aux) none none
  | .view => row none none (some layer.aux) none
  | .inferenceModel => row none none none (some layer.aux)
  | .tensorPlan => row none none none none

def planChild (child : ChildReference) : HoloChild where
  position := child.position
  applicationKappa := child.applicationKappa
  capabilitiesKappa := child.capabilitiesKappa
  parentApplicationKappa := some child.parentApplicationKappa
  depth := some child.depth
  requiresKappa := child.requiresKappa
  applicationResolutionSource := child.applicationResolutionSource.map resolutionSourceName
  capabilitiesResolutionSource := child.capabilitiesResolutionSource.map resolutionSourceName

def HoloPlan.fromReport (report : ApplicationPlanReport) (executionTarget : Str) : HoloPlan where
  archiveKappa := report.identity.archiveKappa
  archiveFingerprint := report.identity.archiveFingerprint
  applicationKappa := report.identity.applicationKappa
  executionTarget := executionTarget
  packaging := Rpc.packaging report
  primaryLayer := report.primaryLayer
  capabilities := planObject report report.requiresKappa
  layers := report.layers.map (planLayer hologram report)
  children := report.children.map planChild
  resolvedObjectCount := saturated report.objects.size
  resolvedBytes := report.resolvedBytes
  applicationCount := saturated report.applicationCount
  maxDepth := saturated report.maxDepth
  limits := {
    maxLayers := saturated report.limits.maxLayers
    maxApplications := saturated report.limits.maxApplications
    maxDepth := saturated report.limits.maxDepth
    maxObjects := saturated report.limits.maxObjects
    maxResolvedBytes := report.limits.maxResolvedBytes}
  runnable := report.runnable
  blockers := report.blockers.map fun blocker =>
    ⟨blocker.kind,blocker.errorCode,blocker.message report.identity.applicationKappa⟩

def inspectBytes (sections : Bytes → List HoloSection) (kappa : Kappa) (name : Str) (bytes : Bytes) :
    Except LiveError HoloInspection := do
  requireCurrent bytes
  let loader ← (hologram.fromBytes bytes).mapError .invalidHolo
  let plan ← loader.intoPlan.mapError .invalidHolo
  let formatVersion := UInt16.ofNat ((bytes.getD 4 0).toNat+256*(bytes.getD 5 0).toNat)
  let extensions ← plan.extensions.mapError .invalidHolo
  let directories := (extensions.filter fun extension => extension.1 = Directory.extensionKey).map (·.2)
  let inspection (directory : Option HoloDirectory) (applicationKappa : Option Kappa) : HoloInspection := {
    kappa := kappa
    applicationKappa := applicationKappa
    name := name
    formatVersion := formatVersion
    byteLength := saturated bytes.length
    archiveFingerprint := hex loader.fingerprint
    footerVerified := true
    sections := sections bytes
    directory := directory
    directoryEmbedded := directory.isSome}
  match plan.appManifest with
  | some manifestBytes =>
    let manifest ← (hologram.decodeManifest manifestBytes).mapError fun e =>
      .invalidHolo ("decode application manifest: ".toList ++ e)
    let blobs ← plan.contentBlobs.mapError .invalidHolo
    let derived ← Directory.verifyRequired hologram manifest directories blobs
    return inspection (some derived) (some (hologram.addressBytes (hologram.canonicalizeManifest manifest)))
  | none =>
    if !directories.isEmpty then
      .error (.invalidHolo "application directory requires an application manifest".toList)
    else return inspection none none

inductive LifecycleState where
  | planned
  | preparing
  | running
  | stopping
  | stopped
  | failed
deriving DecidableEq, Repr

def LifecycleState.name : LifecycleState → Str
  | .planned => "planned".toList
  | .preparing => "preparing".toList
  | .running => "running".toList
  | .stopping => "stopping".toList
  | .stopped => "stopped".toList
  | .failed => "failed".toList

structure ProviderStatus where
  residentBytes : USize
  queued : USize
  processed : USize
deriving DecidableEq, Repr

structure ResidentEntry where
  inputCount : USize
  outputCount : USize
  requestedCapabilitiesKappa : Kappa
  effectiveGrantKappa : Kappa
  grantSource : Str
deriving DecidableEq, Repr

def ResidentEntry.loaded (plan : ApplicationPlan) (effectiveGrant : EffectiveGrant) : ResidentEntry where
  inputCount := 1
  outputCount := 1
  requestedCapabilitiesKappa := plan.requestedCapabilities.kappa
  effectiveGrantKappa := effectiveGrant.kappa
  grantSource := effectiveGrant.source.name

def ResidentEntry.record (entry : ResidentEntry) (kappa : Kappa) (state : LifecycleState) (status : ProviderStatus) :
    ResidentHolo where
  kappa := kappa
  state := state.name
  inputCount := entry.inputCount
  outputCount := entry.outputCount
  residentBytes := status.residentBytes
  queued := status.queued
  processed := status.processed
  requestedCapabilitiesKappa := entry.requestedCapabilitiesKappa
  effectiveGrantKappa := entry.effectiveGrantKappa
  grantSource := entry.grantSource
  authorization := "allowed".toList

structure LayerInvocation where
  outputs : List Bytes
  elapsedMicros : Nat
  completion : ApplicationCompletion
deriving DecidableEq, Repr

def ResidentEntry.result (entry : ResidentEntry) (kappa : Kappa) (outcome : LayerInvocation) (status : ProviderStatus) :
    HoloRunResult where
  kappa := kappa
  outputs := outcome.outputs
  elapsedMicros := outcome.elapsedMicros
  residentBytes := status.residentBytes
  completion := outcome.completion
  requestedCapabilitiesKappa := entry.requestedCapabilitiesKappa
  effectiveGrantKappa := entry.effectiveGrantKappa
  grantSource := entry.grantSource
  authorization := "allowed".toList

end Rpc

def EffectiveGrant.fromCanonical (hologram : Hologram) (bytes : Bytes) (source : GrantSource) :
    Except LiveError EffectiveGrant := do
  let capabilities ← decodeCanonical hologram bytes
  return ⟨hologram.addressBytes bytes,bytes,capabilities,source⟩

end HologramLive
