import HologramLive.Holo.Types
import HologramLive.Lib.Fallible
namespace HologramLive
open Fallible
variable (hologram : Hologram)

def emptyCanonical : Bytes := hologram.canonicalizeCapabilities emptyCapabilities

def decodeCanonical (bytes : Bytes) : Except LiveError Capabilities := do
  let capabilities ← (hologram.toCapabilities bytes).mapError fun e =>
    .invalidHolo ("decode required CapabilitySet: ".toList ++ e)
  if hologram.canonicalizeCapabilities capabilities ≠ bytes then
    .error (.invalidHolo "required CapabilitySet is not canonically encoded".toList)
  else return capabilities

-- A decoded capability object: what an application requests, or what a parent
-- delegates to a child.
structure CapabilityObject where
  kappa : Kappa
  canonical : Bytes
  capabilities : Capabilities
deriving DecidableEq, Repr

abbrev RequestedCapabilities := CapabilityObject
abbrev DelegatedCapabilities := CapabilityObject

def CapabilityObject.decode (role : String) (kappa : Kappa) (bytes : Bytes) : Except LiveError CapabilityObject := do
  if hologram.addressBytes bytes ≠ kappa then
    .error (.invalidHolo (role.toList ++ " CapabilitySet bytes do not match declared κ ".toList ++ kappa))
  else
    let capabilities ← decodeCanonical hologram bytes
    return ⟨kappa,bytes,capabilities⟩

def RequestedCapabilities.decode : Kappa → Bytes → Except LiveError RequestedCapabilities :=
  CapabilityObject.decode hologram "required"
def DelegatedCapabilities.decode : Kappa → Bytes → Except LiveError DelegatedCapabilities :=
  CapabilityObject.decode hologram "delegated"

inductive GrantSource where
  | localBaseline
  | directDevelopmentFile
  | serviceDevelopmentFile
  | childDelegation
deriving DecidableEq, Repr

def GrantSource.name : GrantSource → Str
  | .localBaseline => "local_baseline".toList
  | .directDevelopmentFile => "direct_development_file".toList
  | .serviceDevelopmentFile => "service_development_file".toList
  | .childDelegation => "child_delegation".toList

-- Authority supplied by a trusted execution context, never by an archive.
structure EffectiveGrant where
  kappa : Kappa
  canonical : Bytes
  capabilities : Capabilities
  source : GrantSource
deriving DecidableEq, Repr

def EffectiveGrant.localBaseline : EffectiveGrant :=
  let canonical := emptyCanonical hologram
  ⟨hologram.addressBytes canonical,canonical,emptyCapabilities,.localBaseline⟩

def EffectiveGrant.fromDelegation (delegated : DelegatedCapabilities) : EffectiveGrant :=
  ⟨delegated.kappa,delegated.canonical,delegated.capabilities,.childDelegation⟩

structure CapabilityDecision where
  applicationKappa : Kappa
  parentApplicationKappa : Option Kappa
  requestedCapabilitiesKappa : Kappa
  effectiveGrantKappa : Kappa
  grantSource : Str
  relation : Str
  outcome : Str
deriving DecidableEq, Repr

def decisionOutcome (allowed : Bool) : Str := if allowed then "allowed".toList else "denied".toList

def CapabilityDecision.applicationRequest (applicationKappa : Kappa) (parentApplicationKappa : Option Kappa)
    (request : RequestedCapabilities) (grant : EffectiveGrant) (allowed : Bool) : CapabilityDecision :=
  ⟨applicationKappa,parentApplicationKappa,request.kappa,grant.kappa,grant.source.name,
    "application_request".toList,decisionOutcome allowed⟩

def CapabilityDecision.childDelegation (parentApplicationKappa childApplicationKappa : Kappa)
    (delegated : DelegatedCapabilities) (parentGrant : EffectiveGrant) (allowed : Bool) : CapabilityDecision :=
  ⟨childApplicationKappa,some parentApplicationKappa,delegated.kappa,parentGrant.kappa,parentGrant.source.name,
    "child_delegation".toList,decisionOutcome allowed⟩

def summary (capabilities : Capabilities) : Str :=
  "storage_roots=".toList ++ decimal capabilities.storageRoots.length ++
  ", publish_channels=".toList ++ decimal capabilities.publishChannels.length ++
  ", subscribe_channels=".toList ++ decimal capabilities.subscribeChannels.length ++
  ", network_fetch_endpoints=".toList ++ decimal capabilities.networkFetchEndpoints.length ++
  ", network_announce_endpoints=".toList ++ decimal capabilities.networkAnnounceEndpoints.length ++
  ", storage_quota_bytes=".toList ++ decimal capabilities.storageQuotaBytes ++
  ", memory_max_bytes=".toList ++ decimal capabilities.memoryMaxBytes ++
  ", cpu_time_per_event_ms=".toList ++ decimal capabilities.cpuTimePerEventMs ++
  ", priority_weight=".toList ++ decimal capabilities.priorityWeight

def EffectiveGrant.authorize (grant : EffectiveGrant) (applicationKappa : Kappa) (request : RequestedCapabilities) :
    Except LiveError Unit :=
  if hologram.admits grant.capabilities request.capabilities then .ok ()
  else .error (.authorization ("application ".toList ++ applicationKappa ++ " requests capabilities ".toList ++
    request.kappa ++ " (".toList ++ summary request.capabilities ++ ") not admitted by effective grant ".toList ++
    grant.kappa ++ " from ".toList ++ grant.source.name ++ " (".toList ++ summary grant.capabilities ++ ")".toList))

def authorizeChildDelegation (parentApplicationKappa parentGrantKappa : Kappa) (parentGrant : Capabilities)
    (childApplicationKappa : Kappa) (delegated : DelegatedCapabilities) (request : RequestedCapabilities) :
    Except LiveError Unit :=
  if !hologram.admits parentGrant delegated.capabilities then
    .error (.authorization ("application ".toList ++ parentApplicationKappa ++ " delegates capabilities ".toList ++
      delegated.kappa ++ " (".toList ++ summary delegated.capabilities ++ ") to child ".toList ++
      childApplicationKappa ++ ", which is not admitted by parent grant ".toList ++ parentGrantKappa ++
      " (".toList ++ summary parentGrant ++ ")".toList))
  else if !hologram.admits delegated.capabilities request.capabilities then
    .error (.authorization ("child application ".toList ++ childApplicationKappa ++ " requests capabilities ".toList ++
      request.kappa ++ " (".toList ++ summary request.capabilities ++ ") not admitted by delegated grant ".toList ++
      delegated.kappa ++ " (".toList ++ summary delegated.capabilities ++ ") from parent ".toList ++
      parentApplicationKappa))
  else .ok ()

end HologramLive
