import HologramLive.Holo.Capabilities
import HologramLive.Holo.Directory
namespace HologramLive
open Tables Fallible

-- The archive file, its footer's integrity value, and the application itself.
structure HoloIdentity where
  archiveKappa : Kappa
  archiveFingerprint : Str
  applicationKappa : Kappa
deriving DecidableEq, Repr

structure PlanLimits where
  maxLayers : Nat
  maxApplications : Nat
  maxDepth : Nat
  maxObjects : Nat
  maxResolvedBytes : Nat
deriving DecidableEq, Repr

def PlanLimits.default : PlanLimits := ⟨256,64,16,512,4*1024*1024*1024⟩

inductive ResolutionSource where
  | embedded
  | localStore
deriving DecidableEq, Repr

def resolutionSourceName : ResolutionSource → Str
  | .embedded => "embedded content".toList
  | .localStore => "local store".toList

structure ResolvedObject where
  kappa : Kappa
  bytes : Bytes
  source : ResolutionSource
deriving DecidableEq, Repr

inductive ManifestEdge where
  | requiredCapabilities
  | layer (position : Nat)
  | childApplication (parentApplicationKappa : Kappa) (position : Nat)
  | delegatedCapabilities (parentApplicationKappa : Kappa) (position : Nat)
  | childRequiredCapabilities (applicationKappa : Kappa)
  | childLayer (applicationKappa : Kappa) (position : Nat)
deriving DecidableEq, Repr

def ManifestEdge.display : ManifestEdge → Str
  | .requiredCapabilities => "required capabilities".toList
  | .layer position => "layer ".toList ++ decimal position
  | .childApplication parent position =>
    "child ".toList ++ decimal position ++ " application of ".toList ++ parent
  | .delegatedCapabilities parent position =>
    "child ".toList ++ decimal position ++ " delegated capabilities of ".toList ++ parent
  | .childRequiredCapabilities application => "required capabilities of child ".toList ++ application
  | .childLayer application position => "layer ".toList ++ decimal position ++ " of child ".toList ++ application

inductive ProviderAvailability where
  | unchecked
  | available (provider : Str)
  | unavailable (reason : Str)
deriving DecidableEq, Repr

def ProviderAvailability.isAvailable : ProviderAvailability → Bool
  | .available _ => true
  | _ => false

structure PlannedLayer where
  position : Nat
  kind : LayerKind
  contentKappa : Kappa
  entry : Str
  aux : Str
  primary : Bool
  resolutionSource : Option ResolutionSource
  provider : ProviderAvailability
deriving DecidableEq, Repr

structure ResolvedLayer where
  position : Nat
  kind : LayerKind
  contentKappa : Kappa
  entry : Str
  aux : Str
  primary : Bool
  content : Bytes
  resolutionSource : ResolutionSource
  provider : Str
deriving DecidableEq, Repr

structure ChildReference where
  position : Nat
  parentApplicationKappa : Kappa
  applicationKappa : Kappa
  capabilitiesKappa : Kappa
  depth : Nat
  requiresKappa : Option Kappa
  layerCount : Option Nat
  applicationResolutionSource : Option ResolutionSource
  capabilitiesResolutionSource : Option ResolutionSource
deriving DecidableEq, Repr

inductive PlanLimit where
  | resolvedObjects
  | resolvedBytes
  | applications
  | layers
  | applicationDepth
deriving DecidableEq, Repr

def PlanLimit.name : PlanLimit → Str
  | .resolvedObjects => "resolved_objects".toList
  | .resolvedBytes => "resolved_bytes".toList
  | .applications => "applications".toList
  | .layers => "layers".toList
  | .applicationDepth => "application_depth".toList

inductive PlanBlocker where
  | missingObject (kappa : Kappa) (edge : ManifestEdge)
  | contentMismatch (kappa : Kappa) (edge : ManifestEdge) (source : ResolutionSource)
  | invalidCapabilitySet (kappa : Kappa) (reason : Str)
  | providerUnavailable (applicationKappa : Kappa) (position : Nat) (kind entry reason : Str)
  | invalidChildManifest (kappa : Kappa) (edge : ManifestEdge) (reason : Str)
  | childCycle (path : List Kappa)
  | limitExceeded (limit : PlanLimit) (maximum actual : Nat) (edge : Option ManifestEdge)
  | executionShapeUnsupported (reason : Str)
  | libraryArchive
deriving DecidableEq, Repr

def PlanBlocker.message (blocker : PlanBlocker) (applicationKappa : Kappa) : Str :=
  "application ".toList ++ match blocker with
  | .missingObject kappa edge => applicationKappa ++ " cannot resolve ".toList ++ kappa ++ " referenced by ".toList ++
      edge.display ++ " from embedded content or the local store".toList
  | .contentMismatch kappa edge source => applicationKappa ++ " resolved ".toList ++ kappa ++ " for ".toList ++
      edge.display ++ " from ".toList ++ resolutionSourceName source ++
      " but the bytes do not match the declared kappa".toList
  | .invalidCapabilitySet kappa reason => applicationKappa ++ " required capability object ".toList ++ kappa ++
      " is not a canonical CapabilitySet: ".toList ++ reason
  | .providerUnavailable providerApplication position kind entry reason => providerApplication ++ " layer ".toList ++
      decimal position ++ " (".toList ++ kind ++ ", entry ".toList ++ entry ++
      ") has no available provider while planning root ".toList ++ applicationKappa ++ ": ".toList ++ reason
  | .invalidChildManifest kappa edge reason => applicationKappa ++ " resolved invalid child manifest ".toList ++ kappa ++
      " referenced by ".toList ++ edge.display ++ ": ".toList ++ reason
  | .childCycle path => applicationKappa ++ " child graph contains a cycle: ".toList ++ " -> ".toList.intercalate path
  | .limitExceeded limit maximum actual edge => applicationKappa ++ " exceeds planning limit ".toList ++ limit.name ++
      ": maximum ".toList ++ decimal maximum ++ ", actual ".toList ++ decimal actual ++
      (match edge with
        | none => []
        | some edge => " while resolving ".toList ++ edge.display)
  | .executionShapeUnsupported reason =>
      applicationKappa ++ " cannot execute with the current lifecycle: ".toList ++ reason
  | .libraryArchive =>
      applicationKappa ++ " is a library archive: it declares no primary layer and cannot be executed".toList

def PlanBlocker.intoError (blocker : PlanBlocker) (applicationKappa : Kappa) : LiveError :=
  let message := blocker.message applicationKappa
  match blocker with
  | .missingObject .. => .notFound message
  | .contentMismatch .. | .invalidCapabilitySet .. | .invalidChildManifest .. | .childCycle .. | .limitExceeded .. =>
    .invalidHolo message
  | .providerUnavailable .. | .executionShapeUnsupported .. | .libraryArchive => .capability message

structure PendingChildAdmission where
  position : Nat
  parentApplicationIndex : Nat
  parentApplicationKappa : Kappa
  applicationIndex : Nat
  applicationKappa : Kappa
  delegatedCapabilities : DelegatedCapabilities
  requestedCapabilities : Option RequestedCapabilities
  primaryLayer : Option Nat
  layers : List PlannedLayer
deriving DecidableEq, Repr

structure ApplicationPlanReport where
  identity : HoloIdentity
  primaryLayer : Option Nat
  requiresKappa : Kappa
  layers : List PlannedLayer
  children : List ChildReference
  objects : Table Kappa ResolvedObject
  blockers : List PlanBlocker
  resolvedBytes : Nat
  referencedObjectCount : Nat
  embeddedObjectCount : Nat
  applicationCount : Nat
  maxDepth : Nat
  limits : PlanLimits
  requestedCapabilities : Option RequestedCapabilities
  childAdmissions : List PendingChildAdmission
  manifest : AppManifest

variable (hologram : Hologram)

-- Where a kappa's bytes are looked for: the archive's own blobs, then the local
-- store. The store is asked for a kappa at most once, so its answers in one run
-- are a function.
structure Sources where
  embedded : Table Kappa Bytes
  resolveLocal : Kappa → Except LiveError (Option Bytes)

variable (sources : Sources)

def Sources.lookup (kappa : Kappa) : Except LiveError (Option (Bytes × ResolutionSource)) :=
  match sources.embedded[kappa]? with
  | some bytes => .ok (some (bytes,.embedded))
  | none => (sources.resolveLocal kappa).map fun found => found.map fun bytes => (bytes,.localStore)

inductive ResolutionFailure where
  | missing
  | mismatch (source : ResolutionSource)
deriving DecidableEq, Repr

def ResolutionFailure.blocker (failure : ResolutionFailure) (kappa : Kappa) (edge : ManifestEdge) : PlanBlocker :=
  match failure with
  | .missing => .missingObject kappa edge
  | .mismatch source => .contentMismatch kappa edge source

structure ClosureResolver where
  referenced : KeySet Kappa
  failures : Table Kappa ResolutionFailure
  objects : Table Kappa ResolvedObject
  blockers : List PlanBlocker
  resolvedBytes : Nat
  embeddedObjectCount : Nat
  halted : Bool

namespace ClosureResolver

def empty : ClosureResolver := ⟨∅,∅,∅,[],0,0,false⟩

variable (closure : ClosureResolver)

def block (blocker : PlanBlocker) : ClosureResolver :=
  {closure with blockers := closure.blockers ++ [blocker]}

def fail (kappa : Kappa) (edge : ManifestEdge) (failure : ResolutionFailure) : ClosureResolver :=
  ({closure with failures := closure.failures.insert kappa failure}).block (failure.blocker kappa edge)

def halt (blocker : PlanBlocker) : ClosureResolver :=
  {closure.block blocker with halted := true}

def refer (limits : PlanLimits) (closure : ClosureResolver) (kappa : Kappa) : Except Nat ClosureResolver :=
  if kappa ∈ closure.referenced then .ok closure
  else
    let actual := saturatingAdd closure.referenced.size 1
    if limits.maxObjects < actual then .error actual
    else .ok {closure with
      referenced := closure.referenced.insert kappa
      embeddedObjectCount :=
        if (sources.embedded[kappa]?).isSome then saturatingAdd closure.embeddedObjectCount 1
        else closure.embeddedObjectCount}

def resolve (limits : PlanLimits) (closure : ClosureResolver) (kappa : Kappa)
    (edge : ManifestEdge) : Except LiveError (Option ResolvedObject × ClosureResolver) :=
  match closure.objects[kappa]? with
  | some object => .ok (some object,closure)
  | none => match closure.failures[kappa]? with
    | some failure => .ok (none,closure.block (failure.blocker kappa edge))
    | none =>
      if closure.halted then .ok (none,closure)
      else match closure.refer sources limits kappa with
        | .error actual => .ok (none,closure.halt (.limitExceeded .resolvedObjects limits.maxObjects actual (some edge)))
        | .ok closure => do
          match ← sources.lookup kappa with
          | none => return (none,closure.fail kappa edge .missing)
          | some (bytes,source) =>
            if hologram.addressBytes bytes ≠ kappa then return (none,closure.fail kappa edge (.mismatch source))
            else
              let nextTotal := saturatingAdd closure.resolvedBytes (saturated bytes.length)
              if limits.maxResolvedBytes < nextTotal then
                return (none,closure.halt
                  (.limitExceeded .resolvedBytes limits.maxResolvedBytes nextTotal (some edge)))
              else
                let object : ResolvedObject := ⟨kappa,bytes,source⟩
                return (some object,{closure with
                  resolvedBytes := nextTotal
                  objects := closure.objects.insert kappa object})

end ClosureResolver

structure PendingApplication where
  applicationIndex : Nat
  admissionIndex : Option Nat
  applicationKappa : Kappa
  manifest : AppManifest
  depth : Nat
  path : List Kappa
deriving DecidableEq, Repr

def plannedLayers (manifest : AppManifest) : List PlannedLayer :=
  manifest.layers.zipIdx.map fun (layer,position) =>
    ⟨min position u32Max,layer.kind,layer.content,layer.entry,layer.aux,
      manifest.primary = if position ≤ u32Max then some position else none,none,.unchecked⟩

def decodeChildManifest (object : ResolvedObject) : Except Str AppManifest := do
  let manifest ← (hologram.decodeManifest object.bytes).mapError fun e => "decode: ".toList ++ e
  (hologram.validateManifest manifest).mapError fun e => "validate: ".toList ++ e
  if hologram.canonicalizeManifest manifest ≠ object.bytes then
    .error "manifest is not canonically encoded".toList
  else return manifest

def childCyclePath (path : List Kappa) (childKappa : Kappa) : Option (List Kappa) :=
  if childKappa ∈ path then some (path ++ [childKappa]) else none

structure Walk where
  closure : ClosureResolver
  children : List ChildReference
  childAdmissions : List PendingChildAdmission
  requestedCapabilities : Option RequestedCapabilities
  applicationCount : Nat
  maxDepth : Nat
  totalLayers : Nat
  applicationsLimited : Bool
  pending : List PendingApplication

namespace Walk

def block (walk : Walk) (blocker : PlanBlocker) : Walk := {walk with closure := walk.closure.block blocker}

def admission (walk : Walk) (application : PendingApplication)
    (change : PendingChildAdmission → PendingChildAdmission) : Walk :=
  match application.admissionIndex with
  | none => walk
  | some index => {walk with childAdmissions := walk.childAdmissions.modify index change}

variable (application : PendingApplication)

def requiresEdge : ManifestEdge :=
  if application.depth = 0 then .requiredCapabilities
  else .childRequiredCapabilities application.applicationKappa

def layerEdge (position : Nat) : ManifestEdge :=
  if application.depth = 0 then .layer (min position u32Max)
  else .childLayer application.applicationKappa (min position u32Max)

variable (limits : PlanLimits)

def resolveRequires (application : PendingApplication) (walk : Walk) : Except LiveError Walk := do
  let requiresKappa := application.manifest.requires
  let (object,closure) ← walk.closure.resolve hologram sources limits requiresKappa (requiresEdge application)
  let walk := {walk with closure := closure}
  match object with
  | none => return walk
  | some object => match RequestedCapabilities.decode hologram object.kappa object.bytes with
    | .error e => return walk.block (.invalidCapabilitySet object.kappa e.message)
    | .ok capabilities =>
      if application.depth = 0 then return {walk with requestedCapabilities := some capabilities}
      else return walk.admission application fun admission =>
        {admission with requestedCapabilities := some capabilities}

def resolveLayer (application : PendingApplication) (walk : Walk) (entry : Layer × Nat) : Except LiveError Walk := do
  let (_,closure) ← walk.closure.resolve hologram sources limits entry.1.content (layerEdge application entry.2)
  return {walk with closure := closure}

def resolveDelegated (walk : Walk) (kappa : Kappa) (edge : ManifestEdge) :
    Except LiveError (Option DelegatedCapabilities × Option ResolutionSource × Walk) := do
  let (object,closure) ← walk.closure.resolve hologram sources limits kappa edge
  let walk := {walk with closure := closure}
  match object with
  | none => return (none,none,walk)
  | some object => match DelegatedCapabilities.decode hologram object.kappa object.bytes with
    | .ok capabilities => return (some capabilities,some object.source,walk)
    | .error e => return (none,some object.source,walk.block (.invalidCapabilitySet object.kappa e.message))

-- The manifest of one child, which joins the queue under the index it was
-- counted with.
def queueChild (application : PendingApplication) (reference : ChildReference)
    (childApplicationIndex : Nat) (delegated : Option DelegatedCapabilities) (walk : Walk) : Except LiveError Walk := do
  let position := reference.position
  let applicationEdge : ManifestEdge := .childApplication application.applicationKappa position
  let listed (reference : ChildReference) (walk : Walk) : Walk :=
    {walk with children := walk.children ++ [reference]}
  let (object,closure) ← walk.closure.resolve hologram sources limits reference.applicationKappa applicationEdge
  let walk := {walk with closure := closure}
  match object with
  | none => return listed reference walk
  | some childObject =>
    let reference := {reference with applicationResolutionSource := some childObject.source}
    match decodeChildManifest hologram childObject with
    | .error reason =>
      return listed reference (walk.block (.invalidChildManifest reference.applicationKappa applicationEdge reason))
    | .ok childManifest =>
      let reference := {reference with
        requiresKappa := some childManifest.requires
        layerCount := some childManifest.layers.length}
      let walk := listed reference walk
      let pendingChild (admissionIndex : Option Nat) : PendingApplication :=
        ⟨childApplicationIndex,admissionIndex,childObject.kappa,childManifest,application.depth+1,
          application.path ++ [childObject.kappa]⟩
      match delegated with
      | none => return {walk with pending := walk.pending ++ [pendingChild none]}
      | some delegatedCapabilities =>
        return {walk with
          childAdmissions := walk.childAdmissions ++
            [⟨position,application.applicationIndex,application.applicationKappa,childApplicationIndex,
              childObject.kappa,delegatedCapabilities,none,none,[]⟩]
          pending := walk.pending ++ [pendingChild (some walk.childAdmissions.length)]}

def admitChild (application : PendingApplication) (reference : ChildReference)
    (walk : Walk) : Except LiveError Walk := do
  let childApplicationIndex := walk.applicationCount
  let walk := {walk with
    applicationCount := walk.applicationCount+1
    maxDepth := max walk.maxDepth (application.depth+1)}
  let (delegated,capabilitiesSource,walk) ← walk.resolveDelegated hologram sources limits
    reference.capabilitiesKappa (.delegatedCapabilities application.applicationKappa reference.position)
  walk.queueChild hologram sources limits application
    {reference with capabilitiesResolutionSource := capabilitiesSource} childApplicationIndex delegated

def visitChild (application : PendingApplication) (walk : Walk)
    (entry : (Kappa × Kappa) × Nat) : Except LiveError Walk :=
  let ((childKappa,capabilitiesKappa),index) := entry
  let position := min index u32Max
  let childDepth := application.depth+1
  let applicationEdge : ManifestEdge := .childApplication application.applicationKappa position
  let reference : ChildReference :=
    ⟨position,application.applicationKappa,childKappa,capabilitiesKappa,min childDepth u32Max,none,none,none,none⟩
  let listed : Walk := {walk with children := walk.children ++ [reference]}
  match childCyclePath application.path childKappa with
  | some path => .ok (listed.block (.childCycle path))
  | none =>
    if limits.maxDepth < childDepth then
      .ok (listed.block (.limitExceeded .applicationDepth limits.maxDepth childDepth (some applicationEdge)))
    else if walk.applicationsLimited then .ok listed
    else if limits.maxApplications ≤ walk.applicationCount then
      .ok {listed.block (.limitExceeded .applications limits.maxApplications (walk.applicationCount+1)
        (some applicationEdge)) with applicationsLimited := true}
    else walk.admitChild hologram sources limits application reference

def enter (walk : Walk) : Walk :=
  let walk := walk.admission application fun admission => {admission with
    primaryLayer := application.manifest.primary
    layers := plannedLayers application.manifest}
  {walk with totalLayers := saturatingAdd walk.totalLayers application.manifest.layers.length}

-- One turn of the loop; the flag says that the loop ends with it.
def visit (application : PendingApplication) (walk : Walk) : Except LiveError (Walk × Bool) := do
  let manifest := application.manifest
  let walk := walk.enter application
  if limits.maxLayers < walk.totalLayers then
    return (walk.block (.limitExceeded .layers limits.maxLayers walk.totalLayers none),true)
  else
    let walk ← walk.resolveRequires hologram sources limits application
    let walk ← manifest.layers.zipIdx.foldlM (resolveLayer hologram sources limits application) walk
    if walk.closure.halted then return (walk,true)
    else
      let walk ← manifest.children.zipIdx.foldlM (visitChild hologram sources limits application) walk
      return (walk,walk.closure.halted)

def run (sources : Sources) (limits : PlanLimits) : Nat → Walk → Except LiveError Walk
  | 0,walk => .ok walk
  | turns+1,walk => match walk.pending with
    | [] => .ok walk
    | application :: rest => do
      let (walk,ended) ← ({walk with pending := rest}).visit hologram sources limits application
      if ended then return walk else run sources limits turns walk

end Walk

structure OpenedArchive where
  identity : HoloIdentity
  manifest : AppManifest
  rootPlanManifest : AppManifest
  embedded : Table Kappa Bytes

def embeddedBlob (blob : Bytes × Bytes) : Except LiveError (Kappa × Bytes) :=
  match fromUtf8 blob.1 with
  | none => .error (.invalidHolo "embedded content kappa is not UTF-8".toList)
  | some kappa => .ok (kappa,blob.2)

def openArchive (archiveBytes : Bytes) : Except LiveError OpenedArchive := do
  requireCurrent archiveBytes
  let loader ← (hologram.fromBytes archiveBytes).mapError .invalidHolo
  let archive ← loader.intoPlan.mapError .invalidHolo
  match archive.appManifest with
  | none => .error (.capability "application planning requires an AppManifest section".toList)
  | some manifestBytes =>
    let manifest ← (hologram.decodeManifest manifestBytes).mapError fun e =>
      .invalidHolo ("decode application manifest: ".toList ++ e)
    (hologram.validateManifest manifest).mapError fun e =>
      .invalidHolo ("validate application manifest: ".toList ++ e)
    let canonicalManifest := hologram.canonicalizeManifest manifest
    let extensions ← archive.extensions.mapError .invalidHolo
    let directories := (extensions.filter fun extension => extension.1 = Directory.extensionKey).map (·.2)
    let embeddedBlobs ← archive.contentBlobs.mapError .invalidHolo
    let _ ← Directory.verifyRequired hologram manifest directories embeddedBlobs
    let embedded ← embeddedBlobs.mapM embeddedBlob
    let rootPlanManifest ← (hologram.decodeManifest canonicalManifest).mapError fun e =>
      .invalidHolo ("decode canonical application manifest: ".toList ++ e)
    return {
      identity := ⟨hologram.addressBytes archiveBytes,hex loader.fingerprint,hologram.addressBytes canonicalManifest⟩
      manifest := manifest
      rootPlanManifest := rootPlanManifest
      embedded := embedded.foldl (fun table row => table.insert row.1 row.2) ∅}

def Walk.start (limits : PlanLimits) (archive : OpenedArchive) : Walk :=
  let root : PendingApplication :=
    ⟨0,none,archive.identity.applicationKappa,archive.rootPlanManifest,0,[archive.identity.applicationKappa]⟩
  let walk : Walk := ⟨.empty,[],[],none,1,0,0,false,[root]⟩
  if limits.maxApplications < 1 then
    {walk.block (.limitExceeded .applications limits.maxApplications 1 none) with
      applicationsLimited := true
      pending := []}
  else walk

variable (objects : Table Kappa ResolvedObject)

def withSources (layers : List PlannedLayer) : List PlannedLayer :=
  layers.map fun layer => {layer with resolutionSource := (objects[layer.contentKappa]?).map (·.source)}

def Walk.report (limits : PlanLimits) (archive : OpenedArchive) (walk : Walk) : ApplicationPlanReport where
  identity := archive.identity
  primaryLayer := archive.manifest.primary
  requiresKappa := archive.manifest.requires
  layers := withSources walk.closure.objects (plannedLayers archive.manifest)
  children := walk.children
  objects := walk.closure.objects
  blockers := walk.closure.blockers ++ (if archive.manifest.primary.isNone then [.libraryArchive] else [])
  resolvedBytes := walk.closure.resolvedBytes
  referencedObjectCount := walk.closure.referenced.size
  embeddedObjectCount := walk.closure.embeddedObjectCount
  applicationCount := walk.applicationCount
  maxDepth := walk.maxDepth
  limits := limits
  requestedCapabilities := walk.requestedCapabilities
  childAdmissions := walk.childAdmissions.map fun admission =>
    {admission with layers := withSources walk.closure.objects admission.layers}
  manifest := archive.manifest

def explainOpened (archive : OpenedArchive) (limits : PlanLimits)
    (resolveLocal : Kappa → Except LiveError (Option Bytes)) : Except LiveError ApplicationPlanReport :=
  ((Walk.start limits archive).run hologram ⟨archive.embedded,resolveLocal⟩ limits limits.maxApplications).map
    (Walk.report limits archive)

def explainApplication (archiveBytes : Bytes) (limits : PlanLimits)
    (resolveLocal : Kappa → Except LiveError (Option Bytes)) : Except LiveError ApplicationPlanReport := do
  let archive ← openArchive hologram archiveBytes
  explainOpened hologram archive limits resolveLocal

structure ProviderContext where
  applicationKappa : Kappa
  position : Nat
  kind : LayerKind
  entry : Str
  aux : Str
  primary : Bool
  layerCount : Nat
  content : Bytes
deriving DecidableEq, Repr

def evaluateLayerSet (applicationKappa : Kappa) (objects : Table Kappa ResolvedObject)
    (evaluate : ProviderContext → ProviderAvailability) (layers : List PlannedLayer) :
    List PlannedLayer × List PlanBlocker :=
  let judged := layers.map fun layer => match objects[layer.contentKappa]? with
    | none => (layer,[])
    | some object =>
      let availability := evaluate ⟨applicationKappa,layer.position,layer.kind,layer.entry,layer.aux,layer.primary,
        layers.length,object.bytes⟩
      ({layer with provider := availability},match availability with
        | .unavailable reason =>
          [PlanBlocker.providerUnavailable applicationKappa layer.position (layerKindName layer.kind) layer.entry reason]
        | _ => [])
  (judged.map (·.1),(judged.map (·.2)).flatten)

structure ResolvedChild where
  position : Nat
  parentApplicationIndex : Nat
  parentApplicationKappa : Kappa
  applicationIndex : Nat
  applicationKappa : Kappa
  delegatedCapabilities : DelegatedCapabilities
  requestedCapabilities : RequestedCapabilities
  primaryLayer : Option Nat
  layers : List ResolvedLayer
deriving DecidableEq, Repr

structure ApplicationPlan where
  identity : HoloIdentity
  primaryLayer : Option Nat
  requiresKappa : Kappa
  requestedCapabilities : RequestedCapabilities
  layers : List ResolvedLayer
  children : List ResolvedChild
  objects : Table Kappa ResolvedObject
  manifest : AppManifest

namespace ApplicationPlanReport

variable (report : ApplicationPlanReport)

def evaluateProviders (evaluate : ProviderContext → ProviderAvailability) : ApplicationPlanReport :=
  let root := evaluateLayerSet report.identity.applicationKappa report.objects evaluate report.layers
  let children := report.childAdmissions.map fun child =>
    let judged := evaluateLayerSet child.applicationKappa report.objects evaluate child.layers
    ({child with layers := judged.1},judged.2)
  {report with
    layers := root.1
    childAdmissions := children.map (·.1)
    blockers := report.blockers ++ root.2 ++ (children.map (·.2)).flatten}

def runnable : Bool :=
  report.blockers.isEmpty && report.layers.all (·.provider.isAvailable) &&
    report.childAdmissions.all fun child => child.layers.all (·.provider.isAvailable)

def strictLayer (applicationKappa : Kappa) (objects : Table Kappa ResolvedObject) (layer : PlannedLayer) :
    Except LiveError ResolvedLayer :=
  match objects[layer.contentKappa]? with
  | none => .error (.conflict ("planner lost resolved content ".toList ++ layer.contentKappa ++
      " for application ".toList ++ applicationKappa ++ " layer ".toList ++ decimal layer.position))
  | some object => match layer.provider with
    | .available provider => .ok ⟨layer.position,layer.kind,layer.contentKappa,layer.entry,layer.aux,layer.primary,
        object.bytes,object.source,provider⟩
    | .unchecked => .error (.capability ("provider availability was not evaluated for application ".toList ++
        applicationKappa ++ " layer ".toList ++ decimal layer.position))
    | .unavailable reason => .error (.capability reason)

def strictChild (child : PendingChildAdmission) : Except LiveError ResolvedChild := do
  let layers ← child.layers.mapM (strictLayer child.applicationKappa objects)
  match child.requestedCapabilities with
  | none => .error (.conflict "planner lost decoded child requested capabilities".toList)
  | some requestedCapabilities => return {
      position := child.position
      parentApplicationIndex := child.parentApplicationIndex
      parentApplicationKappa := child.parentApplicationKappa
      applicationIndex := child.applicationIndex
      applicationKappa := child.applicationKappa
      delegatedCapabilities := child.delegatedCapabilities
      requestedCapabilities := requestedCapabilities
      primaryLayer := child.primaryLayer
      layers := layers}

def intoApplicationPlan : Except LiveError ApplicationPlan :=
  match report.blockers with
  | blocker :: _ => .error (blocker.intoError report.identity.applicationKappa)
  | [] => match report.requestedCapabilities with
    | none => .error (.conflict "planner lost decoded requested capabilities".toList)
    | some requestedCapabilities => do
      let layers ← report.layers.mapM (strictLayer report.identity.applicationKappa report.objects)
      let children ← report.childAdmissions.mapM (strictChild report.objects)
      return {
        identity := report.identity
        primaryLayer := report.primaryLayer
        requiresKappa := report.requiresKappa
        requestedCapabilities := requestedCapabilities
        layers := layers
        children := children
        objects := report.objects
        manifest := report.manifest}

end ApplicationPlanReport

namespace ApplicationPlan

def childDecisions (parentGrant : EffectiveGrant) (child : ResolvedChild) : List CapabilityDecision :=
  let delegationAllowed :=
    hologram.admits parentGrant.capabilities child.delegatedCapabilities.capabilities
  let childGrant := EffectiveGrant.fromDelegation child.delegatedCapabilities
  .childDelegation child.parentApplicationKappa child.applicationKappa child.delegatedCapabilities parentGrant
    delegationAllowed :: if delegationAllowed then
      [.applicationRequest child.applicationKappa (some child.parentApplicationKappa) child.requestedCapabilities
        childGrant (hologram.admits childGrant.capabilities child.requestedCapabilities.capabilities)]
    else []

def admitChildren (grants : Table Nat EffectiveGrant) :
    List ResolvedChild → List CapabilityDecision × Except LiveError (Table Nat EffectiveGrant)
  | [] => ([],.ok grants)
  | child :: rest => match grants[child.parentApplicationIndex]? with
    | none => ([],.error (.conflict ("planner lost parent application ".toList ++ child.parentApplicationKappa ++
        " for child ".toList ++ child.applicationKappa)))
    | some parentGrant =>
      let decisions := childDecisions hologram parentGrant child
      match authorizeChildDelegation hologram child.parentApplicationKappa parentGrant.kappa parentGrant.capabilities
        child.applicationKappa child.delegatedCapabilities child.requestedCapabilities with
      | .error e => (decisions,.error e)
      | .ok () =>
        let later := admitChildren
          (grants.insert child.applicationIndex (.fromDelegation child.delegatedCapabilities)) rest
        (decisions ++ later.1,later.2)

def admittedGrantsWith (plan : ApplicationPlan) (effectiveGrant : EffectiveGrant) :
    List CapabilityDecision × Except LiveError (Table Nat EffectiveGrant) :=
  let rootAllowed := hologram.admits effectiveGrant.capabilities plan.requestedCapabilities.capabilities
  let decision := CapabilityDecision.applicationRequest plan.identity.applicationKappa none plan.requestedCapabilities
    effectiveGrant rootAllowed
  match effectiveGrant.authorize hologram plan.identity.applicationKappa plan.requestedCapabilities with
  | .error e => ([decision],.error e)
  | .ok () =>
    let later := admitChildren hologram ((∅ : Table Nat EffectiveGrant).insert 0 effectiveGrant) plan.children
    (decision :: later.1,later.2)

def admittedGrants (plan : ApplicationPlan) (effectiveGrant : EffectiveGrant) :
    Except LiveError (Table Nat EffectiveGrant) := (plan.admittedGrantsWith hologram effectiveGrant).2

end ApplicationPlan
end HologramLive
