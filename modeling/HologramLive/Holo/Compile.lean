import HologramLive.Holo.Plan
namespace HologramLive
open Tables Fallible Directory

inductive CompileLayerKind where
  | wasm
  | tensor
  | rootfs
  | view
  | inferenceModel
deriving DecidableEq, Repr

inductive PythonProfile where
  | rootfs
  | wasiComponent
deriving DecidableEq, Repr

structure PythonRootfsSource where
  project : Str
  entry : Str
  lock : Str
  profile : PythonProfile
  base : Str
deriving DecidableEq, Repr

inductive CompileSource where
  | python (source : PythonRootfsSource)
deriving DecidableEq, Repr

structure CompileLayer where
  kind : CompileLayerKind
  path : Option Str
  source : Option CompileSource
  entry : Option Str
  contract : Option Str
  arch : Option Str
  surface : Option Str
  engine : Option Str
deriving DecidableEq, Repr

-- An already built child archive, and the document of what is delegated to it.
structure CompileChild where
  application : Str
  capabilities : Str
deriving DecidableEq, Repr

structure CompileManifest where
  schemaVersion : Nat
  primary : Option Nat
  library : Bool
  requires : Option Str
  layers : List CompileLayer
  children : List CompileChild
deriving DecidableEq, Repr

inductive HoloPackaging where
  | fat
  | thin
deriving DecidableEq, Repr

structure CompileOptions where
  noBuildCache : Bool
deriving DecidableEq, Repr

structure HoloFile where
  appManifest : Bytes
  metadata : Bytes
  extensions : List (Str × Bytes)
  contentBlobs : List (Bytes × Bytes)
deriving DecidableEq, Repr

structure LayerBuildProvenance where
  layerIndex : Nat
  language : Str
  source : Str
deriving DecidableEq, Repr

structure BuildProvenanceReport where
  schemaVersion : Nat
  canonical : Bool
  layers : List LayerBuildProvenance
deriving DecidableEq, Repr

structure CompiledHolo where
  bytes : Bytes
  layerCount : Nat
  childCount : Nat
  packaging : HoloPackaging
  identity : HoloIdentity
  capabilitiesKappa : Kappa
  buildProvenance : BuildProvenanceReport
deriving DecidableEq, Repr

-- Where the sources are and what builds them: the files, the JSON reader, the
-- capability compiler, the View packer, the Python builders, and what the upstream
-- crate adds to a manifest and an archive.
structure Workshop where
  parent : Str → Option Str
  join : Str → Str → Str
  read : Str → Except Str Bytes
  parseManifest : Bytes → Except Str CompileManifest
  compileSource : Str → Bytes → Except LiveError Bytes
  compileDirectory : Str → Except LiveError Bytes
  canonicalArch : Str → Except LiveError Str
  validateRootfs : PythonRootfsSource → Option Str → Except LiveError Unit
  validateComponent : PythonRootfsSource → Except LiveError Unit
  compileRootfs : Str → PythonRootfsSource → Str → Bool → Except LiveError (Bytes × Str)
  compileComponent : Str → PythonRootfsSource → Except LiveError (Bytes × Str)
  componentContracts : List Str
  viewEntry : Str
  references : Bytes → Except Str (List Kappa)
  finish : HoloFile → Except Str Bytes

variable (hologram : Hologram) (workshop : Workshop)

namespace Compile

def currentManifestSchemaVersion : Nat := 4

def kindName : CompileLayerKind → Str
  | .wasm => "wasm".toList
  | .tensor => "tensor".toList
  | .rootfs => "rootfs".toList
  | .view => "view".toList
  | .inferenceModel => "inference-model".toList

variable (layer : CompileLayer)

def layerName : Str :=
  match layer.path with
  | some path => path
  | none => match layer.source with
    | some (.python source) => source.project
    | none => "<missing>".toList

def layerConfigError (message : Str) : LiveError :=
  .config ("compile layer ".toList ++ layerName layer ++ " (".toList ++ kindName layer.kind ++ "): ".toList ++ message)

def requiredField (field : String) (value : Option Str) : Except LiveError Str :=
  match value.filter fun value => !value.isEmpty with
  | some value => .ok value
  | none => .error (layerConfigError layer (kindName layer.kind ++ " layers require ".toList ++ field.toList))

def rejectAux (field : String) (value : Option Str) : Except LiveError Unit :=
  if value.isSome then
    .error (layerConfigError layer (kindName layer.kind ++ " layers do not accept ".toList ++ field.toList))
  else .ok ()

def effectiveEntry : Option Str :=
  layer.entry.or (match layer.source with
    | some (.python source) => if source.profile = .rootfs then some source.entry else none
    | none => none)

def isControl (c : Char) : Bool := c.toNat < 32 || (127 ≤ c.toNat && c.toNat < 160)

def validateEntryName (entry : Str) : Except Str Unit :=
  if entry.isEmpty then .error "must not be empty".toList
  else if 256 < utf8Len entry then .error "must be at most 256 UTF-8 bytes".toList
  else if entry.any isControl then .error "must not contain control characters".toList
  else .ok ()

def componentEntry : Str := "run".toList
def portableSurface : Str := "portable".toList

variable (kappa : Kappa)

def buildWasm : Except LiveError Layer := do
  rejectAux layer "arch" layer.arch
  rejectAux layer "surface" layer.surface
  rejectAux layer "engine" layer.engine
  match layer.entry with
  | none => .error (layerConfigError layer "Wasm layers require an explicit entry".toList)
  | some entry =>
    (validateEntryName entry).mapError fun reason => layerConfigError layer ("invalid entry: ".toList ++ reason)
    match layer.contract with
    | none => .error (layerConfigError layer "Wasm layers require an explicit canonical contract".toList)
    | some [] => .error (layerConfigError layer "contract must be a non-empty canonical identifier".toList)
    | some contract =>
      let contract ← (normalizeWasmContract hologram contract).mapError (layerConfigError layer)
      if contract ∈ workshop.componentContracts ∧ entry ≠ componentEntry then
        .error (layerConfigError layer
          ("Component v1 entry must be \"run\", got ".toList ++ quoted entry))
      else return ⟨.wasmCodemodule,kappa,entry,contract⟩

def buildTensor : Except LiveError Layer := do
  rejectAux layer "contract" layer.contract
  rejectAux layer "arch" layer.arch
  rejectAux layer "surface" layer.surface
  rejectAux layer "engine" layer.engine
  return ⟨.tensorPlan,kappa,(effectiveEntry layer).getD "session".toList,[]⟩

def rootfsArch (arch : Str) : Except LiveError Str :=
  if layer.source.isSome then workshop.canonicalArch arch else .ok arch

def buildRootfs : Except LiveError Layer := do
  rejectAux layer "contract" layer.contract
  rejectAux layer "surface" layer.surface
  rejectAux layer "engine" layer.engine
  let arch ← requiredField layer "arch" layer.arch
  let arch ← rootfsArch workshop layer arch
  return ⟨.rootfsImage,kappa,(effectiveEntry layer).getD "boot".toList,arch⟩

def buildView : Except LiveError Layer := do
  rejectAux layer "contract" layer.contract
  rejectAux layer "arch" layer.arch
  rejectAux layer "engine" layer.engine
  if layer.entry.isSome then .error (layerConfigError layer "view layers do not accept an entry field".toList)
  else
    let surface ← requiredField layer "surface" layer.surface
    if surface ≠ portableSurface then .error (layerConfigError layer
      ("unsupported surface ".toList ++ quoted surface ++ "; expected \"portable\"".toList))
    else return ⟨.view,kappa,workshop.viewEntry,surface⟩

def buildInferenceModel : Except LiveError Layer := do
  rejectAux layer "contract" layer.contract
  rejectAux layer "arch" layer.arch
  rejectAux layer "surface" layer.surface
  let entry ← requiredField layer "entry" layer.entry
  let engine ← requiredField layer "engine" layer.engine
  return ⟨.inferenceModel,kappa,entry,engine⟩

def buildLayer : Except LiveError Layer :=
  match layer.kind with
  | .wasm => buildWasm hologram workshop layer kappa
  | .tensor => buildTensor layer kappa
  | .rootfs => buildRootfs workshop layer kappa
  | .view => buildView workshop layer kappa
  | .inferenceModel => buildInferenceModel layer kappa

def componentContract : Str := "hologram:guest/component@1".toList

def validatePython (source : PythonRootfsSource) : Except LiveError Unit :=
  match source.profile with
  | .rootfs =>
    if layer.kind ≠ .rootfs then .error (layerConfigError layer "Python rootfs sources require kind rootfs".toList)
    else if layer.entry.isSome then
      .error (layerConfigError layer "Python source entry belongs inside source".toList)
    else workshop.validateRootfs source layer.arch
  | .wasiComponent =>
    if layer.kind ≠ .wasm then .error (layerConfigError layer "Python wasi-component sources require kind wasm".toList)
    else if layer.entry ≠ some componentEntry ∨ layer.contract ≠ some componentContract then
      .error (layerConfigError layer
        "Python wasi-component sources require entry \"run\" and contract \"hologram:guest/component@1\"".toList)
    else do
      rejectAux layer "arch" layer.arch
      workshop.validateComponent source

def oneOf : LiveError :=
  layerConfigError layer "exactly one of path or source is required".toList

def validateLayerSource : Except LiveError Unit :=
  match layer.path,layer.source with
  | some (_ :: _),none => .ok ()
  | none,some (.python source) => validatePython workshop layer source
  | _,_ => .error (oneOf layer)

def validateChildSource (child : CompileChild) : Except LiveError Unit :=
  if child.application.isEmpty then .error (.config "child application archive path cannot be empty".toList)
  else if child.capabilities.isEmpty then .error (.config "child delegated capability path cannot be empty".toList)
  else .ok ()

-- The manifest is tried with the address of no bytes in every place.
def validateCompileManifest (specification : CompileManifest) : Except LiveError Unit := do
  if specification.schemaVersion ≠ currentManifestSchemaVersion then
    .error (.config ("unsupported compile manifest schema ".toList ++ decimal specification.schemaVersion ++
      "; expected 4".toList))
  else if specification.library ≠ specification.primary.isNone then
    .error (.config (if specification.library then
      "a library manifest declares no primary layer; remove \"primary\" or remove \"library\"".toList
    else "a manifest without a primary layer must declare \"library\": true".toList))
  else
    let empty := hologram.addressBytes []
    let layers ← specification.layers.mapM fun layer => do
      validateLayerSource workshop layer
      buildLayer hologram workshop layer empty
    let children ← specification.children.mapM fun child => do
      validateChildSource child
      return (empty,empty)
    (hologram.validateManifest ⟨specification.primary,empty,layers,children⟩).mapError fun e =>
      .config ("invalid application manifest: ".toList ++ e)

variable (path : Str)

def readFile : Except LiveError Bytes :=
  (workshop.read path).mapError fun e => .io (path ++ ": ".toList ++ e)

variable (root : Str)

def compileCapabilities : Option Str → Except LiveError Bytes
  | none => .ok (emptyCanonical hologram)
  | some path => do
    let resolved := workshop.join root path
    let source ← readFile workshop resolved
    workshop.compileSource resolved source

def compileLayerContent (layer : CompileLayer) (options : CompileOptions) : Except LiveError (Bytes × Option Str) :=
  match layer.path,layer.source with
  | some path,none =>
    let resolved := workshop.join root path
    (if layer.kind = .view then workshop.compileDirectory resolved else readFile workshop resolved).map (·,none)
  | none,some (.python source) => match source.profile with
    | .rootfs => do
      let arch ← requiredField layer "arch" layer.arch
      let (bytes,provenance) ← workshop.compileRootfs root source arch options.noBuildCache
      return (bytes,some provenance)
    | .wasiComponent => (workshop.compileComponent root source).map fun built => (built.1,some built.2)
  | _,_ => .error (oneOf layer)

structure CompiledChild where
  application : Kappa
  capabilities : Kappa
  blobs : Table Kappa Bytes

def childBlob (blobs : Table Kappa Bytes) (blob : Bytes × Bytes) : Except LiveError (Table Kappa Bytes) :=
  let actual := hologram.addressBytes blob.2
  if toUtf8 actual ≠ blob.1 then .error (.invalidHolo ("child archive ".toList ++ path ++
    " contains a blob whose label does not match its bytes; expected ".toList ++ actual))
  else .ok (blobs.insert actual blob.2)

def openChild (archiveBytes : Bytes) : Except LiveError (AppManifest × Bytes × List (Bytes × Bytes)) := do
  let unread (e : Str) : LiveError := .invalidHolo ("read child archive ".toList ++ path ++ ": ".toList ++ e)
  requireCurrent archiveBytes
  let loader ← (hologram.fromBytes archiveBytes).mapError unread
  let plan ← loader.intoPlan.mapError unread
  match plan.appManifest with
  | none => .error (.invalidHolo ("child archive ".toList ++ path ++ " has no application manifest".toList))
  | some manifestBytes =>
    let manifest ← (hologram.decodeManifest manifestBytes).mapError fun e =>
      .invalidHolo ("decode child application manifest ".toList ++ path ++ ": ".toList ++ e)
    (hologram.validateManifest manifest).mapError fun e =>
      .invalidHolo ("invalid child application manifest ".toList ++ path ++ ": ".toList ++ e)
    if hologram.canonicalizeManifest manifest ≠ manifestBytes then
      .error (.invalidHolo ("child archive ".toList ++ path ++
        " contains a non-canonical application manifest".toList))
    else
      let extensions ← plan.extensions.mapError .invalidHolo
      let directories := (extensions.filter fun extension => extension.1 = extensionKey).map (·.2)
      let contentBlobs ← plan.contentBlobs.mapError .invalidHolo
      let _ ← verifyRequired hologram manifest directories contentBlobs
      return (manifest,manifestBytes,contentBlobs)

-- Only the child manifest's own references are looked for among its blobs.
def requireReferences (canonical : Bytes) (blobs : Table Kappa Bytes) : Except LiveError Unit := do
  let references ← (workshop.references canonical).mapError fun e =>
    .invalidHolo ("read child application references ".toList ++ path ++ ": ".toList ++ e)
  match references.find? fun reference => (blobs[reference]?).isNone with
  | some reference => .error (.config ("child archive ".toList ++ path ++
      " is not self-contained; missing referenced object ".toList ++ reference))
  | none => .ok ()

def compileChild (child : CompileChild) : Except LiveError CompiledChild := do
  validateChildSource child
  let path := workshop.join root child.application
  let archiveBytes ← readFile workshop path
  let (_,canonical,contentBlobs) ← openChild hologram path archiveBytes
  let application := hologram.addressBytes canonical
  let blobs ← contentBlobs.foldlM (childBlob hologram path) ((∅ : Table Kappa Bytes).insert application canonical)
  requireReferences workshop path canonical blobs
  let capabilitiesBytes ← compileCapabilities hologram workshop root (some child.capabilities)
  let capabilities := hologram.addressBytes capabilitiesBytes
  return ⟨application,capabilities,blobs.insert capabilities capabilitiesBytes⟩

structure Gathered where
  blobs : Table Kappa Bytes
  layers : List Layer
  children : List (Kappa × Kappa)
  provenance : List LayerBuildProvenance

def addLayer (options : CompileOptions) (gathered : Gathered) (entry : CompileLayer × Nat) :
    Except LiveError Gathered := do
  let (content,provenance) ← compileLayerContent workshop root entry.1 options
  let kappa := hologram.addressBytes content
  let layer ← buildLayer hologram workshop entry.1 kappa
  return {gathered with
    blobs := gathered.blobs.insert kappa content
    layers := gathered.layers ++ [layer]
    provenance := gathered.provenance ++ (provenance.map fun source => ⟨entry.2,"python".toList,source⟩).toList}

def addChild (gathered : Gathered) (child : CompileChild) : Except LiveError Gathered := do
  let compiled ← compileChild hologram workshop root child
  return {gathered with
    blobs := compiled.blobs.toList.foldl (fun blobs row => blobs.insert row.1 row.2) gathered.blobs
    children := gathered.children ++ [(compiled.application,compiled.capabilities)]}

def gather (specification : CompileManifest) (requiresBytes : Bytes) (options : CompileOptions) :
    Except LiveError Gathered := do
  let requires := hologram.addressBytes requiresBytes
  let layered ← specification.layers.zipIdx.foldlM (addLayer hologram workshop root options)
    ⟨(∅ : Table Kappa Bytes).insert requires requiresBytes,[],[],[]⟩
  specification.children.foldlM (addChild hologram workshop root) layered

def embeddedBlobs (packaging : HoloPackaging) (blobs : Table Kappa Bytes) : List (Bytes × Bytes) :=
  match packaging with
  | .fat => blobs.toList.map fun row => (toUtf8 row.1,row.2)
  | .thin => []

-- The application that a source manifest describes: its manifest, and the objects
-- that were gathered for it.
structure Composition where
  source : Bytes
  root : Str
  specification : CompileManifest
  gathered : Gathered
  manifest : AppManifest

def compose (options : CompileOptions) : Except LiveError Composition := do
  let source ← readFile workshop path
  let specification ← (workshop.parseManifest source).mapError fun e =>
    .config ("parse compile manifest ".toList ++ path ++ ": ".toList ++ e)
  validateCompileManifest hologram workshop specification
  let root := (workshop.parent path).getD ".".toList
  let requiresBytes ← compileCapabilities hologram workshop root specification.requires
  let gathered ← gather hologram workshop root specification requiresBytes options
  let manifest : AppManifest :=
    ⟨specification.primary,hologram.addressBytes requiresBytes,gathered.layers,gathered.children⟩
  (hologram.validateManifest manifest).mapError fun e =>
    .invalidHolo ("invalid application manifest: ".toList ++ e)
  return ⟨source,root,specification,gathered,manifest⟩

def pack (composition : Composition) (packaging : HoloPackaging) : Except LiveError Bytes := do
  let embedded := embeddedBlobs packaging composition.gathered.blobs
  let directory ← derive hologram composition.manifest embedded
  (workshop.finish {
    appManifest := hologram.canonicalizeManifest composition.manifest
    metadata := composition.source
    extensions := [(extensionKey,hologram.directoryToVec directory)]
    contentBlobs := embedded}).mapError .invalidHolo

def compileManifestWithOptions (packaging : HoloPackaging) (options : CompileOptions) :
    Except LiveError CompiledHolo := do
  let composition ← compose hologram workshop path options
  let bytes ← pack hologram workshop composition packaging
  let archive ← (hologram.fromBytes bytes).mapError .invalidHolo
  return {
    bytes := bytes
    layerCount := composition.manifest.layers.length
    childCount := composition.manifest.children.length
    packaging := packaging
    identity := ⟨hologram.addressBytes bytes,hex archive.fingerprint,
      hologram.addressBytes (hologram.canonicalizeManifest composition.manifest)⟩
    capabilitiesKappa := composition.manifest.requires
    buildProvenance := ⟨1,false,composition.gathered.provenance⟩}

end Compile
end HologramLive
