import HologramLive.Oci.Types
namespace HologramLive
open Tables

inductive LiveError where
  | io (message : Str)
  | config (message : Str)
  | protocol (message : Str)
  | transport (message : Str)
  | authentication (message : Str)
  | authorization (message : Str)
  | capability (message : Str)
  | notFound (message : Str)
  | conflict (message : Str)
  | invalidHolo (message : Str)
  | unknownCommitState (message : Str)
deriving DecidableEq, Repr

def LiveError.message : LiveError → Str
  | io message | config message | protocol message | transport message | authentication message
  | authorization message | capability message | notFound message | conflict message
  | invalidHolo message | unknownCommitState message => message

def u32Max : Nat := 2^32-1
def u64Max : Nat := 2^64-1

def saturated (n : Nat) : Nat := min n u64Max
def saturatingAdd (a b : Nat) : Nat := saturated (a+b)

theorem saturatingAdd_saturated (a b : Nat) : saturatingAdd (saturated a) b = saturated (a+b) := by
  simp only [saturatingAdd,saturated]
  omega

theorem saturated_mono (le : a ≤ b) : saturated a ≤ saturated b := by
  simp only [saturated]
  omega

def hexDigits : Str := "0123456789abcdef".toList
def hex (bytes : Bytes) : Str :=
  bytes.flatMap fun byte => [hexDigits.getD (byte.toNat/16) '0',hexDigits.getD (byte.toNat%16) '0']

def quoted (text : Str) : Str := '"' :: text ++ ['"']

abbrev Kappa := Str

inductive LayerKind where
  | wasmCodemodule
  | tensorPlan
  | rootfsImage
  | view
  | inferenceModel
deriving DecidableEq, Repr

def layerKindName : LayerKind → Str
  | .wasmCodemodule => "wasm".toList
  | .tensorPlan => "tensor".toList
  | .rootfsImage => "rootfs".toList
  | .view => "view".toList
  | .inferenceModel => "inference-model".toList

structure Layer where
  kind : LayerKind
  content : Kappa
  entry : Str
  aux : Str
deriving DecidableEq, Repr

-- Each child is an application and the capability set delegated to it.
structure AppManifest where
  primary : Option Nat
  requires : Kappa
  layers : List Layer
  children : List (Kappa × Kappa)
deriving DecidableEq, Repr

structure Capabilities where
  storageRoots : List Kappa
  storageQuotaBytes : Nat
  networkFetchEndpoints : List Str
  networkAnnounceEndpoints : List Str
  publishChannels : List Kappa
  subscribeChannels : List Kappa
  memoryMaxBytes : Nat
  cpuTimePerEventMs : Nat
  priorityWeight : Nat
deriving DecidableEq, Repr

def emptyCapabilities : Capabilities := ⟨[],0,[],[],[],[],0,0,0⟩

structure HoloLayer where
  position : Nat
  kind : Str
  contentKappa : Kappa
  entry : Str
  contract : Option Str
  architecture : Option Str
  surface : Option Str
  engine : Option Str
deriving DecidableEq, Repr

-- The optional fields are for plans; a directory leaves them out.
structure HoloChild where
  position : Nat
  applicationKappa : Kappa
  capabilitiesKappa : Kappa
  parentApplicationKappa : Option Kappa
  depth : Option Nat
  requiresKappa : Option Kappa
  applicationResolutionSource : Option Str
  capabilitiesResolutionSource : Option Str
deriving DecidableEq, Repr

structure HoloBlob where
  kappa : Kappa
  byteLength : Nat
deriving DecidableEq, Repr

structure HoloDirectory where
  schemaVersion : Nat
  primaryLayer : Option Nat
  requiresKappa : Kappa
  layers : List HoloLayer
  children : List HoloChild
  blobs : List HoloBlob
deriving DecidableEq, Repr

-- What the archive loader gives: each blob under its label, each extension
-- under its key.
structure ArchivePlan where
  appManifest : Option Bytes
  extensions : Except Str (List (Str × Bytes))
  contentBlobs : Except Str (List (Bytes × Bytes))

structure HoloLoader where
  fingerprint : Bytes
  intoPlan : Except Str ArchivePlan

-- What comes from crates that are not in the repository: the archive loader, the
-- manifest and capability codecs, content addressing and the directory's JSON.
structure Hologram where
  addressBytes : Bytes → Kappa
  fromBytes : Bytes → Except Str HoloLoader
  decodeManifest : Bytes → Except Str AppManifest
  validateManifest : AppManifest → Except Str Unit
  canonicalizeManifest : AppManifest → Bytes
  toCapabilities : Bytes → Except Str Capabilities
  canonicalizeCapabilities : Capabilities → Bytes
  admits : Capabilities → Capabilities → Bool
  directoryToVec : HoloDirectory → Bytes
  directoryFromSlice : Bytes → Except Str HoloDirectory
  wasmContracts : List Str

-- A manifest that was read and is valid reads back from its canonical bytes.
def Hologram.ManifestReadsBack (hologram : Hologram) : Prop :=
  ∀ bytes manifest,hologram.decodeManifest bytes = .ok manifest → hologram.validateManifest manifest = .ok () →
    hologram.decodeManifest (hologram.canonicalizeManifest manifest) = .ok manifest

end HologramLive
