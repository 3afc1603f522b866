import HologramLive.Holo.Types
import HologramLive.Lib.Fallible
namespace HologramLive
open Tables Fallible

def currentHoloVersion : Nat := 4

def requireCurrent (bytes : Bytes) : Except LiveError Unit :=
  match bytes with
  | 72 :: 79 :: 76 :: 79 :: low :: high :: _ =>
    let version := low.toNat+256*high.toNat
    if version = currentHoloVersion then .ok ()
    else .error (.invalidHolo
      ("unsupported .holo format version ".toList ++ decimal version ++ "; expected 4".toList))
  | _ => .error (.invalidHolo "archive is missing the Hologram header".toList)

variable (hologram : Hologram)

def alternatives : List Str → Str
  | [] => []
  | [last] => "or ".toList ++ last
  | text :: rest => text ++ ", ".toList ++ alternatives rest

def normalizeWasmContract (value : Str) : Except Str Str :=
  if value ∈ hologram.wasmContracts then .ok value
  else .error ("unsupported Wasm guest contract ".toList ++ quoted value ++ "; expected ".toList ++
    alternatives (hologram.wasmContracts.map quoted))

namespace Directory

def extensionKey : Str := "https://hologram.foundation/extension/application-directory/v1".toList
def schemaVersion : Nat := 1

variable (position : Nat)

def u32 (tooMany : String) : Except LiveError Nat :=
  if position ≤ u32Max then .ok position else .error (.invalidHolo tooMany.toList)

def indexBlob (indexed : Table Kappa Nat) (blob : Bytes × Bytes) : Except LiveError (Table Kappa Nat) :=
  match fromUtf8 blob.1 with
  | none => .error (.invalidHolo "content blob kappa is not UTF-8".toList)
  | some label =>
    let expected := hologram.addressBytes blob.2
    if expected ≠ label then .error (.invalidHolo ("content blob ".toList ++ label ++
      " does not match its bytes; expected ".toList ++ expected))
    else if (indexed[label]?).isSome then
      .error (.invalidHolo ("content blob ".toList ++ label ++ " is embedded more than once".toList))
    else .ok (indexed.insert label (saturated blob.2.length))

def deriveLayer (layer : Layer) : Except LiveError HoloLayer := do
  let position ← u32 position "application has too many layers"
  let row (contract architecture surface engine : Option Str) : HoloLayer :=
    ⟨position,layerKindName layer.kind,layer.content,layer.entry,contract,architecture,surface,engine⟩
  match layer.kind with
  | .wasmCodemodule =>
    let contract ← (normalizeWasmContract hologram layer.aux).mapError .invalidHolo
    return row (some contract) none none none
  | .tensorPlan => return row none none none none
  | .rootfsImage => return row none (some layer.aux) none none
  | .view => return row none none (some layer.aux) none
  | .inferenceModel => return row none none none (some layer.aux)

def deriveChild (child : Kappa × Kappa) : Except LiveError HoloChild := do
  let position ← u32 position "application has too many children"
  return ⟨position,child.1,child.2,none,none,none,none,none⟩

def derive (manifest : AppManifest) (blobs : List (Bytes × Bytes)) : Except LiveError HoloDirectory := do
  (hologram.validateManifest manifest).mapError fun e => .invalidHolo ("invalid application manifest: ".toList ++ e)
  let indexedBlobs ← blobs.foldlM (indexBlob hologram) ∅
  let layers ← manifest.layers.zipIdx.mapM fun entry => deriveLayer hologram entry.2 entry.1
  let children ← manifest.children.zipIdx.mapM fun entry => deriveChild entry.2 entry.1
  return ⟨schemaVersion,manifest.primary,manifest.requires,layers,children,
    indexedBlobs.toList.map fun row => ⟨row.1,row.2⟩⟩

def decodeLayer (layer : HoloLayer) : Except LiveError HoloLayer :=
  if layer.kind = "wasm".toList then
    match layer.contract with
    | none => .error (.invalidHolo "Wasm directory layers require an explicit guest contract".toList)
    | some contract => do
      let normalized ← (normalizeWasmContract hologram contract).mapError .invalidHolo
      return {layer with contract := some normalized}
  else if layer.contract.isSome then
    .error (.invalidHolo (layer.kind ++ " directory layers do not accept a guest contract".toList))
  else .ok layer

def decode (bytes : Bytes) : Except LiveError HoloDirectory := do
  let directory ← (hologram.directoryFromSlice bytes).mapError fun e =>
    .invalidHolo ("decode application directory: ".toList ++ e)
  if directory.schemaVersion ≠ schemaVersion then
    .error (.invalidHolo ("unsupported application directory schema ".toList ++
      decimal directory.schemaVersion ++ "; expected 1".toList))
  else
    let layers ← directory.layers.mapM (decodeLayer hologram)
    return {directory with layers := layers}

-- The one directory an archive carries, equal to the one derived again.
def verifyRequired (manifest : AppManifest) (directories : List Bytes) (blobs : List (Bytes × Bytes)) :
    Except LiveError HoloDirectory :=
  match directories with
  | [] => .error (.invalidHolo "v4 application archive requires an embedded application directory".toList)
  | _ :: _ :: _ => .error (.invalidHolo "archive contains more than one application directory".toList)
  | [encoded] => do
    let declared ← decode hologram encoded
    let derived ← derive hologram manifest blobs
    if declared ≠ derived then .error (.invalidHolo
      "application directory does not match the manifest and embedded blobs".toList)
    else return derived

end Directory
end HologramLive
