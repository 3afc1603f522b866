import HologramLive.Inference.Completion
import HologramLive.Lib.Runs
namespace HologramLive.Models
open Tables Rpc

def modelKind : Str := "model".toList
def modelMediaType : Str := "application/vnd.hologram.model+json".toList

structure ModelManifest where
  name : Str
  engine : Str
  source : Str
  size : Nat
  files : List Str
  contentBlake3 : Option Str
deriving DecidableEq

-- A file under a directory, by the names on the way to it, and its bytes.
abbrev Path := List Bytes
abbrev Files := Table Path Bytes

def ggufFileName : Str := "model.gguf".toList
def ggufPath : Path := [toUtf8 ggufFileName]
def manifestPath : Path := [toUtf8 "manifest.json".toList]

-- What stands at a path; `listed` are the sizes that the directory entries tell,
-- which differ from those of the files at a link.
inductive Content where
  | missing
  | file (bytes : Bytes)
  | directory (files : Files) (listed : Path → Nat)

structure Source where
  path : Bytes
  content : Content

-- An import that has read its source. A GGUF import places a single file.
structure Import where
  manifest : ModelManifest
  files : Files
  single : Bool

-- The BLAKE3 hex digest, and the pretty JSON text of a manifest.
structure Settings where
  hash : Bytes → Str
  toVecPretty : ModelManifest → Bytes
  fromSlice : Bytes → Except Str ModelManifest

def splitBytes (separator : UInt8) : Bytes → List Bytes
  | [] => [[]]
  | b :: rest =>
    if b = separator then [] :: splitBytes separator rest
    else match splitBytes separator rest with
      | [] => [[b]]
      | part :: later => (b :: part) :: later

variable (path : Bytes)

def fileName : Option Bytes :=
  match ((splitBytes 47 path).filter fun part => part ≠ [] ∧ part ≠ [46]).getLast? with
  | none => none
  | some name => if name = [46,46] then none else some name

def splitDot (name : Bytes) : Bytes × Option Bytes :=
  match (splitBytes 46 name).reverse with
  | [] | [_] => (name,none)
  | extension :: before =>
    let stem := [46].intercalate before.reverse
    if stem = [] then (name,none) else (stem,some extension)

def fileStem : Option Bytes := (fileName path).map fun name => (splitDot name).1
def extension : Option Bytes := (fileName path).bind fun name => (splitDot name).2

def display : Str := Inference.fromUtf8Lossy path
def nameOr (name : Option Bytes) (other : Str) : Str :=
  ((name.map display).filter (!·.isEmpty)).getD other

def lowerByte (b : UInt8) : UInt8 := if 65 ≤ b ∧ b ≤ 90 then b+32 else b

def relative (path : Path) : Str := display ([47].intercalate path)

def before (left right : Str × Nat) : Prop :=
  ((compare (toUtf8 left.1) (toUtf8 right.1)).then (compare left.2 right.2)).isLE = true
instance (left right : Str × Nat) : Decidable (before left right) := inferInstanceAs (Decidable (_ = true))

def collectFiles (files : Files) (listed : Path → Nat) : List (Str × Nat) :=
  (files.keys.map fun path => (relative path,listed path)).insertionSort before

def stripSuffix (tail text : Str) : Str :=
  match tail.reverse.isPrefixOf? text.reverse with
  | some rest => rest.reverse
  | none => text

variable (settings : Settings)

def readDirectory (source : Source) : Except LiveError Import :=
  match source.content with
  | .directory files listed =>
    if files[manifestPath]?.isNone then
      .error (.protocol (display source.path ++ " has no manifest.json; not a weightc artifact directory".toList))
    else
      let collected := collectFiles files listed
      .ok ⟨{name := stripSuffix ".wcpu".toList (nameOr (fileName source.path) "model.wcpu".toList)
            engine := "weightc".toList
            source := display source.path
            size := (collected.map (·.2)).sum
            files := collected.map (·.1)
            contentBlake3 := none},files,false⟩
  | _ => .error (.protocol (display source.path ++ " is not a .wcpu artifact directory".toList))

def readGguf (source : Source) : Except LiveError Import :=
  match source.content with
  | .file bytes =>
    if (extension source.path).map (·.map lowerByte) ≠ some (toUtf8 "gguf".toList) then
      .error (.protocol (display source.path ++ " is not a .gguf file".toList))
    else if bytes.take 4 ≠ toUtf8 "GGUF".toList then
      .error (.protocol (display source.path ++ " does not have GGUF magic bytes".toList))
    else
      .ok ⟨{name := nameOr (fileStem source.path) "model".toList
            engine := "llamacpp".toList
            source := display source.path
            size := bytes.length
            files := [ggufFileName]
            contentBlake3 := some ("blake3:".toList ++ settings.hash bytes)},
          (∅ : Files).insert ggufPath bytes,true⟩
  | _ => .error (.protocol (display source.path ++ " is not a .gguf file".toList))

def Import.digest (made : Import) : Str := settings.hash (settings.toVecPretty made.manifest)
def Import.id (made : Import) : Str := "blake3:".toList ++ made.digest settings

-- Where a call is: its blob is to be stored, its record; its old artifact directory
-- is removed, its files are copied, its single file is placed; its record is to be
-- removed, its artifact directory.
inductive Phase where
  | storing (made : Import)
  | recording (made : Import)
  | clearing (made : Import)
  | copying (made : Import) (rest : Files)
  | placing (made : Import)
  | unrecording (digest : Str)
  | dropping (digest : Str)

-- `produced` are the imports whose record was stored, with the ids they got.
structure State where
  records : Table Str ObjectMetadata
  blobs : Table Str Bytes
  dirs : Table Str Files
  busy : Option Phase
  produced : List Import

def digestOf (id : Str) : Except LiveError Str := (validateId id).map fun _ => id.drop "blake3:".toList.length

def State.metadata (s : State) (id : Str) : Except LiveError ObjectMetadata :=
  match digestOf id with
  | .error error => .error error
  | .ok digest =>
    match s.records[digest]? with
    | none => .error (.notFound ("metadata for ".toList ++ id ++ " not found".toList))
    | some metadata =>
      if metadata.kind ≠ modelKind then
        .error (.notFound ("object ".toList ++ id ++ " is not cataloged as a model".toList))
      else .ok metadata

variable (s : State)

def State.manifest (id : Str) : Except LiveError ModelManifest :=
  match digestOf id with
  | .error error => .error error
  | .ok digest =>
    match s.blobs[digest]? with
    | none => .error (.notFound ("object ".toList ++ id ++ " not found".toList))
    | some bytes => (settings.fromSlice bytes).mapError .protocol

def modelInfo (metadata : ObjectMetadata) (manifest : ModelManifest) : ModelInfo :=
  ⟨metadata.id,manifest.name,manifest.engine,manifest.source,manifest.size,metadata.createdAtMillis⟩

def State.get (id : Str) : Except LiveError ModelInfo :=
  match s.metadata id with
  | .error error => .error error
  | .ok metadata =>
    match s.manifest settings id with
    | .error error => .error error
    | .ok manifest => .ok (modelInfo metadata manifest)

def newerFirst (left right : ObjectMetadata) : Prop :=
  ((compare right.createdAtMillis left.createdAtMillis).then (compare (toUtf8 left.id) (toUtf8 right.id))).isLE = true
instance (left right : ObjectMetadata) : Decidable (newerFirst left right) := inferInstanceAs (Decidable (_ = true))

def State.listed : List ObjectMetadata :=
  ((s.records.toList.map (·.2)).filter fun metadata => metadata.kind = modelKind).insertionSort newerFirst

def State.list : Except LiveError (List ModelInfo) :=
  s.listed.mapM fun metadata =>
    match s.manifest settings metadata.id with
    | .error error => .error error
    | .ok manifest => .ok (modelInfo metadata manifest)

inductive Call where
  | importDirectory (source : Source)
  | importGguf (source : Source)
  | remove (id : Str)

-- `advance` is the next whole effect of the call, `unlink` and `copy` those of its
-- file loops; a copy that is torn leaves a part of the file; `fail` is an error or
-- a crash.
inductive Action where
  | start (call : Call)
  | advance (now : Nat)
  | unlink (path : Path)
  | copy (path : Path)
  | torn (path : Path) (n : Nat)
  | fail

def State.start : Call → State
  | .importDirectory source =>
    match readDirectory source with
    | .error _ => s
    | .ok made => {s with busy := some (.storing made)}
  | .importGguf source =>
    match readGguf settings source with
    | .error _ => s
    | .ok made => {s with busy := some (.storing made)}
  | .remove id =>
    match s.get settings id, digestOf id with
    | .ok _,.ok digest => {s with busy := some (.unrecording digest)}
    | _,_ => s

def State.record (made : Import) (now : Nat) : ObjectMetadata :=
  {id := made.id settings
   kind := modelKind
   mediaType := modelMediaType
   filename := some made.manifest.name
   size := (settings.toVecPretty made.manifest).length
   createdAtMillis := match s.records[made.digest settings]? with
    | some existing => existing.createdAtMillis
    | none => now}

def State.advance (now : Nat) : Phase → Option State
  | .storing made =>
    let digest := made.digest settings
    some {s with
      blobs := if s.blobs[digest]?.isSome then s.blobs else s.blobs.insert digest (settings.toVecPretty made.manifest)
      busy := some (.recording made)}
  | .recording made =>
    some {s with
      records := s.records.insert (made.digest settings) (s.record settings made now)
      busy := some (if made.single then .placing made else .clearing made)
      produced := s.produced ++ [made]}
  | .clearing made =>
    match s.dirs[made.digest settings]? with
    | none => some {s with
        dirs := s.dirs.insert (made.digest settings) ∅
        busy := some (.copying made made.files)}
    | some dir => if dir.isEmpty then some {s with dirs := s.dirs.erase (made.digest settings)} else none
  | .copying _ rest => if rest.isEmpty then some {s with busy := none} else none
  | .placing made =>
    match s.dirs[made.digest settings]? with
    | none => some {s with dirs := s.dirs.insert (made.digest settings) ∅}
    | some dir =>
      match dir[ggufPath]?,made.files[ggufPath]? with
      | none,some bytes =>
        some {s with dirs := s.dirs.insert (made.digest settings) (dir.insert ggufPath bytes),busy := none}
      | _,_ => some {s with busy := none}
  | .unrecording digest => some {s with records := s.records.erase digest,busy := some (.dropping digest)}
  | .dropping digest =>
    match s.dirs[digest]? with
    | none => some {s with busy := none}
    | some dir => if dir.isEmpty then some {s with dirs := s.dirs.erase digest,busy := none} else none

def Phase.removes : Phase → Option Str
  | .clearing made => some (made.digest settings)
  | .dropping digest => some digest
  | _ => none

def State.unlink (path : Path) (digest : Str) : Option State :=
  s.dirs[digest]?.bind fun dir =>
    if dir[path]?.isSome then some {s with dirs := s.dirs.insert digest (dir.erase path)} else none

def State.write (digest : Str) (path : Path) (bytes : Bytes) (busy : Option Phase) : Option State :=
  s.dirs[digest]?.map fun dir => {s with dirs := s.dirs.insert digest (dir.insert path bytes),busy := busy}

def act : Action → Option State
  | .start call => if s.busy.isNone then some (s.start settings call) else none
  | .advance now => s.busy.bind (s.advance settings now)
  | .unlink path => (s.busy.bind (Phase.removes settings)).bind (s.unlink path)
  | .copy path =>
    match s.busy with
    | some (.copying made rest) =>
      rest[path]?.bind fun bytes =>
        s.write (made.digest settings) path bytes (some (.copying made (rest.erase path)))
    | _ => none
  | .torn path n =>
    match s.busy with
    | some (.copying made rest) =>
      rest[path]?.bind fun bytes => s.write (made.digest settings) path (bytes.take n) none
    | _ => none
  | .fail => s.busy.map fun _ => {s with busy := none}

def Start : Prop :=
  (∀ (digest : Str) (metadata : ObjectMetadata),s.records[digest]? = some metadata → metadata.kind ≠ modelKind) ∧
    s.dirs = ∅ ∧ s.busy = none ∧ s.produced = []

-- A model's artifact directory has the files of the import that made its id.
def State.Holds (id : Str) : Prop :=
  ∃ made ∈ s.produced,made.id settings = id ∧ s.dirs[made.digest settings]? = some made.files

end HologramLive.Models
