import HologramLive.Oci.Machine
import HologramLive.Artifact.Reference
namespace HologramLive.Import
open Tables

abbrev Path := List Str

-- What stands at a path: a file that reads to its end, one that cannot be opened,
-- one whose read fails after some bytes, and a directory that can be listed or not.
inductive Node where
  | file (bytes : Bytes)
  | sealed (size : Nat) (error : Str)
  | torn (size : Nat) (bytes : Bytes) (error : Str)
  | dir
  | closed (error : Str)
deriving DecidableEq, Repr

-- The file system the source lies in. Names that are not UTF-8 are left out.
abbrev Volume := Table Path Node

def notFoundText : Str := "No such file or directory (os error 2)".toList
def notDirectoryText : Str := "Not a directory (os error 20)".toList
def isDirectoryText : Str := "Is a directory (os error 21)".toList
def notUtf8Text : Str := "stream did not contain valid UTF-8".toList

def display (path : Path) : Str := path.flatMap fun part => '/' :: part

variable (v : Volume)

def isDir (path : Path) : Bool := match v[path]? with
  | some .dir | some (.closed _) => true
  | _ => false
def isFile (path : Path) : Bool := match v[path]? with
  | some (.file _) | some (.sealed _ _) | some (.torn _ _ _) => true
  | _ => false

def readDir (dir : Path) : Except Str (List Str) := match v[dir]? with
  | some .dir => .ok (v.keys.filterMap fun path => if path.dropLast = dir then path.getLast? else none)
  | some (.closed error) => .error error
  | some _ => .error notDirectoryText
  | none => .error notFoundText

def read (path : Path) : Except Str Bytes := match v[path]? with
  | some (.file bytes) => .ok bytes
  | some (.sealed _ error) | some (.torn _ _ error) => .error error
  | some .dir | some (.closed _) => .error isDirectoryText
  | none => .error notFoundText

def readToString (path : Path) : Except Str Str := do
  let bytes ← read v path
  match fromUtf8 bytes with
  | some text => return text
  | none => .error notUtf8Text

def errorText : OciStoreError → Str
  | .invalid what value => "invalid ".toList ++ what ++ ": ".toList ++ quoted value
  | .notInRepository repo digest => digest ++ " is not linked in repository ".toList ++ repo
  | .unknownRepository repo => "unknown repository ".toList ++ repo
  | .unknownUpload id => "unknown upload ".toList ++ id
  | .digestMismatch claimed => "the bytes do not hash to ".toList ++ claimed
  | .offsetMismatch expected got => "chunk starts at ".toList ++ decimal got ++ ", expected ".toList ++ decimal expected
  | .missingReferences digests => "missing references: ".toList ++ ", ".toList.intercalate digests
  | .layout message | .io message => message
  | .locked => "another process holds the registry store".toList

-- The reference's storage root inside its volume.
def v2 (source : Path) : Path := source ++ ["docker".toList,"registry".toList,"v2".toList]
def manifestsDir : Str := "_manifests".toList
def layersDir : Str := "_layers".toList

-- The directories still to look into are a stack. Each of the volume is on it once
-- at most, so that as many turns as the volume has rows empty it.
def repositoriesFrom (v : Volume) : Nat → List (Path × Str) → List Str → Except OciStoreError (List Str)
  | 0,_,found => .ok found
  | _+1,[],found => .ok found
  | turns+1,(dir,name) :: pending,found => match readDir v dir with
    | .error e => .error (.io ("read ".toList ++ display dir ++ ": ".toList ++ e))
    | .ok entries =>
      let isRepository := entries.contains manifestsDir || entries.contains layersDir
      let deeper := entries.filter fun entry => entry.head? ≠ some '_' && isDir v (dir ++ [entry])
      let children := deeper.map fun entry => (dir ++ [entry],if name = [] then entry else name ++ '/' :: entry)
      repositoriesFrom v turns (children.reverse ++ pending) (if isRepository && name ≠ [] then found ++ [name] else found)

def repositories (root : Path) : Except OciStoreError (List Str) :=
  (repositoriesFrom v (v.keys.length+1) [(root,[])] []).map fun found => found.insertionSort fun a b => (compare a b).isLE

-- A link file holds its digest, and must hold the one its path names.
def readLink (link : Path) (named : Str) : Except Str Digest :=
  match readToString v link with
  | .error e => .error ("read the link: ".toList ++ e)
  | .ok text =>
    let text := trimWhitespace text
    if text ≠ named then .error ("the link holds ".toList ++ quoted text ++ ", its path names ".toList ++ named)
    else (Digest.parse text).mapError errorText

-- Every `<algorithm>/<hex>/link` under a directory: the digest, or why it could not
-- be read, and the file. Names come out in order, so the rows are sorted.
def linksUnder (dir : Path) : List (Except Str Digest × Path) :=
  match readDir v dir with
  | .error _ => []
  | .ok algorithms => algorithms.flatMap fun algorithm => match readDir v (dir ++ [algorithm]) with
    | .error _ => []
    | .ok hexes => hexes.map fun hex =>
      let link := dir ++ [algorithm,hex,"link".toList]
      (readLink v link (algorithm ++ ':' :: hex),link)

def blobData (root : Path) (digest : Digest) : Path :=
  root ++ ["blobs".toList,digest.algorithm.name,digest.hex.take 2,digest.hex,"data".toList]

def Node.size : Node → Nat
  | .file bytes => bytes.length
  | .sealed size _ | .torn size _ _ => size
  | .dir | .closed _ => 0

def readManifest (data : Path) : Except Str (Option Bytes) := match v[data]? with
  | none => .ok none
  | some node =>
    if manifestMax < node.size then
      .error (decimal node.size ++ " bytes, over the ".toList ++ decimal manifestMax ++ " byte manifest limit".toList)
    else match read v data with
      | .ok bytes => .ok (some bytes)
      | .error e => .error ("read: ".toList ++ e)

def imageIndexType : Str := "application/vnd.oci.image.index.v1+json".toList

-- The media type the reference serves a stored manifest with.
def storedMediaType (crates : Crates) (bytes : Bytes) : Str :=
  let body := match crates.fromSlice bytes with
    | .ok body => body
    | .error _ => .null
  match (body.get "mediaType".toList).bind OciJson.asStr with
  | some declared => declared
  | none => match (body.get "manifests".toList).bind OciJson.asArray with
    | some _ => imageIndexType
    | none => defaultMediaType

def frameSize : Nat := 4*1024*1024

def frames (size : Nat) : Nat → Bytes → List Bytes
  | 0,_ => []
  | turns+1,bytes => if bytes = [] then [] else bytes.take size :: frames size turns (bytes.drop size)

def opened (data : Path) : Except Str (List Bytes × Option Str) := match v[data]? with
  | some (.file bytes) => .ok (frames frameSize bytes.length bytes,none)
  | some (.torn _ bytes error) =>
    let whole := bytes.take (bytes.length/frameSize*frameSize)
    .ok (frames frameSize whole.length whole,some error)
  | some (.sealed _ error) => .error error
  | some .dir | some (.closed _) => .ok ([],some isDirectoryText)
  | none => .error notFoundText

theorem frames_flatten (positive : 0 < size) (enough : bytes.length ≤ turns) :
    (frames size turns bytes).flatten = bytes := by
  induction turns generalizing bytes with
  | zero =>
    have empty : bytes = [] := List.length_eq_zero_iff.mp (by omega)
    rw [empty]
    rfl
  | succ turns ih =>
    unfold frames
    split
    · rename_i empty
      rw [empty]
      rfl
    · rename_i given
      have long : 0 < bytes.length := List.length_pos_iff.mpr given
      have rest : (bytes.drop size).length ≤ turns := by
        rw [List.length_drop]; omega
      rw [List.flatten_cons,ih rest,List.take_append_drop]

end HologramLive.Import

namespace HologramLive.Import
open Tables

inductive ProblemKind where
  | missing
  | mismatch
  | unreadable
  | refused
  | tagDangling
deriving DecidableEq, Repr

-- Whether a problem means that something the reference serves did not come over.
def ProblemKind.fails (kind : ProblemKind) : Bool := kind ≠ .missing

structure ImportProblem where
  kind : ProblemKind
  repository : Str
  path : Path
  detail : Str
deriving DecidableEq, Repr

structure ImportReport where
  repositories : Nat
  blobsCopied : Nat
  bytesCopied : Nat
  blobsLinked : Nat
  manifests : Nat
  tags : Nat
  problems : List ImportProblem
deriving DecidableEq, Repr

def ImportReport.failed (report : ImportReport) : Bool := report.problems.any fun problem => problem.kind.fails
def ImportReport.added (report : ImportReport) : Nat :=
  report.blobsCopied+report.blobsLinked+report.manifests+report.tags

abbrev Planner := Str → Bytes → Except Str (Str × ManifestPlan)

-- What an import takes from outside: the hashes, the JSON reader and the registry's
-- validator, which are the same in every run, and the generator of upload
-- identifiers and the clock, which are not.
structure Reading where
  crates : Crates
  plan : Planner

structure World extends Reading where
  draw : OciStore → UploadId
  clock : OciStore → Nat

-- An import under way: the store, the report, and the store as each write left it,
-- which is what an interruption there leaves behind.
structure Importing where
  store : OciStore
  report : ImportReport
  past : List OciStore

def Importing.wrote (j : Importing) (s : OciStore) : Importing := {j with store := s,past := j.past ++ [s]}
def Importing.passed (j : Importing) (states : List OciStore) : Importing := {j with past := j.past ++ states}
def Importing.problem (j : Importing) (repo : RepoName) (kind : ProblemKind) (path : Path) (detail : Str) : Importing :=
  {j with report := {j.report with problems := j.report.problems ++ [⟨kind,repo.text,path,detail⟩]}}

-- The stores a finish passes through before its transaction: the blob in its place,
-- under its other names, and the record of its parts.
def finishing (crates : Crates) (s : OciStore) (id : UploadId) (claimed : Digest) : List OciStore :=
  match s.sessions[id]? with
  | none => []
  | some state => match s.stagedOf id with
    | none => []
    | some (session,staged) =>
      if crates.digestOf claimed.algorithm staged ≠ claimed then []
      else
        let gone := {s with
          sessions := s.sessions.erase id
          uploadSessions := s.uploadSessions.erase state.kappaId
          staging := s.staging.erase state.kappaId}
        let placed := (s.blobPut claimed staged).2
        let named := placed.linkAdditional claimed (crates.additional claimed staged)
        [{gone with toContent := placed},{gone with toContent := named},
          {gone with toContent := named.persistPartManifest crates session.parts}]

-- The stores a manifest put passes through before its transaction: the bytes, their
-- other names, and the alias rows.
def putting (crates : Crates) (s : OciStore) (repo : RepoName) (digest : Digest) (bytes : Bytes) (plan : ManifestPlan) :
    List OciStore :=
  if crates.digestOf digest.algorithm bytes ≠ digest ∨ s.missingReferences repo plan.mustExist ≠ [] then []
  else
    let placed := (s.blobPut digest bytes).2
    let named := placed.linkAdditional digest (crates.additional digest bytes)
    [{s with toContent := placed},{s with toContent := named},
      {s with toContent := named.aliasPut digest (otherName crates digest bytes)}]

def linksAddBulk (c : Content) (rows : List (RepoName × Digest × Link)) : Content :=
  rows.foldl (fun held row => held.linkAdd row.1 row.2.1 row.2.2.kind row.2.2.mediaType) c

-- `tag_set`: the link is looked up under the name itself, and the kappa store's
-- namespace is resolved before the tag moves.
def tagSet (s : OciStore) (repo : RepoName) (tag : Tag) (digest : Digest) : Except OciStoreError Unit × OciStore :=
  match s.linkGet repo digest with
  | none => (.error (Content.notHere repo digest),s)
  | some link =>
    if link.kind = .blob then (.error (Content.notHere repo digest),s)
    else (.ok (),{s.namespaceResolveOrCreate repo with toContent := s.toContent.tagSet repo tag digest})

def isOk {ε α : Type} : Except ε α → Bool
  | .ok _ => true
  | .error _ => false

section Run
variable (w : World) (v : Volume) (root : Path) (repo : RepoName)

def appendAll (id : UploadId) : List Bytes → Nat → Importing → Except OciStoreError (Nat × Importing)
  | [],offset,j => .ok (offset,j)
  | frame :: rest,offset,j => match j.store.uploadAppend id offset frame (w.clock j.store) with
    | (.error e,_) => .error e
    | (.ok offset,s) => appendAll id rest offset (j.wrote s)

def copy (digest : Digest) (data : Path) (j : Importing) : Except OciStoreError Importing :=
  match opened v data with
  | .error e => .ok (j.problem repo .unreadable data ("open: ".toList ++ e))
  | .ok (frames,failure) =>
    let (id,begun) := j.store.uploadBegin repo (w.draw j.store) (w.clock j.store)
    match appendAll w id frames 0 (j.wrote begun) with
    | .error e => .error e
    | .ok (offset,j) => match failure with
      | some e => match j.store.uploadCancel id with
        | (.error e,_) => .error e
        | (.ok _,s) => .ok ((j.wrote s).problem repo .unreadable data ("read: ".toList ++ e))
      | none => match OciStore.uploadFinish w.crates j.store id digest with
        | (.ok _,s) =>
          let j := (j.passed (finishing w.crates j.store id digest)).wrote s
          .ok {j with report := {j.report with
            blobsCopied := j.report.blobsCopied+1
            bytesCopied := j.report.bytesCopied+offset}}
        | (.error (.digestMismatch _),s) =>
          .ok ((j.wrote s).problem repo .mismatch data ("the bytes do not hash to ".toList ++ digest.asStr))
        | (.error e,_) => .error e

-- One layer link. What the store holds for another repository is kept for the one
-- transaction at the end.
def layer (acc : Importing × List Digest) (found : Except Str Digest × Path) : Except OciStoreError (Importing × List Digest) :=
  let (j,shared) := acc
  match found.1 with
  | .error detail => .ok (j.problem repo .unreadable found.2 detail,shared)
  | .ok digest =>
    if isOk (j.store.requireLink repo digest) then .ok (j,shared)
    else
      let data := blobData root digest
      if !isFile v data then
        .ok (j.problem repo .missing data (digest.asStr ++ " is linked but not held".toList),shared)
      else if (j.store.aliasOf digest).isSome && isOk (j.store.resolveStored repo digest) then .ok (j,shared ++ [digest])
      else (copy w v repo digest data j).map fun j => (j,shared)

def repoDir (name : Str) : Path := root ++ ["repositories".toList] ++ name.splitOn '/'

def layers (j : Importing) : Except OciStoreError Importing := do
  let (j,shared) ← (linksUnder v (repoDir root repo.text ++ [layersDir])).foldlM (layer w v root repo) (j,[])
  if shared = [] then return j
  else
    let rows := shared.map fun digest => (repo,digest,(⟨.blob,none⟩ : Link))
    let j := j.wrote {j.store with toContent := linksAddBulk j.store.toContent rows}
    return {j with report := {j.report with blobsLinked := j.report.blobsLinked+shared.length}}

structure Waiting where
  digest : Digest
  data : Path
  mediaType : Str
  bytes : Bytes
  plan : ManifestPlan

-- One revision: what is not linked yet and can be read and planned waits.
def revision (acc : Importing × List Waiting) (found : Except Str Digest × Path) : Importing × List Waiting :=
  let (j,waiting) := acc
  match found.1 with
  | .error detail => (j.problem repo .unreadable found.2 detail,waiting)
  | .ok digest =>
    if isOk (j.store.requireLink repo digest) then (j,waiting)
    else
      let data := blobData root digest
      match readManifest v data with
      | .ok none =>
        (j.problem repo .missing data ("manifest ".toList ++ digest.asStr ++ " is linked but not held".toList),waiting)
      | .error detail => (j.problem repo .unreadable data detail,waiting)
      | .ok (some bytes) => match w.plan (storedMediaType w.crates bytes) bytes with
        | .ok (mediaType,plan) => (j,waiting ++ [⟨digest,data,mediaType,bytes,plan⟩])
        | .error detail => (j.problem repo .refused data detail,waiting)

def put (acc : Importing × List Waiting) (item : Waiting) : Except OciStoreError (Importing × List Waiting) :=
  let (j,still) := acc
  match OciStore.manifestPut w.crates j.store repo (.digest item.digest) item.mediaType item.bytes item.plan with
  | (.ok _,s) =>
    let j := (j.passed (putting w.crates j.store repo item.digest item.bytes item.plan)).wrote s
    .ok ({j with report := {j.report with manifests := j.report.manifests+1}},still)
  | (.error (.missingReferences _),s) => .ok (j.wrote s,still ++ [item])
  | (.error (.digestMismatch _),s) =>
    .ok ((j.wrote s).problem repo .mismatch item.data ("the bytes do not hash to ".toList ++ item.digest.asStr),still)
  | (.error e,_) => .error e

def passes : Nat → List Waiting → Importing → Except OciStoreError (Importing × List Waiting)
  | 0,waiting,j => .ok (j,waiting)
  | turns+1,waiting,j => do
    let (j,still) ← waiting.foldlM (put w repo) (j,[])
    if still = [] ∨ still.length = waiting.length then return (j,still) else passes turns still j

def refusal (j : Importing) (item : Waiting) : Importing :=
  let missing := (item.plan.mustExist.filter fun needed => !isOk (j.store.requireLink repo needed)).map Digest.asStr
  j.problem repo .refused item.data ("manifest ".toList ++ item.digest.asStr ++
    " names what this repository does not hold: ".toList ++ ", ".toList.intercalate missing)

def manifests (j : Importing) : Except OciStoreError Importing := do
  let (j,waiting) := (linksUnder v (repoDir root repo.text ++ [manifestsDir,"revisions".toList])).foldl (revision w v root repo) (j,[])
  let (j,waiting) ← passes w repo (waiting.length+1) waiting j
  return waiting.foldl (refusal repo) j

def tagLink (link : Path) : Except Str Digest := do
  let text ← (readToString v link).mapError fun e => "read the link: ".toList ++ e
  (Digest.parse (trimWhitespace text)).mapError errorText

def tag (dir : Path) (j : Importing) (name : Str) : Except OciStoreError Importing :=
  let path := dir ++ [name]
  let link := path ++ ["current".toList,"link".toList]
  match Tag.parse name with
  | .error e => .ok (j.problem repo .unreadable path (errorText e))
  | .ok tag => match tagLink v link with
    | .error detail => .ok (j.problem repo .unreadable link detail)
    | .ok digest =>
      let j := j.wrote (j.store.namespaceResolveOrCreate repo)
      if (j.store.tagResolve repo tag).toOption = some digest then .ok j
      else match tagSet j.store repo tag digest with
        | (.ok _,s) =>
          let j := j.wrote s
          .ok {j with report := {j.report with tags := j.report.tags+1}}
        | (.error (.notInRepository _ _),_) =>
          .ok (j.problem repo .tagDangling link ("tag ".toList ++ name ++ " points at ".toList ++ digest.asStr ++
            ", which was not imported".toList))
        | (.error e,_) => .error e

def tags (j : Importing) : Except OciStoreError Importing :=
  let dir := repoDir root repo.text ++ [manifestsDir,"tags".toList]
  match readDir v dir with
  | .error _ => .ok j
  | .ok names => names.foldlM (tag v repo dir) j

end Run

def repository (w : World) (v : Volume) (root : Path) (j : Importing) (name : Str) : Except OciStoreError Importing :=
  match RepoName.parse name with
  | .error e =>
    let problem : ImportProblem := ⟨.unreadable,name,root ++ ["repositories".toList] ++ name.splitOn '/',errorText e⟩
    .ok {j with report := {j.report with problems := j.report.problems ++ [problem]}}
  | .ok repo => do
    let j := {j with report := {j.report with repositories := j.report.repositories+1}}
    let j ← layers w v root repo j
    let j ← manifests w v root repo j
    tags v root repo j

def names (v : Volume) (source : Path) : Except OciStoreError (List Str) :=
  let repos := v2 source ++ ["repositories".toList]
  if !isDir v (v2 source ++ ["blobs".toList]) && !isDir v repos then
    .error (.layout (display source ++ " is not a Docker Registry volume: it has no docker/registry/v2".toList))
  else if isDir v repos then repositories v repos else .ok []

def start (s : OciStore) : Importing := ⟨s,⟨0,0,0,0,0,0,[]⟩,[]⟩

def «import» (w : World) (v : Volume) (source : Path) (s : OciStore) : Except OciStoreError Importing := do
  let found ← names v source
  found.foldlM (repository w v (v2 source)) (start s)

end HologramLive.Import
