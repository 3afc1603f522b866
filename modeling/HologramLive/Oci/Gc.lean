import HologramLive.Oci.Manifests
import HologramLive.Lib.Worklist
namespace HologramLive
open Tables

def gcPage : Nat := 1000

structure GcOptions where
  dryRun : Bool
  deleteUntagged : Bool
deriving DecidableEq, Repr

structure GcReport where
  marked : Nat
  sweptBlobs : Nat
  sweptManifests : Nat
  removedLinks : Nat
deriving DecidableEq, Repr

-- One repository as mark sees it. `tagged` holds the digests its tags name.
structure GcRepo where
  name : RepoName
  links : List (Digest × LinkKind)
  tags : List Tag
  tagged : KeySet Digest

structure MarkState where
  marked : KeySet Digest
  counted : KeySet Digest
  lines : List Str

def sortDedup {α : Type} [Ord α] [Std.TransOrd α] (rows : List α) : List α :=
  (rows.foldl (fun kept row => kept.insert row) (∅ : KeySet α)).toList

namespace Content

variable (c : Content)

def reposPage (after : Option RepoName) (limit : Nat) : List RepoName :=
  (c.repos.toList.filter fun repo => after.all fun last => compare last repo == .lt).take limit

def linksOf (repo : RepoName) : List (Digest × Link) := rowsUnder c.links repo

def linksPage (repo : RepoName) (after : Option Digest) (limit : Nat) : List (Digest × Link) :=
  ((c.linksOf repo).filter fun row => after.all fun last => compare last row.1 == .lt).take limit

def objectRows : List (Digest × Bool) := c.objects.toList

def objectsBackfillPlan : List (Digest × Bool) :=
  if c.objectsBackfilled then []
  else (c.links.toList.foldl (fun out row =>
      match c.objects[row.1.2]? with
      | some _ => out
      | none =>
        let before := match out[row.1.2]? with
          | some manifest => manifest
          | none => false
        out.insert row.1.2 (before || decide (row.2.kind ≠ .blob))) (∅ : Table Digest Bool)).toList

def objectsBackfill : Content :=
  if c.objectsBackfilled then c
  else {c with
    objects := c.links.toList.foldl (fun objects row => match objects[row.1.2]? with
      | some _ => objects
      | none => objects.insert row.1.2 (decide (row.2.kind ≠ .blob))) c.objects
    objectsBackfilled := true}

def names (digest : Digest) : List Digest := digest :: (c.aliasOf digest).toList

def takeDigest (node : OciJson) : Except OciStoreError (List Digest) :=
  match (node.get "digest".toList).bind OciJson.asStr with
  | none => .ok []
  | some text => (Digest.parse text).map fun digest => [digest]

def takeAll : List OciJson → Except OciStoreError (List Digest)
  | [] => .ok []
  | node :: rest => match takeDigest node with
    | .error e => .error e
    | .ok taken => match takeAll rest with
      | .error e => .error e
      | .ok more => .ok (taken ++ more)

def itemsUnder (value : OciJson) (key : Str) : List OciJson := ((value.get key).bind OciJson.asArray).getD []

variable (crates : Crates)

def gcReferences (c : Content) (repo : RepoName) (digest : Digest) : Except OciStoreError (List Digest) :=
  if repo ∉ c.repos then .error (.unknownRepository repo.text)
  else match c.manifestRead repo digest with
    | .error e => .error e
    | .ok manifest => match crates.fromSlice manifest.bytes with
      | .error error => .error (.io (repo.text ++ ": manifest ".toList ++ digest.asStr ++ " cannot be parsed (".toList ++
          error ++ "); nothing was swept".toList))
      | .ok value => takeAll ((value.get "config".toList).toList ++ itemsUnder value "layers".toList ++
          itemsUnder value "manifests".toList ++ itemsUnder value "fsLayers".toList)

def gcReferrers (repo : RepoName) (digest : Digest) : List Digest :=
  (c.names digest).flatMap fun subject => (c.referrersOf repo subject).map (·.digest)

def gcFound (c : Content) (repo : RepoName) (digest : Digest) : Except OciStoreError (List Digest) :=
  match c.gcReferences crates repo digest with
  | .error e => .error e
  | .ok references => .ok (digest :: references ++ c.gcReferrers repo digest)

def gcCandidates (repos : List GcRepo) : List (RepoName × Digest) :=
  repos.flatMap fun repo => (repo.links.filter fun link => link.2 ≠ .blob).map fun link => (repo.name,link.1)

-- The manifest links found under a name, each once for each of its names.
def linkedAsManifest (candidates : List (RepoName × Digest)) (name : Digest) : List (RepoName × Digest) :=
  candidates.flatMap fun item => ((c.names item.2).filter fun other => other = name).map fun _ => item

def gcRoots (deleteUntagged : Bool) (repos : List GcRepo) : List (RepoName × Digest) :=
  repos.flatMap fun repo => ((repo.links.filter fun link => link.2 ≠ .blob).filter fun link =>
    !deleteUntagged || (c.names link.1).any fun name => repo.tagged.contains name).map fun link => (repo.name,link.1)

def markDigest (digest : Digest) (st : MarkState) : Bool × MarkState :=
  ((c.names digest).any fun name => !st.marked.contains name,
    {st with
      counted := st.counted.insert digest
      marked := (c.names digest).foldl (fun marked name => marked.insert name) st.marked})

def markFound (c : Content) (candidates : List (RepoName × Digest)) (repo : RepoName) :
    Bool → List Digest → MarkState → List (RepoName × Digest) × MarkState
  | _,[],st => ([],st)
  | first,reference :: rest,st =>
    let (newly,marked) := c.markDigest reference st
    let told := if newly && !first then
        {marked with lines := marked.lines ++ [repo.text ++ ": marking blob ".toList ++ reference.asStr]}
      else marked
    let pushed := (c.names reference).flatMap (c.linkedAsManifest candidates)
    let (more,final) := c.markFound candidates repo false rest told
    (pushed ++ more,final)

def markVisit (c : Content) (candidates : List (RepoName × Digest)) :
    Worklist.Visit (RepoName × Digest) MarkState (OciStoreError × List Str) := fun item st =>
  let lines := st.lines ++ [item.1.text ++ ": marking manifest ".toList ++ item.2.asStr ++ " ".toList]
  match c.gcFound crates item.1 item.2 with
  | .error e => .error (e,lines)
  | .ok found => .ok (c.markFound candidates item.1 true found {st with lines := lines})

def gcMark (c : Content) (deleteUntagged : Bool) (repos : List GcRepo) : Except (OciStoreError × List Str) MarkState :=
  let candidates := gcCandidates repos
  let start : MarkState := ⟨∅,∅,repos.map fun repo => repo.name.text⟩
  (Worklist.walk (c.markVisit crates candidates) candidates.length (c.gcRoots deleteUntagged repos).reverse [] start).map
    (·.2)

def isMarked (marked : KeySet Digest) (digest : Digest) : Bool :=
  (c.names digest).any fun name => marked.contains name

def unmarkedLinks (marked : KeySet Digest) (repos : List GcRepo) (blob : Bool) : List (GcRepo × Digest) :=
  repos.flatMap fun repo => ((repo.links.filter fun link => !c.isMarked marked link.1).filter fun link =>
    decide (link.2 = .blob) == blob).map fun link => (repo,link.1)

def joinWith (separator : Str) : List Str → Str
  | [] => []
  | [text] => text
  | text :: rest => text ++ separator ++ joinWith separator rest

def eligibleLine (entry : GcRepo × Digest) : Str :=
  "manifest eligible for deletion: \x7b".toList ++ entry.1.name.text ++ " ".toList ++ entry.2.asStr ++ " [".toList ++
    joinWith " ".toList (entry.1.tags.map (·.text)) ++ "]\x7d".toList

def summaryLine (marked blobs manifests : Nat) : Str :=
  "\n".toList ++ decimal marked ++ " blobs marked, ".toList ++ decimal blobs ++ " blobs and ".toList ++
    decimal manifests ++ " manifests eligible for deletion".toList

def blobLine (digest : Digest) : Str := "blob eligible for deletion: ".toList ++ digest.asStr
def layerLine (repo : RepoName) (digest : Digest) : Str :=
  repo.text ++ ": layer link eligible for deletion: ".toList ++ digest.asStr

def blobDelete (digest : Digest) : Content := {c with blobs := c.blobs.erase digest}

-- A swept object: its row, every link to it, every referrers row that names it
-- or its alias, and its alias pair. The other name's row goes only when it
-- points back.
def objectForget (digest : Digest) : Nat × Content :=
  let linked := c.links.keys.filter fun key => key.2 = digest
  let other := c.aliasOf digest
  let named := c.referrers.keys.filter fun key =>
    [key.2.1,key.2.2].any fun part => part = digest || decide (other = some part)
  let dropped := c.aliases.erase digest
  (linked.length,
    {c with
      objects := c.objects.erase digest
      links := eraseKeys c.links linked
      referrers := eraseKeys c.referrers named
      aliases := match other with
        | some name => if dropped[name]? = some digest then dropped.erase name else dropped
        | none => dropped})

def sweepObjects : List Digest → Content → Nat × Content
  | [],c => (0,c)
  | digest :: rest,c =>
    let (removed,forgotten) := (c.blobDelete digest).objectForget digest
    let (more,final) := sweepObjects rest forgotten
    (removed + more,final)

def sweepLinks : List (RepoName × Digest) → Content → Nat × Content
  | [],c => (0,c)
  | (repo,digest) :: rest,c =>
    let (existed,removed) := c.linkRemove repo digest
    let (more,final) := sweepLinks rest removed
    (existed.toNat + more,final)

end Content

namespace OciStore

variable (s : OciStore)

def gcRepoNames : List RepoName :=
  drain (fun after => s.reposPage after gcPage) gcPage (s.repos.toList.length + 1) []

def gcLinks (repo : RepoName) : List (Digest × LinkKind) :=
  (drain (fun after => s.linksPage repo (after.map (·.1)) gcPage) gcPage ((s.linksOf repo).length + 1) []).map
    fun row => (row.1,row.2.kind)

def gcTagsFrom (repo : RepoName) : Nat → List Tag → OciStore → Except OciStoreError (List Tag) × OciStore
  | 0,all,s => (.ok all,s)
  | fuel + 1,all,s => match s.tagsPage repo (all.getLast?.map (·.text)) gcPage with
    | (.error (.unknownRepository _),s') => (.ok all,s')
    | (.error e,s') => (.error e,s')
    | (.ok page,s') =>
      if page.length < gcPage then (.ok (all ++ page),s') else gcTagsFrom repo fuel (all ++ page) s'

def gcTags (repo : RepoName) : Except OciStoreError (List Tag) × OciStore :=
  gcTagsFrom repo ((s.tagList repo).length + 1) [] s

def gcTagged (repo : RepoName) : List Tag → KeySet Digest → OciStore → Except OciStoreError (KeySet Digest) × OciStore
  | [],tagged,s => (.ok tagged,s)
  | tag :: rest,tagged,s =>
    let s' := s.namespaceResolveOrCreate repo
    match s'.tagResolve repo tag with
    | .error e => (.error e,s')
    | .ok digest => gcTagged repo rest (tagged.insert digest) s'

def gcReposWithLinks : List RepoName → OciStore → Except OciStoreError (List GcRepo) × OciStore
  | [],s => (.ok [],s)
  | name :: rest,s => match s.gcTags name with
    | (.error e,s') => (.error e,s')
    | (.ok tags,s') => match gcTagged name tags ∅ s' with
      | (.error e,s'') => (.error e,s'')
      | (.ok tagged,s'') => match gcReposWithLinks rest s'' with
        | (.error e,final) => (.error e,final)
        | (.ok repos,final) => (.ok (⟨name,s.gcLinks name,tags,tagged⟩ :: repos),final)

def deleteManifests : List (RepoName × Digest) → OciStore → Except OciStoreError Unit × OciStore
  | [],s => (.ok (),s)
  | (repo,digest) :: rest,s => match s.manifestDelete repo digest with
    | (.error e,s') => (.error e,s')
    | (.ok _,s') => deleteManifests rest s'

-- What a run answers: its report or error, the lines it emitted, and the store.
structure GcOutcome where
  answer : Except OciStoreError GcReport
  lines : List Str
  store : OciStore

def gcSweep (dryRun : Bool) (repos : List GcRepo) (objects : List Digest) (marks : MarkState) : GcOutcome :=
  let untagged := s.unmarkedLinks marks.marked repos false
  let stale := (s.unmarkedLinks marks.marked repos true).map fun entry => (entry.1.name,entry.2)
  let doomed := objects.filter fun digest => !marks.marked.contains digest
  let report : GcReport := ⟨marks.counted.size,doomed.length,untagged.length,0⟩
  let decided := marks.lines ++ untagged.map Content.eligibleLine
  let swept := decided ++ [Content.summaryLine marks.counted.size doomed.length untagged.length] ++
    doomed.map Content.blobLine ++ stale.map fun entry => Content.layerLine entry.1 entry.2
  if dryRun then ⟨.ok report,swept,s⟩
  else match deleteManifests (untagged.map fun entry => (entry.1.name,entry.2)) s with
    | (.error e,s') => ⟨.error e,decided,s'⟩
    | (.ok _,s') =>
      let (forgotten,c) := Content.sweepObjects doomed s'.toContent
      let (unlinked,final) := Content.sweepLinks stale c
      ⟨.ok {report with removedLinks := forgotten + unlinked},swept,{s' with toContent := final}⟩

def markAndSweep (crates : Crates) (s : OciStore) (options : GcOptions) (repos : List GcRepo) (objects : List Digest) :
    GcOutcome :=
  match s.gcMark crates options.deleteUntagged repos with
  | .error (e,lines) => ⟨.error e,lines,s⟩
  | .ok marks => gcSweep s options.dryRun repos objects marks

def collect (crates : Crates) (s : OciStore) (options : GcOptions) : GcOutcome :=
  -- A dry run writes nothing, the backfill included.
  let (objects,ready) := if options.dryRun then (s.objectRows ++ s.objectsBackfillPlan,s)
    else (s.objectsBackfill.objectRows,{s with toContent := s.objectsBackfill})
  match gcReposWithLinks ready.gcRepoNames ready with
  | (.error e,s') => ⟨.error e,[],s'⟩
  | (.ok repos,s') => s'.markAndSweep crates options repos ((sortDedup objects).map (·.1))

end OciStore
end HologramLive
