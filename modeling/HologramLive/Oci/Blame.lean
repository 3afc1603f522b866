import HologramLive.Lib.Descent
import HologramLive.Lib.Fallible
import HologramLive.Oci.GcRead
namespace HologramLive.Verify
open Tables Std List Digest

-- How deep an index may nest before it is taken as a loop.
def maxDepth : Nat := 8

inductive DamageKind where
  | mismatch
  | unreadable
  | notABlob
deriving DecidableEq, Repr

structure Reach where
  name : Str
  tags : List Str
deriving DecidableEq, Repr

structure Damaged where
  digest : Str
  kind : DamageKind
  size : Nat
  reason : Str
  repositories : List Reach
deriving DecidableEq, Repr

structure VerifyReport where
  checked : Nat
  bytes : Nat
  damaged : List Damaged
deriving DecidableEq, Repr

-- What the file system answers: the leaf directories of the blob tree, in order,
-- and what the store's reader of a blob gives.
inductive FileKind where
  | file
  | symlink
  | directory
  | other
deriving DecidableEq, Repr

structure DirEntry where
  fileName : Str
  fileType : Option FileKind
deriving DecidableEq, Repr

inductive Listing where
  | entries (files : List DirEntry)
  | gone
  | failed (error : Str)
deriving DecidableEq, Repr

structure Leaf where
  algorithm : Str
  path : Str
  listing : Listing
deriving DecidableEq, Repr

inductive Opened where
  | notFound
  | refused (error : Str)
  | whole (bytes : Bytes)
  | broken (size : Nat) (error : Str)
deriving DecidableEq, Repr

structure Disk where
  leaves : Except OciStoreError (List Leaf)
  blob : Digest → Opened

inductive Check where
  | whole (size : Nat)
  | gone
  | damaged (kind : DamageKind) (size : Nat) (reason : Str)
deriving DecidableEq, Repr

section Scan
variable (crates : Crates) (disk : Disk)

def checkBlob (digest : Digest) : Check :=
  match disk.blob digest with
  | .notFound => .gone
  | .refused error => .damaged .unreadable 0 ("cannot open: ".toList ++ error)
  | .broken size error => .damaged .unreadable size ("cannot read: ".toList ++ error)
  | .whole bytes =>
    let found := (crates.digestOf digest.algorithm bytes).hex
    if found = digest.hex then .whole bytes.length
    else .damaged .mismatch bytes.length
      ("hash mismatch: the bytes are ".toList ++ digest.algorithm.name ++ ':' :: found)

def checkEntry (label : Str) (file : DirEntry) : Check :=
  match file.fileType,parse label with
  | some .file,.ok digest => checkBlob crates disk digest
  | some .symlink,_ => .damaged .notABlob 0 "a symlink where a blob should be".toList
  | some .directory,_ => .damaged .notABlob 0 "a directory where a blob should be".toList
  | _,_ => .damaged .notABlob 0 "a file whose name is not a blob address".toList

def scanEntry (algorithm : Str) (report : VerifyReport) (file : DirEntry) : VerifyReport :=
  let label := algorithm ++ ':' :: file.fileName
  match checkEntry crates disk label file with
  | .gone => report
  | .whole size => {report with bytes := report.bytes + size,checked := report.checked + 1}
  | .damaged kind size reason =>
    {checked := report.checked + 1,bytes := report.bytes + size,damaged := report.damaged ++ [⟨label,kind,size,reason,[]⟩]}

def scanLeaf (report : VerifyReport) (leaf : Leaf) : Except OciStoreError VerifyReport :=
  match leaf.listing with
  -- Removed since it was listed.
  | .gone => .ok report
  | .failed error => .error (.io ("read ".toList ++ leaf.path ++ ": ".toList ++ error))
  | .entries files =>
    .ok ((files.mergeSort fun a b => compare a.fileName b.fileName != .gt).foldl (scanEntry crates disk leaf.algorithm) report)

def scan : Except OciStoreError VerifyReport :=
  match disk.leaves with
  | .error e => .error e
  | .ok leaves => leaves.foldlM (scanLeaf crates disk) ⟨0,0,[]⟩

end Scan

section Blame
variable (crates : Crates) (s : OciStore)

def digestText (node : OciJson) : Option Str := (node.get "digest".toList).bind OciJson.asStr

def leafTexts (value : OciJson) : List Str :=
  ((value.get "config".toList).bind digestText).toList ++ (Content.itemsUnder value "layers".toList).filterMap digestText

def children (value : OciJson) : List Digest :=
  (Content.itemsUnder value "manifests".toList).filterMap fun child =>
    (digestText child).bind fun text => (parse text).toOption

-- Every digest a manifest reaches, itself included; `left` are the levels that may
-- still be read. A manifest that cannot be read or parsed reaches only itself. A
-- read may make the repository's namespace, which nothing here looks at.
def walk (repo : RepoName) : Nat → Reference → KeySet Str → KeySet Str
  | left,reference,reached =>
    let reached := match reference with
      | .digest digest => reached.insert digest.asStr
      | .tag _ => reached
    match left with
    | 0 => reached
    | left + 1 => match (s.manifestGet repo reference).1 with
      | .error _ => reached
      | .ok manifest =>
        let reached := reached.insert manifest.digest.asStr
        match crates.fromSlice manifest.bytes with
        | .error _ => reached
        | .ok value =>
          let reached := (leafTexts value).foldl (fun reached text => reached.insert text) reached
          -- Each child once: an index that lists itself does not loop.
          (children value).foldl (fun reached digest =>
            if digest.asStr ∈ reached then reached else walk repo left (.digest digest) (reached.insert digest.asStr)) reached

def allTags (repo : RepoName) : Except OciStoreError (List Tag) :=
  if repo ∉ s.repos then .error (.unknownRepository repo.text) else (s.gcTags repo).1

variable (wanted : Table Str Str)

def want (entry : Damaged) : Table Str Str :=
  let wanted := wanted.insert entry.digest entry.digest
  match parse entry.digest with
  | .error _ => wanted
  | .ok digest => match s.aliasOf digest with
    | some other => wanted.insert other.asStr entry.digest
    | none => wanted

-- `out.entry(damaged).or_default().entry(repo).or_default()`, and a tag added to it.
abbrev Out := Table Str (Table Str (KeySet Str))
def note (out : Out) (damaged repo : Str) (tag : Option Str) : Out :=
  let repos := out[damaged]?.getD ∅
  let tags := repos[repo]?.getD ∅
  out.insert damaged (repos.insert repo (match tag with
    | some tag => tags.insert tag
    | none => tags))

def noteLinks (repo : RepoName) (out : Out) : Out :=
  (s.gcLinks repo).foldl (fun out link => match wanted[link.1.asStr]? with
    | some damaged => note out damaged repo.text none
    | none => out) out

def noteTag (repo : RepoName) (out : Out) (tag : Tag) : Out :=
  (walk crates s repo (maxDepth + 1) (.tag tag) ∅).toList.foldl (fun out digest => match wanted[digest]? with
    | some damaged => note out damaged repo.text (some tag.text)
    | none => out) out

def noteRepo (out : Out) (repo : RepoName) : Except OciStoreError Out :=
  match allTags s repo with
  | .error e => .error e
  | .ok tags => .ok (tags.foldl (noteTag crates s wanted repo) (noteLinks s wanted repo out))

-- For each damaged digest: the repositories that link it or its alias, and in each
-- the tags whose manifest tree reaches it.
def reachOf (damaged : List Damaged) : Except OciStoreError (Table Str (List Reach)) :=
  (s.gcRepoNames.foldlM (noteRepo crates s (damaged.foldl (want s) ∅)) ∅).map fun out =>
    out.map fun _ repos => repos.toList.map fun row => ⟨row.1,row.2.toList⟩

def verify (disk : Disk) : Except OciStoreError VerifyReport :=
  match scan crates disk with
  | .error e => .error e
  | .ok report =>
    if report.damaged.isEmpty then .ok report
    else match reachOf crates s report.damaged with
      | .error e => .error e
      | .ok reach => .ok {report with damaged := report.damaged.map fun entry =>
          {entry with repositories := reach[entry.digest]?.getD []}}

end Blame

section Tree
variable (crates : Crates) (s : OciStore) (repo : RepoName)

def keyText : Reference → Str
  | .digest digest => digest.asStr
  | .tag tag => tag.text

def outerTexts : Reference → List Str
  | .digest digest => [digest.asStr]
  | .tag _ => []

variable (reference : Reference)

def manifestOf : Option StoredManifest := (s.manifestGet repo reference).1.toOption

def documentOf : Option OciJson :=
  (manifestOf s repo reference).bind fun manifest => (crates.fromSlice manifest.bytes).toOption

variable {s} {repo}

theorem manifestRead_digest (read : s.manifestRead repo digest = .ok manifest) : manifest.digest = digest := by
  unfold Content.manifestRead at read
  split at read
  · cases read
  · split at read
    · cases read
    · split at read
      · cases read
      · split at read
        · cases read
        · split at read
          · cases read
          · split at read
            · cases read
            · cases read; rfl

theorem manifestOf_own {reference : Reference}
    (read : manifestOf s repo reference = some manifest) : manifestOf s repo (.digest manifest.digest) = some manifest := by
  unfold manifestOf OciStore.manifestGet at read ⊢
  split at read
  · cases read
  · rename_i known
    rw [if_neg known]
    have got := Fallible.ok_of_toOption read
    cases reference with
    | digest digest => rw [manifestRead_digest got]; exact read
    | tag tag =>
      dsimp only at got
      split at got
      · cases got
      · rename_i digest resolved
        have same : s.manifestRead repo digest = .ok manifest := got
        rw [manifestRead_digest same]
        dsimp only; rw [same]
        rfl

variable (s) (repo)

def ownTexts : List Str :=
  outerTexts reference ++ ((manifestOf s repo reference).map fun manifest => manifest.digest.asStr).toList

variable {s} {repo} in
theorem manifestOf_called {item : Reference} (called : digest.asStr ∈ ownTexts s repo item) :
    manifestOf s repo (.digest digest) = manifestOf s repo item := by
  rcases mem_append.mp called with outer | read
  · cases item with
    | tag tag => cases outer
    | digest other =>
      have equal : digest = other := asStr_injective (mem_singleton.mp outer)
      rw [equal]
  · rw [Option.mem_toList] at read
    obtain ⟨manifest,found,equal⟩ := Option.map_eq_some_iff.mp read
    have same : manifest.digest = digest := asStr_injective equal
    rw [found,←same]
    exact manifestOf_own found

def leavesOf : List Str :=
  match documentOf crates s repo reference with
  | some value => leafTexts value
  | none => []

def belowOf : List Reference :=
  match documentOf crates s repo reference with
  | some value => (children value).map .digest
  | none => []

variable {crates} {s} {repo} in
theorem below_digest (listed : child ∈ belowOf crates s repo item) : ∃ digest,child = .digest digest := by
  unfold belowOf at listed
  split at listed
  · obtain ⟨digest,_,rfl⟩ := mem_map.mp listed
    exact ⟨digest,rfl⟩
  · cases listed

def manifests : Descent.Tree Reference Str where
  key := keyText
  outer := outerTexts
  own := ownTexts s repo
  leaves := leavesOf crates s repo
  below := belowOf crates s repo
  keyed item child listed := by
    obtain ⟨digest,rfl⟩ := below_digest listed
    exact mem_append_left _ (mem_singleton.mpr rfl)
  alike parent child item listed called := by
    obtain ⟨digest,rfl⟩ := below_digest listed
    have same := manifestOf_called called
    have document : documentOf crates s repo (.digest digest) = documentOf crates s repo item := by
      unfold documentOf
      rw [same]
    refine ⟨fun name member => ?_,by unfold leavesOf; rw [document],by unfold belowOf; rw [document]⟩
    rcases mem_append.mp member with outer | read
    · rw [mem_singleton.mp outer]
      exact called
    · rw [same] at read
      exact mem_append_right _ read

variable {crates} {s} {repo}

theorem outer_own : ∀ name ∈ outerTexts reference,name ∈ ownTexts s repo reference :=
  fun _ member => mem_append_left _ member

theorem meetAll_append (met : KeySet Str) (names more : List Str) :
    Descent.meetAll met (names ++ more) = Descent.meetAll (Descent.meetAll met names) more := foldl_append

-- The walk of the source is the walk of the tree.
theorem walk_tree (left : Nat) (reference : Reference) (reached : KeySet Str) :
    walk crates s repo left reference reached = Descent.walk (manifests crates s repo) left reference reached := by
  have outer (met : KeySet Str) (reference : Reference) : (match reference with
      | .digest digest => met.insert digest.asStr
      | .tag _ => met) = Descent.meetAll met (outerTexts reference) := by
    cases reference <;> rfl
  induction left generalizing reference reached with
  | zero => unfold walk Descent.walk; exact outer reached reference
  | succ left ih =>
    unfold walk Descent.walk
    dsimp only
    rw [outer]
    have read : (s.manifestGet repo reference).1.toOption = manifestOf s repo reference := rfl
    cases answer : (s.manifestGet repo reference).1 with
    | error e =>
      have missing : manifestOf s repo reference = none := by rw [←read,answer]; rfl
      have silent : documentOf crates s repo reference = none := by unfold documentOf; rw [missing]; rfl
      simp [manifests,ownTexts,leavesOf,belowOf,missing,silent]
    | ok manifest =>
      have found : manifestOf s repo reference = some manifest := by rw [←read,answer]; rfl
      have own : ownTexts s repo reference = outerTexts reference ++ [manifest.digest.asStr] := by
        unfold ownTexts; rw [found]; rfl
      have document : documentOf crates s repo reference = (crates.fromSlice manifest.bytes).toOption := by
        unfold documentOf; rw [found]; rfl
      cases parsed : crates.fromSlice manifest.bytes with
      | error e =>
        rw [parsed] at document
        simp only [manifests,own,leavesOf,belowOf,document,parsed,Except.toOption,append_nil,foldl_nil]
        rw [meetAll_append]; rfl
      | ok value =>
        rw [parsed] at document
        simp only [manifests,own,leavesOf,belowOf,document,parsed,Except.toOption,foldl_map,keyText]
        rw [meetAll_append,meetAll_append]; simp only [ih]
        rfl

end Tree
end HologramLive.Verify
