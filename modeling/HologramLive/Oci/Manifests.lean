import HologramLive.Oci.Uploads
namespace HologramLive
open Tables

def manifestMax : Nat := 4 * 1024 * 1024
def defaultMediaType : Str := "application/vnd.oci.image.manifest.v1+json".toList

structure SubjectPlan where
  subject : Digest
  artifactType : Option Str
  annotations : Option (List (Str × OciJson))

structure ManifestPlan where
  kind : LinkKind
  mustExist : List Digest
  subject : Option SubjectPlan
  not_blob : kind ≠ .blob

structure StoredManifest where
  digest : Digest
  mediaType : Str
  bytes : Bytes
deriving DecidableEq, Repr

variable (crates : Crates)

def putDigest (reference : Reference) (bytes : Bytes) : Except OciStoreError Digest :=
  match reference with
  | .digest claimed =>
    if crates.digestOf claimed.algorithm bytes ≠ claimed then .error (.digestMismatch claimed.asStr) else .ok claimed
  | .tag _ => .ok (crates.sha256Of bytes)

def otherName (digest : Digest) (bytes : Bytes) : Digest :=
  if digest.algorithm = .blake3 then crates.sha256Of bytes else crates.digestOf .blake3 bytes

def ManifestPlan.referrer (plan : ManifestPlan) (digest : Digest) (mediaType : Str) (bytes : Bytes) :
    Option (Digest × ReferrerDescriptor) :=
  plan.subject.map fun subject =>
    (subject.subject,⟨digest,mediaType,bytes.length,subject.artifactType,subject.annotations⟩)

namespace Content

def ingestVerified (c : Content) (claimed : Digest) (bytes : Bytes) : Except StoreError IngestResult × Content :=
  let computed := crates.digestOf claimed.algorithm bytes
  if computed ≠ claimed then
    (.error (.rejected ("digest mismatch: expected ".toList ++ claimed.asStr ++ ", computed ".toList ++
      computed.asStr)),c)
  else
    let placed := c.blobPut claimed bytes
    let additional := crates.additional claimed bytes
    (.ok ⟨claimed,placed.1,additional⟩,placed.2.linkAdditional claimed additional)

variable (c : Content)

variable (repo : RepoName)

def missingReferences (mustExist : List Digest) : List Str :=
  (mustExist.filter fun needed => match c.requireLink repo needed with
    | .ok _ => false
    | .error _ => true).map Digest.asStr

def manifestCommit (digest : Digest) (link : Link)
    (referrer : Option (Digest × ReferrerDescriptor)) (newlyStored : Bool) : Content :=
  {c with
    links := c.links.insert (repo,digest) link.durable
    objects := if newlyStored then c.objects.insert digest true else c.objects
    referrers := match referrer with
      | some (subject,descriptor) => c.referrers.insert (repo,subject,digest) descriptor
      | none => c.referrers
    repos := c.repos.insert repo}

def tagSet (tag : Tag) (digest : Digest) : Content :=
  let version := match c.tags[(repo,tag)]? with
    | some entry => entry.version
    | none => 0
  {c with tags := c.tags.insert (repo,tag) ⟨digest,version + 1⟩}

def tagResolve (tag : Tag) : Except OciStoreError Digest :=
  match c.tags[(repo,tag)]? with
  | some entry => .ok entry.kappa
  | none => .error (.notInRepository repo.text tag.text)

def tagList : List (Tag × TagEntry) := rowsUnder c.tags repo

def tagRemove (tag : Tag) : Content := {c with tags := c.tags.erase (repo,tag)}

def manifestLink (digest : Digest) : Option Link :=
  match c.linkGet repo digest with
  | some link => some link
  | none => match c.aliasOf digest with
    | some other => c.linkGet repo other
    | none => none

def manifestRead (digest : Digest) : Except OciStoreError StoredManifest :=
  match c.requireLink repo digest with
  | .error e => .error e
  | .ok _ => match c.manifestLink repo digest with
    | none => .error (notHere repo digest)
    | some link =>
      if link.kind = .blob then .error (notHere repo digest)
      else match c.resolveStored repo digest with
        | .error e => .error e
        | .ok storedAs => match c.blobs[storedAs]? with
          | none => .error (storeIo "size the manifest".toList (.notFound storedAs.asStr))
          | some bytes =>
            if bytes.length > manifestMax then
              .error (.io (storedAs.asStr ++ " is linked as a manifest but holds ".toList ++ decimal bytes.length ++
                " bytes".toList))
            else .ok ⟨digest,link.mediaType.getD defaultMediaType,bytes⟩

def pointsHere (entry : TagEntry) (digest : Digest) (other : Option Digest) : Bool :=
  entry.kappa = digest || other.any fun name => entry.kappa = name

def removeTags (digest : Digest) (other : Option Digest) : Content :=
  ((c.tagList repo).filter fun row => pointsHere row.2 digest other).foldl (fun kept row => kept.tagRemove repo row.1) c

def unlinkManifest (digest : Digest) (other : Option Digest) : Content :=
  let first := (c.linkRemove repo digest).2
  match other with
  | some name => (first.linkRemove repo name).2
  | none => first

end Content

namespace OciStore

def manifestPut (s : OciStore) (repo : RepoName) (reference : Reference) (mediaType : Str)
    (bytes : Bytes) (plan : ManifestPlan) : Except OciStoreError Digest × OciStore :=
  match putDigest crates reference bytes with
  | .error e => (.error e,s)
  | .ok digest =>
    let missing := s.missingReferences repo plan.mustExist
    if !missing.isEmpty then (.error (.missingReferences missing),s)
    else match s.toContent.ingestVerified crates digest bytes with
      | (.error (.rejected _),c) => (.error (.digestMismatch digest.asStr),{s with toContent := c})
      | (.error e,c) => (.error (storeIo "store the manifest".toList e),{s with toContent := c})
      | (.ok result,c) =>
        let committed := (c.aliasPut digest (otherName crates digest bytes)).manifestCommit repo digest
          ⟨plan.kind,some mediaType⟩ (plan.referrer digest mediaType bytes) result.newlyStored
        match reference with
        | .digest _ => (.ok digest,{s with toContent := committed})
        | .tag tag => (.ok digest,{s.namespaceResolveOrCreate repo with toContent := committed.tagSet repo tag digest})

variable (s : OciStore)

variable (repo : RepoName)

def manifestGet (reference : Reference) : Except OciStoreError StoredManifest × OciStore :=
  if repo ∉ s.repos then (.error (.unknownRepository repo.text),s)
  else match reference with
    | .digest digest => (s.manifestRead repo digest,s)
    | .tag tag =>
      let s' := s.namespaceResolveOrCreate repo
      match s'.tagResolve repo tag with
      | .error e => (.error e,s')
      | .ok digest => (s'.manifestRead repo digest,s')

def manifestDelete (digest : Digest) : Except OciStoreError Unit × OciStore :=
  let other := s.aliasOf digest
  match s.manifestLink repo digest with
  | none => (.error (Content.notHere repo digest),s)
  | some link =>
    if link.kind = .blob then (.error (Content.notHere repo digest),s)
    else
      let s' := s.namespaceResolveOrCreate repo
      (.ok (),{s' with toContent := (s'.removeTags repo digest other).unlinkManifest repo digest other})

def tagDelete (tag : Tag) : Except OciStoreError Unit × OciStore :=
  let s' := s.namespaceResolveOrCreate repo
  match s'.tagResolve repo tag with
  | .error e => (.error e,s')
  | .ok _ => (.ok (),{s' with toContent := s'.tagRemove repo tag})

def tagsPage (after : Option Str) (limit : Nat) : Except OciStoreError (List Tag) × OciStore :=
  if repo ∉ s.repos then (.error (.unknownRepository repo.text),s)
  else
    let s' := s.namespaceResolveOrCreate repo
    let names := (s'.tagList repo).map (·.1)
    (.ok ((names.filter fun tag => after.all fun text => compare text tag.text == .lt).take limit),s')

end OciStore
end HologramLive
