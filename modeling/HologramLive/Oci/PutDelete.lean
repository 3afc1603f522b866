import HologramLive.Oci.GcMark
import HologramLive.Lib.Interleave
namespace HologramLive
open Tables
namespace PutDelete

-- One manifest put, and where it stands: each phase is the next transaction or
-- file write, with what the call holds in its hands.
structure PutCall where
  repo : RepoName
  reference : Reference
  mediaType : Str
  bytes : Bytes
  plan : ManifestPlan

inductive PutPhase where
  | needs (needed : List Digest) (missing : List Str)
  | needsAlias (needed : Digest) (rest : List Digest) (missing : List Str)
  | needsOther (needed other : Digest) (rest : List Digest) (missing : List Str)
  | ingest
  | ingestOther (newlyStored : Bool)
  | nameBoth (newlyStored : Bool)
  | commit (newlyStored : Bool)
  | resolve (tag : Tag)
  | setTag (tag : Tag)

-- The tags to remove are those the listing found.
inductive DeletePhase where
  | aliasRead
  | linkRead (other : Option Digest)
  | otherRead (other : Digest)
  | resolve (other : Option Digest)
  | list (other : Option Digest)
  | untag (pending : List Tag) (other : Option Digest)
  | unlinkOther (other : Digest)

inductive Task where
  | put (call : PutCall) (digest : Digest) (phase : PutPhase)
  | putDone (answer : Except OciStoreError Digest)
  | delete (repo : RepoName) (digest : Digest) (phase : DeletePhase)
  | deleteDone (answer : Except OciStoreError Unit)

inductive Request where
  | put (call : PutCall)
  | delete (repo : RepoName) (digest : Digest)

variable (crates : Crates)

def begin : Request → Task
  | .put call => match putDigest crates call.reference call.bytes with
    | .error e => .putDone (.error e)
    | .ok digest => .put call digest (.needs call.plan.mustExist [])
  | .delete repo digest => .delete repo digest .aliasRead

def putStep (s : OciStore) (call : PutCall) (digest : Digest) (phase : PutPhase) : Task × OciStore :=
  match phase with
  | .needs [] missing =>
    if missing.isEmpty then (.put call digest .ingest,s) else (.putDone (.error (.missingReferences missing)),s)
  | .needs (needed :: rest) missing => match s.linkGet call.repo needed with
    | some _ => (.put call digest (.needs rest missing),s)
    | none => (.put call digest (.needsAlias needed rest missing),s)
  | .needsAlias needed rest missing => match s.aliasOf needed with
    | none => (.put call digest (.needs rest (missing ++ [needed.asStr])),s)
    | some other => (.put call digest (.needsOther needed other rest missing),s)
  | .needsOther needed other rest missing => match s.linkGet call.repo other with
    | some _ => (.put call digest (.needs rest missing),s)
    | none => (.put call digest (.needs rest (missing ++ [needed.asStr])),s)
  | .ingest =>
    if crates.digestOf digest.algorithm call.bytes ≠ digest then (.putDone (.error (.digestMismatch digest.asStr)),s)
    else
      let placed := s.blobPut digest call.bytes
      (.put call digest (.ingestOther placed.1),{s with toContent := placed.2})
  | .ingestOther newlyStored =>
    (.put call digest (.nameBoth newlyStored),
      {s with toContent := s.linkAdditional digest (crates.additional digest call.bytes)})
  | .nameBoth newlyStored =>
    (.put call digest (.commit newlyStored),{s with toContent := s.aliasPut digest (otherName crates digest call.bytes)})
  | .commit newlyStored =>
    let committed := s.manifestCommit call.repo digest ⟨call.plan.kind,some call.mediaType⟩
      (call.plan.referrer digest call.mediaType call.bytes) newlyStored
    match call.reference with
    | .digest _ => (.putDone (.ok digest),{s with toContent := committed})
    | .tag tag => (.put call digest (.resolve tag),{s with toContent := committed})
  | .resolve tag => (.put call digest (.setTag tag),s.namespaceResolveOrCreate call.repo)
  | .setTag tag => (.putDone (.ok digest),{s with toContent := s.tagSet call.repo tag digest})

def linkVerdict (repo : RepoName) (digest : Digest) (other : Option Digest) (link : Link) : Task :=
  if link.kind = .blob then .deleteDone (.error (Content.notHere repo digest)) else .delete repo digest (.resolve other)

def deleteStep (s : OciStore) (repo : RepoName) (digest : Digest) (phase : DeletePhase) : Task × OciStore :=
  match phase with
  | .aliasRead => (.delete repo digest (.linkRead (s.aliasOf digest)),s)
  | .linkRead other => match s.linkGet repo digest,other with
    | some link,_ => (linkVerdict repo digest other link,s)
    | none,some name => (.delete repo digest (.otherRead name),s)
    | none,none => (.deleteDone (.error (Content.notHere repo digest)),s)
  | .otherRead other => match s.linkGet repo other with
    | some link => (linkVerdict repo digest (some other) link,s)
    | none => (.deleteDone (.error (Content.notHere repo digest)),s)
  | .resolve other => (.delete repo digest (.list other),s.namespaceResolveOrCreate repo)
  | .list other =>
    (.delete repo digest
      (.untag (((s.tagList repo).filter fun row => Content.pointsHere row.2 digest other).map (·.1)) other),s)
  | .untag (tag :: rest) other => (.delete repo digest (.untag rest other),{s with toContent := s.tagRemove repo tag})
  | .untag [] other =>
    (match other with
      | none => .deleteDone (.ok ())
      | some name => .delete repo digest (.unlinkOther name),
      {s with toContent := (s.linkRemove repo digest).2})
  | .unlinkOther other => (.deleteDone (.ok ()),{s with toContent := (s.linkRemove repo other).2})

def taskStep (s : OciStore) : Task → Task × OciStore
  | .put call digest phase => putStep crates s call digest phase
  | .delete repo digest phase => deleteStep s repo digest phase
  | .putDone answer => (.putDone answer,s)
  | .deleteDone answer => (.deleteDone answer,s)

def rules : Interleave.Rules OciStore Task Request where
  begin := begin crates
  step := taskStep crates
  restart := OciStore.restart

end PutDelete
end HologramLive
