import HologramLive.Oci.Blobs
namespace HologramLive
open Tables

inductive StoreError where
  | io (message : Str)
  | notFound (message : Str)
  | conflict (message : Str)
  | rejected (message : Str)
deriving DecidableEq, Repr

def StoreError.text : StoreError → Str
  | .io message => "io error: ".toList ++ message
  | .notFound message => "not found: ".toList ++ message
  | .conflict message => "conflict: ".toList ++ message
  | .rejected message => "rejected: ".toList ++ message

def storeIo (what : Str) (error : StoreError) : OciStoreError := .io (what ++ ": ".toList ++ error.text)
def noSuchFile : StoreError := .io "No such file or directory (os error 2)".toList

structure IngestResult where
  kappa : Digest
  newlyStored : Bool
  additional : List Digest
deriving DecidableEq, Repr

variable (crates : Crates)

-- The names the store adds by itself: sha256 is its one mandatory axis.
def Crates.additional (claimed : Digest) (bytes : Bytes) : List Digest :=
  if claimed.algorithm = .sha256 then [] else [crates.sha256Of bytes]

namespace Content

variable (c : Content)

def blobPut (digest : Digest) (bytes : Bytes) : Bool × Content :=
  match c.blobs[digest]? with
  | some _ => (false,c)
  | none => (true,{c with blobs := c.blobs.insert digest bytes})

def hardLink (primary alt : Digest) : Content :=
  match c.blobs[alt]?,c.blobs[primary]? with
  | none,some bytes => {c with blobs := c.blobs.insert alt bytes}
  | _,_ => c

def linkAdditional (primary : Digest) (additional : List Digest) : Content :=
  additional.foldl (fun held alt => held.hardLink primary alt) c

def persistPartManifest (c : Content) (parts : List (Nat × Bytes)) : Content :=
  if parts.isEmpty then c
  else (c.blobPut (crates.sha256Of (crates.partManifest parts)) (crates.partManifest parts)).2

def commitFinishedUpload (repo : RepoName) (stored : Digest) (other : Option Digest) (newlyStored : Bool) : Content :=
  {c with
    links := c.links.insert (repo,stored) ⟨.blob,none⟩
    objects := if newlyStored then c.objects.insert stored false else c.objects
    repos := c.repos.insert repo
    aliases := match other with
      | some name => (c.aliases.insert stored name).insert name stored
      | none => c.aliases}

end Content

structure ResumeReport where
  resumed : Nat
  droppedRows : Nat
  droppedFiles : Nat
deriving DecidableEq, Repr

structure UploadStatus where
  repo : RepoName
  received : Nat
deriving DecidableEq, Repr

def rowWriteIntervalMs : Nat := 5000

namespace OciStore

variable (s : OciStore)

variable (id : UploadId)

def kappaUploadBegin : OciStore :=
  {s with
    staging := s.staging.insertIfNew id []
    uploadSessions := s.uploadSessions.insert id ⟨0,[]⟩}

def kappaUploadResume : Except StoreError Nat × OciStore :=
  match s.staging[id]? with
  | none => (.error (.notFound ("upload ".toList ++ id.text)),s)
  | some staged => match s.uploadSessions[id]? with
    | some existing => (.ok existing.offset,s)
    | none => (.ok staged.length,{s with uploadSessions := s.uploadSessions.insert id ⟨staged.length,[]⟩})

def kappaUploadPutPart (offset : Nat) (data : Bytes) : Except StoreError Nat × OciStore :=
  match s.uploadSessions[id]? with
  | none => (.error (.notFound ("upload ".toList ++ id.text)),s)
  | some session =>
    if offset ≠ session.offset then
      (.error (.conflict ("out-of-order: expected offset ".toList ++ decimal session.offset ++ ", got ".toList ++
        decimal offset)),s)
    else match s.staging[id]? with
      | none => (.error noSuchFile,s)
      | some staged =>
        let total := session.offset + data.length
        (.ok total,{s with
          staging := s.staging.insert id (staged ++ data)
          uploadSessions := s.uploadSessions.insert id ⟨total,session.parts ++ [(session.offset,data)]⟩})

-- The store's session is dropped first. The staging file is removed on a
-- mismatch and when the blob is there already; otherwise it becomes the blob.
def kappaUploadComplete (s : OciStore) (id : UploadId) (claimed : Digest) : Except StoreError IngestResult × OciStore :=
  match s.uploadSessions[id]? with
  | none => (.error (.notFound ("upload ".toList ++ id.text)),s)
  | some session =>
    let dropped := {s with uploadSessions := s.uploadSessions.erase id}
    match s.staging[id]? with
    | none => (.error noSuchFile,dropped)
    | some staged =>
      let gone := {dropped with staging := s.staging.erase id}
      let computed := crates.digestOf claimed.algorithm staged
      if computed ≠ claimed then
        (.error (.rejected ("digest mismatch: expected ".toList ++ claimed.asStr ++ ", computed ".toList ++
          computed.asStr)),gone)
      else
        let placed := s.toContent.blobPut claimed staged
        let additional := crates.additional claimed staged
        (.ok ⟨claimed,placed.1,additional⟩,
          {gone with toContent := (placed.2.linkAdditional claimed additional).persistPartManifest crates session.parts})

def kappaUploadAbort : OciStore :=
  match s.uploadSessions[id]? with
  | none => s
  | some _ => {s with uploadSessions := s.uploadSessions.erase id,staging := s.staging.erase id}

-- `fresh` is the identifier the store's generator returns.
def uploadBegin (repo : RepoName) (fresh : UploadId) (now : Nat) : UploadId × OciStore :=
  let begun := (s.namespaceResolveOrCreate repo).kappaUploadBegin fresh
  let recorded := {begun with uploads := begun.uploads.insert fresh ⟨repo,fresh,now,now⟩}
  let listed := recorded.repoTouch repo
  (fresh,{listed with sessions := listed.sessions.insert fresh ⟨repo,fresh,0,some [],now,now,now⟩})

def appendLocked (state : SessionState) (offset : Nat) (frame : Bytes) (now : Nat) :
    Except OciStoreError Nat × SessionState × OciStore :=
  if offset ≠ state.received then (.error (.offsetMismatch state.received offset),state,s)
  else match s.kappaUploadPutPart state.kappaId offset frame with
    | (.error e,s') => (.error (storeIo "append to upload".toList e),state,s')
    | (.ok total,s') =>
      let moved := {state with blake3 := state.blake3.map (· ++ frame),received := total,touchedMs := now}
      if now - state.rowWrittenMs ≥ rowWriteIntervalMs then
        (.ok total,{moved with rowWrittenMs := now},
          {s' with uploads := s'.uploads.insert id ⟨state.repo,state.kappaId,state.createdMs,now⟩})
      else (.ok total,moved,s')

def uploadAppend (offset : Nat) (frame : Bytes) (now : Nat) : Except OciStoreError Nat × OciStore :=
  match s.sessions[id]? with
  | none => (.error (.unknownUpload id.text),s)
  | some state => match s.appendLocked id state offset frame now with
    | (answer,moved,s') => (answer,{s' with sessions := s'.sessions.insert id moved})

def uploadStatus : Except OciStoreError UploadStatus :=
  match s.sessions[id]? with
  | none => .error (.unknownUpload id.text)
  | some state => .ok ⟨state.repo,state.received⟩

def uploadRowDelete : OciStore := {s with uploads := s.uploads.erase id}

def blake3OfStored (c : Content) (stored : Digest) : Except OciStoreError Digest :=
  match c.blobs[stored]? with
  | none => .error (.io ("open the finished blob: ".toList ++ Content.notFound stored))
  | some bytes => .ok (crates.digestOf .blake3 bytes)

-- The other name for the same bytes: the store's own sha256 for a blake3 push,
-- else the running blake3, else one read of the finished blob.
def finishedAlias (c : Content) (state : SessionState) (result : IngestResult) : Except OciStoreError (Option Digest) :=
  if result.kappa.algorithm = .blake3 then .ok (result.additional.find? fun other => other.algorithm = .sha256)
  else match state.blake3 with
    | some fed => .ok (some (crates.digestOf .blake3 fed))
    | none => (blake3OfStored crates c result.kappa).map some

def finishTaken (s : OciStore) (id : UploadId) (state : SessionState) (claimed : Digest) :
    Except OciStoreError Digest × OciStore :=
  match kappaUploadComplete crates s state.kappaId claimed with
  | (.error (.rejected _),s') => (.error (.digestMismatch claimed.asStr),s'.uploadRowDelete id)
  | (.error e,s') => (.error (storeIo "complete upload".toList e),s')
  | (.ok result,s') => match finishedAlias crates s'.toContent state result with
    | .error e => (.error e,s')
    | .ok other =>
      let committed := {s' with
        toContent := s'.toContent.commitFinishedUpload state.repo result.kappa other result.newlyStored}
      (.ok result.kappa,committed.uploadRowDelete id)

def uploadFinish (s : OciStore) (id : UploadId) (claimed : Digest) : Except OciStoreError Digest × OciStore :=
  match s.sessions[id]? with
  | none => (.error (.unknownUpload id.text),s)
  | some state => finishTaken crates {s with sessions := s.sessions.erase id} id state claimed

def uploadCancel : Except OciStoreError Unit × OciStore :=
  match s.sessions[id]? with
  | none => (.ok (),s.uploadRowDelete id)
  | some state =>
    let taken := {s with sessions := s.sessions.erase id}
    (.ok (),(taken.kappaUploadAbort state.kappaId).uploadRowDelete id)

-- One recorded session after a restart. The offset comes from the staging
-- file's length; a row whose file is gone is dropped.
def resumeRow (row : UploadRow) : Bool × OciStore :=
  match (s.namespaceResolveOrCreate row.repo).kappaUploadResume row.kappaId with
  | (.error _,s') => (false,s'.uploadRowDelete id)
  | (.ok received,s') =>
    (true,{s' with sessions :=
      s'.sessions.insert id ⟨row.repo,row.kappaId,received,none,row.createdMs,row.touchedMs,row.touchedMs⟩})

def resumeRows : List (UploadId × UploadRow) → OciStore → List UploadId × OciStore
  | [],s => ([],s)
  | (id,row) :: rest,s => match s.resumeRow id row with
    | (false,s') => resumeRows rest s'
    | (true,s') => match resumeRows rest s' with
      | (known,s'') => (row.kappaId :: known,s'')

def resumeUploads : ResumeReport × OciStore :=
  let rows := s.uploads.toList
  let attached := resumeRows rows s
  let stray : List UploadId := attached.2.staging.keys.filter fun file => !attached.1.contains file
  (⟨attached.1.length,rows.length - attached.1.length,stray.length⟩,
    {attached.2 with staging := eraseKeys attached.2.staging stray})

-- A crash and the next open: both halves of every live session go, then the
-- recorded ones are attached again.
def restart : OciStore := ({s with uploadSessions := ∅,sessions := ∅} : OciStore).resumeUploads.2

end OciStore
end HologramLive
