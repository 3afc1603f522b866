import HologramLive.Oci.Machine
namespace HologramLive
open Tables List

namespace Content

variable (crates : Crates)

-- The bytes go in under the claimed name and, on a second axis, under sha256.
def store (c : Content) (claimed : Digest) (bytes : Bytes) : Content :=
  (c.blobPut claimed bytes).2.linkAdditional claimed (crates.additional claimed bytes)

-- Only blob files change, and none is lost or rewritten.
structure Grows (c after : Content) : Prop where
  kept : ∀ (digest : Digest) (bytes : Bytes),c.blobs[digest]? = some bytes → after.blobs[digest]? = some bytes
  only : after = {c with blobs := after.blobs}

theorem Grows.refl (c : Content) : Grows c c := ⟨fun _ _ held => held,rfl⟩
theorem Grows.trans (left : Grows a b) (right : Grows b c) : Grows a c := by
  refine ⟨fun digest bytes held => right.kept digest bytes (left.kept digest bytes held),?_⟩
  rw [right.only,left.only]

theorem Grows.insert (c : Content) (absent : c.blobs[digest]? = none) :
    Grows c {c with blobs := c.blobs.insert digest bytes} := by
  refine ⟨fun other held found => ?_,rfl⟩
  rw [get_insert]
  split
  · rename_i same
    rw [←same,absent] at found
    cases found
  · exact found

theorem blobPut_grows (c : Content) (digest : Digest) (bytes : Bytes) : Grows c (c.blobPut digest bytes).2 := by
  unfold blobPut
  split
  · exact .refl c
  · rename_i absent
    exact .insert c absent

theorem blobPut_held (c : Content) (digest : Digest) (bytes : Bytes) :
    ∃ held,(c.blobPut digest bytes).2.blobs[digest]? = some held := by
  unfold blobPut
  split
  · rename_i held found
    exact ⟨held,found⟩
  · exact ⟨bytes,by simp⟩

theorem hardLink_grows (c : Content) (primary alt : Digest) : Grows c (c.hardLink primary alt) := by
  unfold hardLink
  split
  · rename_i absent _
    exact .insert c absent
  · exact .refl c

theorem linkAdditional_grows (primary : Digest) (additional : List Digest) (c : Content) :
    Grows c (c.linkAdditional primary additional) := by
  induction additional generalizing c with
  | nil => exact .refl c
  | cons alt rest ih => exact (hardLink_grows c primary alt).trans (ih (c.hardLink primary alt))

theorem persistPartManifest_grows (c : Content) (parts : List (Nat × Bytes)) :
    Grows c (persistPartManifest crates c parts) := by
  unfold persistPartManifest
  split
  · exact .refl c
  · exact blobPut_grows _ _ _

theorem store_grows (c : Content) (claimed : Digest) (bytes : Bytes) : Grows c (c.store crates claimed bytes) :=
  (blobPut_grows c claimed bytes).trans (linkAdditional_grows claimed _ _)

theorem store_held (c : Content) (claimed : Digest) (bytes : Bytes) :
    ∃ held,(c.store crates claimed bytes).blobs[claimed]? = some held :=
  let ⟨held,found⟩ := blobPut_held c claimed bytes
  ⟨held,(linkAdditional_grows claimed _ _).kept claimed held found⟩

def finished (c : Content) (repo : RepoName) (claimed other : Digest) (staged : Bytes)
    (parts : List (Nat × Bytes)) : Content :=
  (persistPartManifest crates (c.store crates claimed staged) parts).commitFinishedUpload repo claimed (some other)
    (c.blobPut claimed staged).1

def manifestStored (c : Content) (repo : RepoName) (digest : Digest) (mediaType : Str)
    (bytes : Bytes) (plan : ManifestPlan) : Content :=
  ((c.store crates digest bytes).aliasPut digest (otherName crates digest bytes)).manifestCommit repo digest
    ⟨plan.kind,some mediaType⟩ (plan.referrer digest mediaType bytes) (c.blobPut digest bytes).1

def manifestPlaced (c : Content) (repo : RepoName) (reference : Reference) (digest : Digest)
    (mediaType : Str) (bytes : Bytes) (plan : ManifestPlan) : Content :=
  match reference with
  | .digest _ => c.manifestStored crates repo digest mediaType bytes plan
  | .tag tag => (c.manifestStored crates repo digest mediaType bytes plan).tagSet repo tag digest

def manifestDeleted (c : Content) (repo : RepoName) (digest : Digest) : Content :=
  (c.removeTags repo digest (c.aliasOf digest)).unlinkManifest repo digest (c.aliasOf digest)

theorem untag_rows (entries : List (Tag × TagEntry)) (repo : RepoName) (c : Content) :
    entries.foldl (fun kept row => kept.tagRemove repo row.1) c =
      {c with tags := eraseKeys c.tags (entries.map fun row => (repo,row.1))} := by
  induction entries generalizing c with
  | nil => rfl
  | cons row rest ih => exact ih (c.tagRemove repo row.1)

theorem linkRemove_links (c : Content) (repo repo' : RepoName) (digest name : Digest) :
    (c.linkRemove repo digest).2.links[(repo',name)]? =
      if repo' = repo ∧ name = digest then none else c.links[(repo',name)]? := by
  refine (get_erase c.links (repo,digest) (repo',name)).trans (if_congr ?_ rfl rfl)
  simp only [Prod.mk.injEq]
  exact ⟨fun same => ⟨same.1.symm,same.2.symm⟩,fun same => ⟨same.1.symm,same.2.symm⟩⟩

theorem linkRemove_referrers (c : Content) (repo repo' : RepoName) (digest subject referrer : Digest) :
    (c.linkRemove repo digest).2.referrers[(repo',subject,referrer)]? =
      if repo' = repo ∧ referrer = digest then none else c.referrers[(repo',subject,referrer)]? := by
  refine (get_eraseWhere c.referrers _ (repo',subject,referrer)).trans (if_congr ?_ rfl rfl)
  simp only [Bool.and_eq_true,decide_eq_true_eq]

theorem deleted_links (c : Content) (repo repo' : RepoName) (digest name : Digest) :
    (c.manifestDeleted repo digest).links[(repo',name)]? =
      if repo' = repo ∧ (name = digest ∨ c.aliasOf digest = some name) then none else c.links[(repo',name)]? := by
  unfold manifestDeleted unlinkManifest removeTags
  rw [untag_rows]
  cases c.aliasOf digest with
  | none => simp only [linkRemove_links]; simp
  | some other => simp only [linkRemove_links,Option.some.injEq]; grind

theorem deleted_referrers (c : Content) (repo repo' : RepoName) (digest subject referrer : Digest) :
    (c.manifestDeleted repo digest).referrers[(repo',subject,referrer)]? =
      if repo' = repo ∧ (referrer = digest ∨ c.aliasOf digest = some referrer) then none
      else c.referrers[(repo',subject,referrer)]? := by
  unfold manifestDeleted unlinkManifest removeTags
  rw [untag_rows]
  cases c.aliasOf digest with
  | none => simp only [linkRemove_referrers]; simp
  | some other => simp only [linkRemove_referrers,Option.some.injEq]; grind

theorem deleted_tags (c : Content) (repo repo' : RepoName) (digest : Digest) (tag : Tag) (entry : TagEntry) :
    (c.manifestDeleted repo digest).tags[(repo',tag)]? = some entry ↔ c.tags[(repo',tag)]? = some entry ∧
        ¬(repo' = repo ∧ (entry.kappa = digest ∨ c.aliasOf digest = some entry.kappa)) := by
  have tags : (c.manifestDeleted repo digest).tags = eraseKeys c.tags (((c.tagList repo).filter fun row =>
      pointsHere row.2 digest (c.aliasOf digest)).map fun row => (repo,row.1)) := by
    unfold manifestDeleted unlinkManifest removeTags
    rw [untag_rows]
    cases c.aliasOf digest <;> rfl
  have points (row : TagEntry) : pointsHere row digest (c.aliasOf digest) = true ↔
      row.kappa = digest ∨ c.aliasOf digest = some row.kappa := by
    unfold pointsHere
    cases c.aliasOf digest with
    | none => simp
    | some other =>
      simp only [Option.any_some,Bool.or_eq_true,decide_eq_true_eq,Option.some.injEq]
      exact or_congr_right eq_comm
  rw [tags,get_eraseKeys]
  split
  · rename_i removed
    obtain ⟨row,among,shape⟩ := mem_map.mp removed
    obtain ⟨member,named⟩ := mem_filter.mp among
    obtain ⟨rfl,rfl⟩ := Prod.mk.inj shape
    refine ⟨fun none => (by cases none),fun ⟨found,kept⟩ => ?_⟩
    cases Option.some.inj ((mem_rowsUnder.mp member).symm.trans found)
    exact absurd ⟨rfl,(points row.2).mp named⟩ kept
  · rename_i kept
    refine ⟨fun found => ⟨found,fun ⟨same,named⟩ => ?_⟩,fun found => found.1⟩
    subst same
    exact kept (mem_map.mpr ⟨(tag,entry),mem_filter.mpr ⟨mem_rowsUnder.mpr found,(points entry).mpr named⟩,rfl⟩)

theorem deleted_rest (c : Content) (repo : RepoName) (digest : Digest) :
    (c.manifestDeleted repo digest).blobs = c.blobs ∧ (c.manifestDeleted repo digest).aliases = c.aliases ∧
      (c.manifestDeleted repo digest).objects = c.objects ∧ (c.manifestDeleted repo digest).repos = c.repos ∧
      (c.manifestDeleted repo digest).objectsBackfilled = c.objectsBackfilled := by
  unfold manifestDeleted unlinkManifest removeTags
  rw [untag_rows]
  cases c.aliasOf digest <;> exact ⟨rfl,rfl,rfl,rfl,rfl⟩

def blobUnlinked (c : Content) (repo : RepoName) (digest storedAs : Digest) : Content :=
  if storedAs ≠ digest then ((c.linkRemove repo storedAs).2.linkRemove repo digest).2 else (c.linkRemove repo storedAs).2

theorem deleteBlob_cases (c : Content) (repo : RepoName) (digest : Digest) :
    (c.deleteBlob repo digest).2 = c ∨ ∃ stat,c.blobStat repo digest = .ok stat ∧
      (c.deleteBlob repo digest) = (.ok (),c.blobUnlinked repo digest stat.storedAs) := by
  unfold deleteBlob blobUnlinked
  split
  · exact .inl rfl
  · rename_i stat found
    refine .inr ⟨stat,found,?_⟩
    split <;> simp_all

theorem mount_cases (c : Content) (target source : RepoName) (asked : Digest) :
    (c.mount target source asked).2 = c ∨ ∃ stat,c.blobStat source asked = .ok stat ∧
      c.mount target source asked = (.ok true,c.linkAdd target stat.storedAs .blob none) := by
  unfold mount
  split
  · rename_i stat found
    exact .inr ⟨stat,found,rfl⟩
  · exact .inl rfl
  · exact .inl rfl
  · exact .inl rfl

end Content

namespace OciStore

def Staged.other {s : OciStore} {id : UploadId} (crates : Crates) (staged : Staged s id) (claimed : Digest) : Digest :=
  if claimed.algorithm = .blake3 then crates.sha256Of staged.bytes
  else match staged.state.blake3 with
    | some fed => crates.digestOf .blake3 fed
    | none => match (s.store crates claimed staged.bytes).blobs[claimed]? with
      | some bytes => crates.digestOf .blake3 bytes
      | none => crates.digestOf .blake3 staged.bytes

open Content

variable (crates : Crates)

theorem finishedAlias_staged {id : UploadId} (staged : Staged s id) (claimed : Digest) (newly : Bool) :
    finishedAlias crates (Content.persistPartManifest crates (s.store crates claimed staged.bytes) staged.session.parts)
      staged.state ⟨claimed,newly,crates.additional claimed staged.bytes⟩ = .ok (some (staged.other crates claimed)) := by
  unfold finishedAlias Staged.other
  by_cases axis : claimed.algorithm = .blake3
  · have sha : (crates.sha256Of staged.bytes).algorithm = .sha256 := crates.digestOf_algorithm _ _
    simp [axis,Crates.additional,sha]
  · simp only [axis,if_false]
    cases fed : staged.state.blake3 with
    | some bytes => rfl
    | none =>
      obtain ⟨held,found⟩ := store_held crates s.toContent claimed staged.bytes
      have kept := (persistPartManifest_grows crates _ staged.session.parts).kept claimed held found
      simp [blake3OfStored,kept,found,Except.map]

theorem uploadFinish_matched {id : UploadId} (staged : Staged s id)
    (hashed : crates.digestOf claimed.algorithm staged.bytes = claimed) :
    (uploadFinish crates s id claimed).1 = .ok claimed ∧ (uploadFinish crates s id claimed).2.toContent =
        s.finished crates staged.state.repo claimed (staged.other crates claimed) staged.bytes staged.session.parts := by
  have named := finishedAlias_staged crates staged claimed (s.blobPut claimed staged.bytes).1
  simp only [store] at named
  unfold uploadFinish
  rw [staged.live]
  simp only
  unfold finishTaken kappaUploadComplete
  simp only [staged.attached,staged.held,hashed,ne_eq,not_true,if_false,named,uploadRowDelete]
  exact ⟨trivial,rfl⟩

variable (s : OciStore)

theorem uploadFinish_cases (id : UploadId) (claimed : Digest) : ((∃ e,(uploadFinish crates s id claimed).1 = .error e) ∧
      (uploadFinish crates s id claimed).2.toContent = s.toContent) ∨
    ∃ staged : Staged s id,crates.digestOf claimed.algorithm staged.bytes = claimed ∧
      (uploadFinish crates s id claimed).1 = .ok claimed ∧ (uploadFinish crates s id claimed).2.toContent =
        s.finished crates staged.state.repo claimed (staged.other crates claimed) staged.bytes staged.session.parts := by
  by_cases matched : ∃ staged : Staged s id,crates.digestOf claimed.algorithm staged.bytes = claimed
  · obtain ⟨staged,hashed⟩ := matched
    exact .inr ⟨staged,hashed,uploadFinish_matched crates staged hashed⟩
  · refine .inl ?_
    unfold uploadFinish
    cases live : s.sessions[id]? with
    | none => exact ⟨⟨_,rfl⟩,rfl⟩
    | some state =>
      simp only
      unfold finishTaken kappaUploadComplete
      cases attached : s.uploadSessions[state.kappaId]? with
      | none => exact ⟨⟨_,rfl⟩,rfl⟩
      | some session =>
        simp only
        cases held : s.staging[state.kappaId]? with
        | none => exact ⟨⟨_,rfl⟩,rfl⟩
        | some bytes =>
          have differs : crates.digestOf claimed.algorithm bytes ≠ claimed := fun hashed =>
            matched ⟨⟨state,session,bytes,live,attached,held⟩,hashed⟩
          simp only [ne_eq,differs,not_false_eq_true,if_true]; exact ⟨⟨_,rfl⟩,rfl⟩

theorem putDigest_hashed {crates : Crates}
    (address : putDigest crates reference bytes = .ok digest) : crates.digestOf digest.algorithm bytes = digest := by
  unfold putDigest at address
  split at address
  · split at address
    · cases address
    · rename_i agreed
      cases address
      exact of_not_not agreed
  · cases address
    exact congrArg (crates.digestOf · bytes) (crates.digestOf_algorithm _ _)

-- A manifest put whose references are all linked stores the manifest under its
-- address; a put by tag then moves the tag to it.
theorem manifestPut_matched (repo : RepoName) (reference : Reference) (mediaType : Str)
    (bytes : Bytes) (plan : ManifestPlan) {digest : Digest} (address : putDigest crates reference bytes = .ok digest)
    (complete : (s.missingReferences repo plan.mustExist).isEmpty = true) :
    (manifestPut crates s repo reference mediaType bytes plan).1 = .ok digest ∧
      (manifestPut crates s repo reference mediaType bytes plan).2.toContent =
        s.manifestPlaced crates repo reference digest mediaType bytes plan := by
  have ingested : s.ingestVerified crates digest bytes =
      (.ok ⟨digest,(s.blobPut digest bytes).1,crates.additional digest bytes⟩,s.store crates digest bytes) := by
    simp [ingestVerified,putDigest_hashed address,store]
  unfold manifestPut
  simp only [address,complete,Bool.not_true,Bool.false_eq_true,if_false,ingested]
  cases reference <;> exact ⟨rfl,rfl⟩

theorem manifestPut_cases (repo : RepoName) (reference : Reference) (mediaType : Str)
    (bytes : Bytes) (plan : ManifestPlan) :
    ((∃ e,(manifestPut crates s repo reference mediaType bytes plan).1 = .error e) ∧
      (manifestPut crates s repo reference mediaType bytes plan).2.toContent = s.toContent) ∨
    ∃ digest,crates.digestOf digest.algorithm bytes = digest ∧ putDigest crates reference bytes = .ok digest ∧
      (∀ needed ∈ plan.mustExist,s.LinkedUnder repo needed) ∧
      (manifestPut crates s repo reference mediaType bytes plan).1 = .ok digest ∧
      (manifestPut crates s repo reference mediaType bytes plan).2.toContent =
        s.manifestPlaced crates repo reference digest mediaType bytes plan := by
  cases address : putDigest crates reference bytes with
  | error e =>
    unfold manifestPut
    rw [address]
    exact .inl ⟨⟨_,rfl⟩,rfl⟩
  | ok digest =>
    by_cases complete : (s.missingReferences repo plan.mustExist).isEmpty = true
    · refine .inr ⟨digest,putDigest_hashed address,rfl,fun needed member => ?_,
        manifestPut_matched crates s repo reference mediaType bytes plan address complete⟩
      have found : (s.missingReferences repo plan.mustExist) = [] := isEmpty_iff.mp complete
      simp only [missingReferences,map_eq_nil_iff,filter_eq_nil_iff] at found
      have linked := found needed member
      cases checked : s.requireLink repo needed with
      | ok _ => exact requireLink_ok.mp checked
      | error e => simp [checked] at linked
    · unfold manifestPut
      simp only [address,complete,Bool.not_false,if_true]
      exact .inl ⟨⟨_,rfl⟩,trivial⟩

theorem manifestDelete_cases (repo : RepoName) (digest : Digest) :
    ((∃ e,(s.manifestDelete repo digest).1 = .error e) ∧ (s.manifestDelete repo digest).2 = s) ∨
    ∃ link,s.manifestLink repo digest = some link ∧ link.kind ≠ .blob ∧ s.manifestDelete repo digest =
        (.ok (),{s.namespaceResolveOrCreate repo with toContent := s.manifestDeleted repo digest}) := by
  unfold manifestDelete
  cases found : s.manifestLink repo digest with
  | none => exact .inl ⟨⟨_,rfl⟩,rfl⟩
  | some link =>
    by_cases blob : link.kind = .blob
    · simp only [blob,if_true]
      exact .inl ⟨⟨_,rfl⟩,trivial⟩
    · simp only [blob,if_false]
      exact .inr ⟨link,rfl,blob,rfl⟩

theorem tagDelete_cases (repo : RepoName) (tag : Tag) : (s.tagDelete repo tag).2.toContent = s.toContent ∨
      (s.tagDelete repo tag).2.toContent = s.tagRemove repo tag := by
  unfold tagDelete
  simp only
  split
  · exact .inl rfl
  · exact .inr rfl

theorem uploadAppend_content (id : UploadId) (offset : Nat) (frame : Bytes) (now : Nat) :
    (s.uploadAppend id offset frame now).2.toContent = s.toContent := by
  have part (state : SessionState) : (s.kappaUploadPutPart state.kappaId offset frame).2.toContent = s.toContent := by
    unfold kappaUploadPutPart
    cases s.uploadSessions[state.kappaId]? with
    | none => rfl
    | some session =>
      by_cases ordered : offset = session.offset
      · simp only [ordered,ne_eq,not_true,if_false]
        cases s.staging[state.kappaId]? <;> rfl
      · simp only [ne_eq,ordered,not_false_eq_true,if_true]
  unfold uploadAppend
  cases live : s.sessions[id]? with
  | none => rfl
  | some state =>
    have put := part state
    simp only [appendLocked]
    by_cases ordered : offset = state.received
    · simp only [ordered,ne_eq,not_true,if_false] at put ⊢
      cases answered : s.kappaUploadPutPart state.kappaId state.received frame with
      | mk answer after =>
        rw [answered] at put
        cases answer with
        | error e => exact put
        | ok total =>
          simp only; split
          · exact put
          · exact put
    · simp only [ne_eq,ordered,not_false_eq_true,if_true]

theorem uploadCancel_content (id : UploadId) : (s.uploadCancel id).2.toContent = s.toContent := by
  unfold uploadCancel kappaUploadAbort
  split
  · rfl
  · simp only [uploadRowDelete]
    split <;> rfl

theorem resumeRow_content (id : UploadId) (row : UploadRow) : (s.resumeRow id row).2.toContent = s.toContent := by
  unfold resumeRow kappaUploadResume
  simp only [namespaceResolveOrCreate]
  cases s.staging[row.kappaId]? with
  | none => rfl
  | some staged => cases s.uploadSessions[row.kappaId]? <;> rfl

theorem resumeRows_content (rows : List (UploadId × UploadRow)) (s : OciStore) :
    (resumeRows rows s).2.toContent = s.toContent := by
  induction rows generalizing s with
  | nil => rfl
  | cons row rest ih =>
    obtain ⟨id,entry⟩ := row
    have step := resumeRow_content s id entry
    unfold resumeRows
    split
    · rename_i s' resumed
      rw [ih s',←step,resumed]
    · rename_i s' resumed
      exact (ih s').trans (by rw [←step,resumed])

theorem restart_content : s.restart.toContent = s.toContent :=
  resumeRows_content s.uploads.toList {s with uploadSessions := ∅,sessions := ∅}

theorem manifestGet_content (repo : RepoName) (reference : Reference) :
    (s.manifestGet repo reference).2.toContent = s.toContent := by
  unfold manifestGet
  split
  · rfl
  · split
    · rfl
    · simp only
      split <;> rfl

theorem tagsPage_content (repo : RepoName) (after : Option Str) (limit : Nat) :
    (s.tagsPage repo after limit).2.toContent = s.toContent := by
  unfold tagsPage
  split <;> rfl

-- All that one call can do to what the registry holds. A collection is left
-- whole here.
inductive Effect (crates : Crates) (s : OciStore) : Op → Content → Prop
  | same (op : Op) : Effect crates s op s.toContent
  | listed (repo : RepoName) (fresh : UploadId) (now : Nat) (unused : s.Unused fresh) :
      Effect crates s (.begin repo fresh now) {s.toContent with repos := s.repos.insert repo}
  | finished (id : UploadId) (claimed : Digest) (staged : Staged s id)
      (hashed : crates.digestOf claimed.algorithm staged.bytes = claimed) :
      Effect crates s (.finish id claimed)
        (s.finished crates staged.state.repo claimed (staged.other crates claimed) staged.bytes staged.session.parts)
  | mounted (target source : RepoName) (asked : Digest) (stat : Content.BlobStat)
      (found : s.blobStat source asked = .ok stat) :
      Effect crates s (.mount target source asked) (s.linkAdd target stat.storedAs .blob none)
  | stored (repo : RepoName) (digest : Digest) (mediaType : Str) (bytes : Bytes) (plan : ManifestPlan)
      (hashed : crates.digestOf digest.algorithm bytes = digest)
      (linked : ∀ needed ∈ plan.mustExist,s.LinkedUnder repo needed) :
      Effect crates s (.manifestPut repo (.digest digest) mediaType bytes plan)
        (s.manifestStored crates repo digest mediaType bytes plan)
  | tagged (repo : RepoName) (tag : Tag) (mediaType : Str) (bytes : Bytes) (plan : ManifestPlan)
      (linked : ∀ needed ∈ plan.mustExist,s.LinkedUnder repo needed) :
      Effect crates s (.manifestPut repo (.tag tag) mediaType bytes plan)
        ((s.manifestStored crates repo (crates.sha256Of bytes) mediaType bytes plan).tagSet repo tag
          (crates.sha256Of bytes))
  | deleted (repo : RepoName) (digest : Digest) (link : Link) (found : s.manifestLink repo digest = some link)
      (manifest : link.kind ≠ .blob) : Effect crates s (.manifestDelete repo digest) (s.manifestDeleted repo digest)
  | untagged (repo : RepoName) (tag : Tag) : Effect crates s (.tagDelete repo tag) (s.tagRemove repo tag)
  | unlinked (repo : RepoName) (digest : Digest) (stat : Content.BlobStat) (found : s.blobStat repo digest = .ok stat) :
      Effect crates s (.deleteBlob repo digest) (s.blobUnlinked repo digest stat.storedAs)
  | collected (options : GcOptions) : Effect crates s (.collect options) (collect crates s options).store.toContent
  | older : Effect crates s .older s.forgetTheObjectTable

theorem step_effect {s : OciStore} {op : Op} (allowed : s.Allowed op) :
    Effect crates s op (s.step crates op).toContent := by
  have same (unchanged : (s.step crates op).toContent = s.toContent) :
      Effect crates s op (s.step crates op).toContent := unchanged ▸ .same op
  cases op with
  | begin repo fresh now => exact .listed repo fresh now allowed
  | append id offset frame now => exact same (s.uploadAppend_content id offset frame now)
  | finish id claimed =>
    rcases uploadFinish_cases crates s id claimed with ⟨-,unchanged⟩ | ⟨staged,hashed,-,content⟩
    · exact same unchanged
    · exact content ▸ Effect.finished id claimed staged hashed
  | cancel id => exact same (s.uploadCancel_content id)
  | restart => exact same s.restart_content
  | mount target source asked =>
    rcases s.mount_cases target source asked with unchanged | ⟨stat,found,content⟩
    · exact same unchanged
    · have after : (s.step crates (.mount target source asked)).toContent = _ := congrArg Prod.snd content
      exact after ▸ Effect.mounted target source asked stat found
  | manifestPut repo reference mediaType bytes plan =>
    rcases manifestPut_cases crates s repo reference mediaType bytes plan with
      ⟨-,unchanged⟩ | ⟨digest,hashed,address,linked,-,content⟩
    · exact same unchanged
    · cases reference with
      | digest named =>
        have claimed : named = digest := by
          simp only [putDigest] at address; split at address
          · cases address
          · exact Except.ok.inj address
        subst claimed; exact content ▸ Effect.stored repo named mediaType bytes plan hashed linked
      | tag tag =>
        obtain rfl : crates.sha256Of bytes = digest := Except.ok.inj address
        exact content ▸ Effect.tagged repo tag mediaType bytes plan linked
  | manifestGet repo reference => exact same (s.manifestGet_content repo reference)
  | tagsPage repo after limit => exact same (s.tagsPage_content repo after limit)
  | manifestDelete repo digest =>
    rcases s.manifestDelete_cases repo digest with ⟨-,unchanged⟩ | ⟨link,found,manifest,content⟩
    · exact same (congrArg toContent unchanged)
    · have after : (s.manifestDelete repo digest).2 = _ := congrArg Prod.snd content
      simp only [step,after]
      exact .deleted repo digest link found manifest
  | tagDelete repo tag =>
    rcases s.tagDelete_cases repo tag with unchanged | content
    · exact same unchanged
    · exact content ▸ Effect.untagged repo tag
  | deleteBlob repo digest =>
    rcases s.deleteBlob_cases repo digest with unchanged | ⟨stat,found,content⟩
    · exact same unchanged
    · have after : (s.step crates (.deleteBlob repo digest)).toContent = _ := congrArg Prod.snd content
      exact after ▸ Effect.unlinked repo digest stat found
  | collect options => exact .collected options
  | older => exact .older

end OciStore
end HologramLive
