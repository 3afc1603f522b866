import HologramLive.Oci.Names
namespace HologramLive.UploadFaults
open Tables Std Names OciStore Option List ExtTreeMap Content

-- The calls of an upload operation that the file system or the database can refuse.
-- What fails writes nothing, except a frame, of which a part may be written.
inductive Call where
  | namespaceRow
  | stage
  | rowPut
  | repoTouch
  | write
  | openStaged
  | hash
  | place
  | readBack
  | commit
  | rowDelete
  | remove
deriving DecidableEq, Repr

abbrev Faults := Call → Option Str
def quiet : Faults := fun _ => none

section Operations
variable (fails : Faults)

variable (s : OciStore)

def beginWith (repo : RepoName) (fresh : UploadId) (now : Nat) : Except OciStoreError UploadId × OciStore :=
  match fails .namespaceRow with
  | some e => (.error (storeIo "resolve the repository namespace".toList (.io e)),s)
  | none =>
    let named := s.namespaceResolveOrCreate repo
    match fails .stage with
    | some e => (.error (storeIo "begin upload".toList (.io e)),named)
    | none =>
      let begun := named.kappaUploadBegin fresh
      match fails .rowPut with
      | some e => (.error (.io e),begun)
      | none =>
        let recorded := {begun with uploads := begun.uploads.insert fresh ⟨repo,fresh,now,now⟩}
        match fails .repoTouch with
        | some e => (.error (.io e),recorded)
        | none =>
          let listed := recorded.repoTouch repo
          (.ok fresh,{listed with sessions := listed.sessions.insert fresh ⟨repo,fresh,0,some [],now,now,now⟩})

-- A failed write leaves the first bytes of the frame in the staging file, past the
-- offset the session knows.
def putPartWith (cut : Nat) (s : OciStore) (id : UploadId) (offset : Nat) (data : Bytes) : Except StoreError Nat × OciStore :=
  match s.kappaUploadPutPart id offset data,fails .write with
  | (.ok _,_),some e =>
    (.error (.io e),{s with staging := s.staging.insert id ((s.staging[id]?).getD [] ++ data.take cut)})
  | answer,_ => answer

def appendLockedWith (cut : Nat) (s : OciStore) (id : UploadId) (state : SessionState) (offset : Nat) (frame : Bytes)
    (now : Nat) : Except OciStoreError Nat × SessionState × OciStore :=
  if offset ≠ state.received then (.error (.offsetMismatch state.received offset),state,s)
  else match putPartWith fails cut s state.kappaId offset frame with
    | (.error e,s') => (.error (storeIo "append to upload".toList e),state,s')
    | (.ok total,s') =>
      let moved := {state with blake3 := state.blake3.map (· ++ frame),received := total,touchedMs := now}
      if now - state.rowWrittenMs ≥ rowWriteIntervalMs then match fails .rowPut with
        | some e => (.error (.io e),moved,s')
        | none => (.ok total,{moved with rowWrittenMs := now},
            {s' with uploads := s'.uploads.insert id ⟨state.repo,state.kappaId,state.createdMs,now⟩})
      else (.ok total,moved,s')

def appendWith (cut : Nat) (s : OciStore) (id : UploadId) (offset : Nat) (frame : Bytes) (now : Nat) :
    Except OciStoreError Nat × OciStore :=
  match s.sessions[id]? with
  | none => (.error (.unknownUpload id.text),s)
  | some state => match appendLockedWith fails cut s id state offset frame now with
    | (answer,moved,s') => (answer,{s' with sessions := s'.sessions.insert id moved})

variable (id : UploadId)

def removeWith : OciStore :=
  match fails .remove with
  | some _ => s
  | none => {s with staging := s.staging.erase id}

variable (crates : Crates)

-- An error while the staged bytes are hashed is a refusal too, but the file stays.
def completeWith (s : OciStore) (id : UploadId) (claimed : Digest) : Except StoreError IngestResult × OciStore :=
  match s.uploadSessions[id]? with
  | none => (.error (.notFound ("upload ".toList ++ id.text)),s)
  | some session =>
    let dropped := {s with uploadSessions := s.uploadSessions.erase id}
    match s.staging[id]?,fails .openStaged,fails .hash with
    | none,_,_ => (.error noSuchFile,dropped)
    | _,some e,_ => (.error (.io e),dropped)
    | _,_,some e => (.error (.rejected e),dropped)
    | some staged,none,none =>
      let computed := crates.digestOf claimed.algorithm staged
      if computed ≠ claimed then
        (.error (.rejected ("digest mismatch: expected ".toList ++ claimed.asStr ++ ", computed ".toList ++
          computed.asStr)),removeWith fails dropped id)
      else
        let placed := s.toContent.blobPut claimed staged
        let additional := crates.additional claimed staged
        let content := (placed.2.linkAdditional claimed additional).persistPartManifest crates session.parts
        match placed.1,fails .place with
        | false,_ => (.ok ⟨claimed,false,additional⟩,{removeWith fails dropped id with toContent := content})
        | true,some e => (.error (.io e),dropped)
        | true,none => (.ok ⟨claimed,true,additional⟩,{dropped with toContent := content,staging := dropped.staging.erase id})

def rowDeleteWith : Except OciStoreError Unit × OciStore :=
  match fails .rowDelete with
  | some e => (.error (.io e),s)
  | none => (.ok (),s.uploadRowDelete id)

def aliasWith (c : Content) (state : SessionState) (result : IngestResult) : Except OciStoreError (Option Digest) :=
  if result.kappa.algorithm = .blake3 ∨ state.blake3.isSome then finishedAlias crates c state result
  else match fails .readBack with
    | some e => .error (.io ("read ".toList ++ result.kappa.asStr ++ ": ".toList ++ e))
    | none => finishedAlias crates c state result

def commitWith (s : OciStore) (id : UploadId) (state : SessionState) (result : IngestResult) :
    Except OciStoreError Digest × OciStore :=
  match aliasWith fails crates s.toContent state result,fails .commit with
  | .error e,_ => (.error e,s)
  | .ok _,some e => (.error (.io e),s)
  | .ok other,none =>
    let committed := {s with
      toContent := s.toContent.commitFinishedUpload state.repo result.kappa other result.newlyStored}
    (.ok result.kappa,committed.uploadRowDelete id)

def finishTakenWith (s : OciStore) (id : UploadId) (state : SessionState) (claimed : Digest) :
    Except OciStoreError Digest × OciStore :=
  match completeWith fails crates s state.kappaId claimed with
  | (.error (.rejected _),s') => match rowDeleteWith fails s' id with
    | (.error e,s'') => (.error e,s'')
    | (.ok _,s'') => (.error (.digestMismatch claimed.asStr),s'')
  | (.error e,s') => (.error (storeIo "complete upload".toList e),s')
  | (.ok result,s') => commitWith fails crates s' id state result

def finishWith (s : OciStore) (id : UploadId) (claimed : Digest) : Except OciStoreError Digest × OciStore :=
  match s.sessions[id]? with
  | none => (.error (.unknownUpload id.text),s)
  | some state => finishTakenWith fails crates {s with sessions := s.sessions.erase id} id state claimed

def abortWith : OciStore :=
  match s.uploadSessions[id]? with
  | none => s
  | some _ => removeWith fails {s with uploadSessions := s.uploadSessions.erase id} id

def cancelWith : Except OciStoreError Unit × OciStore :=
  match s.sessions[id]? with
  | none => rowDeleteWith fails s id
  | some state => rowDeleteWith fails (abortWith fails {s with sessions := s.sessions.erase id} state.kappaId) id

end Operations

def expiredUploads (maxAge : Nat) (s : OciStore) (now : Nat) : List UploadId :=
  (s.sessions.toList.filter fun row => now - row.2.touchedMs > maxAge).map (·.1)

def cancelAll (fails : UploadId → Faults) : List UploadId → OciStore → Except OciStoreError Unit × OciStore
  | [],s => (.ok (),s)
  | id :: rest,s => match cancelWith (fails id) s id with
    | (.error e,s') => (.error e,s')
    | (.ok _,s') => cancelAll fails rest s'

-- The map gives its sessions in an order of its own.
structure Order where
  sort : List UploadId → List UploadId
  perm : ∀ ids,(sort ids).Perm ids

def purgeWith (fails : UploadId → Faults) (maxAge : Nat) (order : Order) (s : OciStore) (now : Nat) :
    Except OciStoreError Nat × OciStore :=
  let expired := order.sort (expiredUploads maxAge s now)
  match cancelAll fails expired s with
  | (.error e,s') => (.error e,s')
  | (.ok _,s') => (.ok expired.length,s')

section Quiet
variable (crates : Crates) (s : OciStore) (id : UploadId)

theorem beginWith_quiet (repo : RepoName) (now : Nat) :
    beginWith quiet s repo id now = (.ok (s.uploadBegin repo id now).1,(s.uploadBegin repo id now).2) := rfl

theorem putPartWith_quiet (cut offset : Nat) (data : Bytes) :
    putPartWith quiet cut s id offset data = s.kappaUploadPutPart id offset data := by
  unfold putPartWith quiet
  split
  · rename_i none
    cases none
  · rfl

theorem appendWith_quiet (cut offset : Nat) (frame : Bytes) (now : Nat) :
    appendWith quiet cut s id offset frame now = s.uploadAppend id offset frame now := by
  unfold appendWith uploadAppend appendLockedWith appendLocked
  simp only [putPartWith_quiet]
  rfl

theorem completeWith_quiet (claimed : Digest) :
    completeWith quiet crates s id claimed = kappaUploadComplete crates s id claimed := by
  unfold completeWith kappaUploadComplete quiet removeWith
  cases s.uploadSessions[id]? with
  | none => rfl
  | some session =>
    dsimp only
    cases s.staging[id]? with
    | none => rfl
    | some staged =>
      dsimp only
      split
      · rfl
      · cases (s.toContent.blobPut claimed staged).1 <;> rfl

theorem finishWith_quiet (claimed : Digest) : finishWith quiet crates s id claimed = uploadFinish crates s id claimed := by
  have read (c : Content) (state : SessionState) (result : IngestResult) :
      aliasWith quiet crates c state result = finishedAlias crates c state result := by
    unfold aliasWith quiet
    split <;> rfl
  unfold finishWith uploadFinish finishTakenWith finishTaken commitWith
  simp only [completeWith_quiet,read]
  cases s.sessions[id]? with
  | none => rfl
  | some state =>
    dsimp only
    generalize kappaUploadComplete crates _ state.kappaId claimed = answer
    obtain ⟨result,s'⟩ := answer
    cases result with
    | error e => cases e <;> rfl
    | ok result =>
      dsimp only
      cases finishedAlias crates s'.toContent state result <;> rfl

theorem cancelWith_quiet : cancelWith quiet s id = s.uploadCancel id := by
  unfold cancelWith uploadCancel abortWith kappaUploadAbort
  rfl

end Quiet

-- One operation, with the calls of it that fail; a restart finds all it asks for.
inductive UploadOp where
  | begin (fails : Faults) (repo : RepoName) (fresh : UploadId) (now : Nat)
  | append (fails : Faults) (cut : Nat) (id : UploadId) (offset : Nat) (frame : Bytes) (now : Nat)
  | finish (fails : Faults) (id : UploadId) (claimed : Digest)
  | cancel (fails : Faults) (id : UploadId)
  | purge (fails : UploadId → Faults) (order : Order) (now : Nat)
  | restart

section Run
variable (crates : Crates) (maxAge : Nat)

def step (s : OciStore) : UploadOp → OciStore
  | .begin fails repo fresh now => (beginWith fails s repo fresh now).2
  | .append fails cut id offset frame now => (appendWith fails cut s id offset frame now).2
  | .finish fails id claimed => (finishWith fails crates s id claimed).2
  | .cancel fails id => (cancelWith fails s id).2
  | .purge fails order now => (purgeWith fails maxAge order s now).2
  | .restart => s.restart

def run (s : OciStore) (ops : List UploadOp) : OciStore := ops.foldl (step crates maxAge) s

-- The map and the rows name the same sessions, and every staging file is of one of
-- them.
structure Named (s : OciStore) : Prop where
  rows : ∀ id : UploadId,(s.sessions[id]?).isSome ↔ (s.uploads[id]?).isSome
  files : ∀ id : UploadId,(s.staging[id]?).isSome → (s.sessions[id]?).isSome

structure Kept (s : OciStore) : Prop extends Named s where
  held : ∀ (id : UploadId) (state : SessionState),s.sessions[id]? = some state →
    state.kappaId = id ∧ (s.uploadSessions[id]?).isSome ∧ (s.staging[id]?).isSome
  row_id : ∀ (id : UploadId) (row : UploadRow),s.uploads[id]? = some row → row.kappaId = id

-- No call fails between the first change an operation makes to the three and its last.
def CleanBegin (fails : Faults) (s : OciStore) (fresh : UploadId) : Prop :=
  (fails .namespaceRow).isSome ∨ (fails .stage).isSome ∨ (fails .rowPut = none ∧ fails .repoTouch = none) ∨
    (s.sessions[fresh]?).isSome

-- The other name is found unless the blob has to be read for it and cannot be.
def Addressed (fails : Faults) (state : SessionState) (digest : Digest) : Prop :=
  digest.algorithm = .blake3 ∨ state.blake3.isSome ∨ fails .readBack = none

def CleanFinish (fails : Faults) (s : OciStore) (state : SessionState) (staged : Bytes) (claimed : Digest) : Prop :=
  fails .openStaged = none ∧ fails .hash = none ∧
    if crates.digestOf claimed.algorithm staged = claimed then
      (if (s.blobs[claimed]?).isSome then fails .remove = none else fails .place = none) ∧
        Addressed fails state claimed ∧ fails .commit = none
    else fails .remove = none ∧ fails .rowDelete = none

def CleanCancel (fails : Faults) : Prop := fails .remove = none ∧ fails .rowDelete = none

def Clean (s : OciStore) : UploadOp → Prop
  | .begin fails _ fresh _ => CleanBegin fails s fresh
  | .append .. | .restart => True
  | .finish fails id claimed => ∀ state staged,s.sessions[id]? = some state → s.staging[id]? = some staged →
      CleanFinish crates fails s state staged claimed
  | .cancel fails id => (s.sessions[id]?).isSome → CleanCancel fails
  | .purge fails _ now => ∀ id ∈ expiredUploads maxAge s now,CleanCancel (fails id)

def CleanRun : OciStore → List UploadOp → Prop
  | _,[] => True
  | s,op :: rest => Clean crates maxAge s op ∧ CleanRun (step crates maxAge s op) rest

variable {crates} {maxAge} {s t : OciStore}

theorem Kept.same (kept : Kept s) (same : SameUploads s t) : Kept t := by
  obtain ⟨sessions,uploads,staging,uploadSessions⟩ := same
  refine ⟨⟨fun id => ?_,fun id => ?_⟩,fun id state => ?_,fun id row => ?_⟩
  · rw [sessions,uploads]
    exact kept.rows id
  · rw [sessions,staging]
    exact kept.files id
  · rw [sessions,staging,uploadSessions]
    exact kept.held id state
  · rw [uploads]
    exact kept.row_id id row

theorem Named.same (named : Named s) (same : SameUploads s t) : Named t := by
  refine ⟨fun id => ?_,fun id => ?_⟩
  · rw [same.sessions,same.uploads]
    exact named.rows id
  · rw [same.sessions,same.staging]
    exact named.files id

theorem Kept.put (kept : Kept s) {id : UploadId} (state : SessionState) (row : UploadRow) (own : state.kappaId = id)
    (rowOwn : row.kappaId = id) (sessions : t.sessions = s.sessions.insert id state)
    (uploads : ∀ other : UploadId,t.uploads[other]? = if id = other then some row else s.uploads[other]?)
    (staging : ∀ other : UploadId,(t.staging[other]?).isSome ↔ id = other ∨ (s.staging[other]?).isSome)
    (uploadSessions : ∀ other : UploadId,(t.uploadSessions[other]?).isSome ↔ id = other ∨ (s.uploadSessions[other]?).isSome) :
    Kept t := by
  refine ⟨⟨fun other => ?_,fun other => ?_⟩,fun other found => ?_,fun other found => ?_⟩
  · rw [sessions,get_insert,uploads]
    split
    · exact iff_of_true rfl rfl
    · exact kept.rows other
  · rw [sessions,get_insert,staging]
    split
    · exact fun _ => rfl
    · rename_i apart
      exact fun either => kept.files other (either.resolve_left apart)
  · rw [sessions,get_insert,staging,uploadSessions]
    split
    · rename_i here
      intro same
      cases same
      exact ⟨own.trans here,.inl here,.inl here⟩
    · intro before
      obtain ⟨mine,open_,file⟩ := kept.held other found before
      exact ⟨mine,.inr open_,.inr file⟩
  · rw [uploads]
    split
    · rename_i here
      intro same
      cases same
      exact rowOwn.trans here
    · exact kept.row_id other found

theorem Kept.drop (kept : Kept s) (id : UploadId) (sessions : t.sessions = s.sessions.erase id)
    (uploads : t.uploads = s.uploads.erase id) (staging : t.staging = s.staging.erase id)
    (uploadSessions : t.uploadSessions = s.uploadSessions.erase id) : Kept t := by
  refine ⟨⟨fun other => ?_,fun other => ?_⟩,fun other state => ?_,fun other row => ?_⟩
  · rw [sessions,uploads,get_erase,get_erase]
    split
    · exact iff_of_false (by simp) (by simp)
    · exact kept.rows other
  · rw [sessions,staging,get_erase,get_erase]
    split
    · exact fun none => by simp at none
    · exact kept.files other
  · rw [sessions,staging,uploadSessions,get_erase,get_erase,get_erase]
    split
    · exact fun none => by simp at none
    · exact kept.held other state
  · rw [uploads,get_erase]
    split
    · exact fun none => by simp at none
    · exact kept.row_id other row

theorem unnamed_row (id : UploadId) (gone : t.sessions[id]? = none) (row : (t.uploads[id]?).isSome) : ¬Named t := by
  intro named
  have found := (named.rows id).mpr row
  rw [gone] at found
  cases found

theorem unnamed_file (id : UploadId) (gone : t.sessions[id]? = none) (file : (t.staging[id]?).isSome) : ¬Named t := by
  intro named
  have found := named.files id file
  rw [gone] at found
  cases found

theorem Named.reach (named : Named s) {id : UploadId} (left : (s.uploads[id]?).isSome ∨ (s.staging[id]?).isSome) :
    ∃ state,s.sessions[id]? = some state ∧ ∀ now,now - state.touchedMs > maxAge → id ∈ expiredUploads maxAge s now := by
  obtain ⟨state,found⟩ := isSome_iff_exists.mp (left.elim (named.rows id).mpr (named.files id))
  refine ⟨state,found,fun now old => mem_map.mpr ⟨(id,state),mem_filter.mpr ⟨mem_rows.mpr found,?_⟩,rfl⟩⟩
  exact decide_eq_true old

theorem insert_isSome {α : Type} (table : Table UploadId α) (id other : UploadId) (value : α) :
    ((table.insert id value)[other]?).isSome ↔ id = other ∨ (table[other]?).isSome := by
  rw [get_insert]
  split
  · rename_i here
    exact iff_of_true rfl (.inl here)
  · rename_i apart
    exact ⟨.inr,fun either => either.resolve_left apart⟩

theorem Kept.rewrite {moved : SessionState} (kept : Kept s) {id : UploadId} (found : s.sessions[id]? = some state)
    (own : moved.kappaId = state.kappaId) (sessions : t.sessions = s.sessions.insert id moved)
    (uploads : t.uploads = s.uploads ∨ ∃ row : UploadRow,row.kappaId = state.kappaId ∧ t.uploads = s.uploads.insert id row)
    (staging : t.staging = s.staging ∨ ∃ bytes,t.staging = s.staging.insert id bytes)
    (uploadSessions : t.uploadSessions = s.uploadSessions ∨ ∃ session,t.uploadSessions = s.uploadSessions.insert id session) :
    Kept t := by
  obtain ⟨mine,running,file⟩ := kept.held id state found
  have known : (s.sessions[id]?).isSome := by rw [found]; rfl
  obtain ⟨row,recorded⟩ := isSome_iff_exists.mp ((kept.rows id).mp known)
  have rowOwn := kept.row_id id row recorded
  have grown {α : Type} {before after : Table UploadId α} (there : (before[id]?).isSome)
      (same : after = before ∨ ∃ value,after = before.insert id value) (other : UploadId) :
      (after[other]?).isSome ↔ id = other ∨ (before[other]?).isSome := by
    rcases same with rfl | ⟨value,rfl⟩
    · refine ⟨.inr,fun either => either.elim (fun here => ?_) fun before => before⟩
      rw [←here]
      exact there
    · exact insert_isSome before id other value
  rcases uploads with same | ⟨fresh,freshOwn,same⟩
  · refine kept.put _ row (own.trans mine) rowOwn sessions (fun other => ?_) (grown file staging) (grown running uploadSessions)
    rw [same]
    split
    · rename_i here
      rw [←here,recorded]
    · rfl
  · refine kept.put _ fresh (own.trans mine) (freshOwn.trans mine) sessions (fun other => ?_) (grown file staging)
      (grown running uploadSessions)
    rw [same,get_insert]

section Begin
variable (fails : Faults) (repo : RepoName) (fresh : UploadId) (now : Nat)

theorem insertIfNew_isSome (staging : Table UploadId Bytes) (other : UploadId) :
    ((staging.insertIfNew fresh [])[other]?).isSome ↔ fresh = other ∨ (staging[other]?).isSome := by
  rw [getElem?_insertIfNew]
  simp only [Std.compare_eq_iff_eq]
  split
  · rename_i both
    exact iff_of_true rfl (.inl both.1)
  · rename_i neither
    refine ⟨.inr,fun either => either.elim (fun here => ?_) fun before => before⟩
    subst here
    by_contra absent
    refine neither ⟨rfl,fun member => absent ?_⟩
    rw [getElem?_eq_some_getElem member]
    rfl

theorem begin_step (kept : Kept s) : (CleanBegin fails s fresh → Kept (beginWith fails s repo fresh now).2) ∧
    (Named (beginWith fails s repo fresh now).2 → CleanBegin fails s fresh) := by
  unfold beginWith CleanBegin
  cases named : fails .namespaceRow with
  | some e => exact ⟨fun _ => kept,fun _ => .inl rfl⟩
  | none =>
    cases staged : fails .stage with
    | some e => exact ⟨fun _ => kept.same ⟨rfl,rfl,rfl,rfl⟩,fun _ => .inr (.inl rfl)⟩
    | none =>
      -- The staging file is there now; the session is not before the end.
      have file : ((s.staging.insertIfNew fresh [])[fresh]?).isSome := (insertIfNew_isSome fresh s.staging fresh).mpr (.inl rfl)
      have known (present : (s.sessions[fresh]?).isSome) (uploads : Table UploadId UploadRow)
          (rows : uploads = s.uploads ∨ ∃ row : UploadRow,row.kappaId = fresh ∧ uploads = s.uploads.insert fresh row) :
          Kept {(s.namespaceResolveOrCreate repo).kappaUploadBegin fresh with uploads := uploads} := by
        obtain ⟨state,found⟩ := isSome_iff_exists.mp present
        obtain ⟨mine,-,-⟩ := kept.held fresh state found
        obtain ⟨row,recorded⟩ := isSome_iff_exists.mp ((kept.rows fresh).mp present)
        rcases rows with rfl | ⟨newer,own,rfl⟩
        · exact kept.put _ row mine (kept.row_id fresh row recorded) (insert_same found).symm
            (fun other => by
              split
              · rename_i here; rw [←here]
                exact recorded
              · rfl) (insertIfNew_isSome fresh s.staging) (insert_isSome _ fresh · _)
        · exact kept.put _ newer mine own (insert_same found).symm (fun other => get_insert _ _ _ _)
            (insertIfNew_isSome fresh s.staging) (insert_isSome _ fresh · _)
      cases recorded : fails .rowPut with
      | some e =>
        refine ⟨fun clean => ?_,fun named => .inr (.inr (.inr (named.files fresh file)))⟩
        rcases clean with none | none | ⟨none,-⟩ | present
        · cases none
        · cases none
        · cases none
        · exact known present s.uploads (.inl rfl)
      | none =>
        let row : UploadRow := ⟨repo,fresh,now,now⟩
        cases listed : fails .repoTouch with
        | some e =>
          refine ⟨fun clean => ?_,fun named => .inr (.inr (.inr (named.files fresh file)))⟩
          rcases clean with none | none | ⟨-,none⟩ | present
          · cases none
          · cases none
          · cases none
          · exact known present (s.uploads.insert fresh row) (.inr ⟨row,rfl,rfl⟩)
        | none =>
          refine ⟨fun _ => ?_,fun _ => .inr (.inr (.inl ⟨rfl,rfl⟩))⟩
          exact kept.put ⟨repo,fresh,0,some [],now,now,now⟩ row rfl rfl rfl (fun other => get_insert _ _ _ _)
            (insertIfNew_isSome fresh s.staging) (insert_isSome _ fresh · _)

end Begin

theorem append_step (fails : Faults) (cut : Nat) (id : UploadId) (offset : Nat) (frame : Bytes) (now : Nat) (kept : Kept s) :
    Kept (appendWith fails cut s id offset frame now).2 := by
  unfold appendWith
  cases found : s.sessions[id]? with
  | none => exact kept
  | some state =>
    obtain ⟨mine,running,file⟩ := kept.held id state found
    obtain ⟨session,running⟩ := isSome_iff_exists.mp running
    obtain ⟨staged,file⟩ := isSome_iff_exists.mp file
    dsimp only
    unfold appendLockedWith
    split
    · exact kept.rewrite found rfl rfl (.inl rfl) (.inl rfl) (.inl rfl)
    · unfold putPartWith kappaUploadPutPart
      rw [mine,running]
      dsimp only
      by_cases moved : offset = session.offset
      · rw [if_neg (not_not_intro moved),file]
        dsimp only
        cases fails .write with
        | some e => exact kept.rewrite found rfl rfl (.inl rfl) (.inr ⟨_,rfl⟩) (.inl rfl)
        | none =>
          dsimp only; split
          · cases fails .rowPut with
            | some e => exact kept.rewrite found mine.symm rfl (.inl rfl) (.inr ⟨_,rfl⟩) (.inr ⟨_,rfl⟩)
            | none => exact kept.rewrite found mine.symm rfl (.inr ⟨_,mine.symm,rfl⟩) (.inr ⟨_,rfl⟩) (.inr ⟨_,rfl⟩)
          · exact kept.rewrite found mine.symm rfl (.inl rfl) (.inr ⟨_,rfl⟩) (.inr ⟨_,rfl⟩)
      · rw [if_pos moved]; exact kept.rewrite found rfl rfl (.inl rfl) (.inl rfl) (.inl rfl)

section Finish
variable (fails : Faults) (id : UploadId) (claimed : Digest) {state : SessionState} {staged : Bytes}

variable (crates) (state) in
theorem alias_found (blob : c.blobs[result.kappa]? = some held) :
    (Addressed fails state result.kappa → ∃ other,aliasWith fails crates c state result = .ok other) ∧
      (¬Addressed fails state result.kappa → ∃ e,aliasWith fails crates c state result = .error e) := by
  unfold aliasWith Addressed
  by_cases known : result.kappa.algorithm = .blake3 ∨ state.blake3.isSome
  · rw [if_pos known]
    refine ⟨fun _ => ?_,fun none => absurd (known.imp_right .inl) none⟩
    unfold finishedAlias
    split
    · exact ⟨_,rfl⟩
    · rename_i other
      obtain ⟨fed,running⟩ := isSome_iff_exists.mp (known.resolve_left other)
      rw [running]
      exact ⟨_,rfl⟩
  · rw [if_neg known]
    obtain ⟨other,lost⟩ := not_or.mp known
    cases read : fails .readBack with
    | some e =>
      refine ⟨fun either => ?_,fun _ => ⟨_,rfl⟩⟩
      rcases either with same | fed | none
      · exact absurd same other
      · exact absurd fed lost
      · cases none
    | none =>
      refine ⟨fun _ => ?_,fun none => absurd (.inr (.inr rfl)) none⟩
      unfold finishedAlias blake3OfStored
      rw [if_neg other,not_isSome_iff_eq_none.mp lost,blob]
      exact ⟨_,rfl⟩

variable (crates) (state) in
theorem commit_step (kept : Kept s) (recorded : (s.uploads[id]?).isSome) {u : OciStore} {result : IngestResult} {held : Bytes}
    (blob : u.blobs[result.kappa]? = some held) (sessions : u.sessions = s.sessions.erase id) (uploads : u.uploads = s.uploads)
    (staging : u.staging = s.staging.erase id) (uploadSessions : u.uploadSessions = s.uploadSessions.erase id) :
    (Addressed fails state result.kappa ∧ fails .commit = none → Kept (commitWith fails crates u id state result).2) ∧
      (Named (commitWith fails crates u id state result).2 → Addressed fails state result.kappa ∧ fails .commit = none) := by
  have unnamed : ¬Named u := by
    refine unnamed_row id ?_ ?_
    · rw [sessions,get_erase,if_pos rfl]
    · rw [uploads]
      exact recorded
  obtain ⟨finds,misses⟩ := alias_found crates fails state blob
  unfold commitWith
  by_cases found : Addressed fails state result.kappa
  · obtain ⟨other,answer⟩ := finds found
    rw [answer]
    cases fails .commit with
    | some e => exact ⟨fun both => (by cases both.2),fun named => absurd named unnamed⟩
    | none => exact ⟨fun _ => kept.drop id sessions (congrArg (·.erase id) uploads) staging uploadSessions,fun _ => ⟨found,rfl⟩⟩
  · obtain ⟨e,answer⟩ := misses found
    rw [answer]
    exact ⟨fun both => absurd both.1 found,fun named => absurd named unnamed⟩

-- What is left when a finish or a cancel is over: all four rows of the session are
-- gone, or the row or the file is still there.
theorem finish_step (kept : Kept s) (found : s.sessions[id]? = some state) (file : s.staging[id]? = some staged) :
    (CleanFinish crates fails s state staged claimed → Kept (finishWith fails crates s id claimed).2) ∧
      (Named (finishWith fails crates s id claimed).2 → CleanFinish crates fails s state staged claimed) := by
  obtain ⟨mine,running,-⟩ := kept.held id state found
  obtain ⟨session,running⟩ := isSome_iff_exists.mp running
  have recorded : (s.uploads[id]?).isSome := (kept.rows id).mp (by rw [found]; rfl)
  have row {u : OciStore} (sessions : u.sessions = s.sessions.erase id) (uploads : u.uploads = s.uploads) : ¬Named u := by
    refine unnamed_row id ?_ ?_
    · rw [sessions,get_erase,if_pos rfl]
    · rw [uploads]
      exact recorded
  have left {u : OciStore} (sessions : u.sessions = s.sessions.erase id) (staging : u.staging = s.staging) : ¬Named u := by
    refine unnamed_file id ?_ ?_
    · rw [sessions,get_erase,if_pos rfl]
    · rw [staging,file]
      rfl
  unfold finishWith CleanFinish
  rw [found]
  dsimp only
  unfold finishTakenWith completeWith
  rw [mine]
  dsimp only
  rw [running,file]
  dsimp only
  cases opened : fails .openStaged with
  | some e => exact ⟨fun clean => (by cases clean.1),fun named => absurd named (row rfl rfl)⟩
  | none =>
    cases hashed : fails .hash with
    | some e =>
      refine ⟨fun clean => (by cases clean.2.1),fun named => ?_⟩
      dsimp only at named
      unfold rowDeleteWith at named
      cases deleted : fails .rowDelete with
      | some e => rw [deleted] at named; exact absurd named (row rfl rfl)
      | none => rw [deleted] at named; exact absurd named (left rfl rfl)
    | none =>
      dsimp only
      by_cases same : crates.digestOf claimed.algorithm staged = claimed
      · rw [if_neg (not_not_intro same),if_pos same]
        -- The blob is at its address once it was placed, and nothing after removes it.
        let content := persistPartManifest crates (s.toContent.store crates claimed staged) session.parts
        obtain ⟨held,stored⟩ := store_held crates s.toContent claimed staged
        have blob : content.blobs[claimed]? = some held :=
          (persistPartManifest_grows crates (s.toContent.store crates claimed staged) session.parts).kept claimed held stored
        let dropped : OciStore := {s with
          sessions := s.sessions.erase id
          uploadSessions := s.uploadSessions.erase id}
        have commits (newlyStored : Bool) := @commit_step crates s fails id state kept recorded
          {dropped with toContent := content,staging := s.staging.erase id}
          ⟨claimed,newlyStored,crates.additional claimed staged⟩ held blob rfl rfl rfl rfl
        cases there : s.blobs[claimed]? with
        | some bytes =>
          have placed : (s.toContent.blobPut claimed staged).1 = false := by unfold blobPut; rw [there]
          rw [placed]
          dsimp only
          unfold removeWith
          cases removed : fails .remove with
          | some e =>
            refine ⟨fun clean => (by cases clean.2.2.1),fun named => absurd named ?_⟩
            have stays : (commitWith fails crates {dropped with toContent := content} id state
                ⟨claimed,false,crates.additional claimed staged⟩).2.staging = s.staging := by
              unfold commitWith
              split <;> rfl
            have gone : (commitWith fails crates {dropped with toContent := content} id state
                ⟨claimed,false,crates.additional claimed staged⟩).2.sessions = s.sessions.erase id := by
              unfold commitWith
              split <;> rfl
            exact left gone stays
          | none => exact ⟨fun clean => (commits false).1 clean.2.2.2,fun named => ⟨rfl,rfl,rfl,(commits false).2 named⟩⟩
        | none =>
          have placed : (s.toContent.blobPut claimed staged).1 = true := by unfold blobPut; rw [there]
          rw [placed]
          cases renamed : fails .place with
          | some e => exact ⟨fun clean => (by cases clean.2.2.1),fun named => absurd named (row rfl rfl)⟩
          | none => exact ⟨fun clean => (commits true).1 clean.2.2.2,fun named => ⟨rfl,rfl,rfl,(commits true).2 named⟩⟩
      · rw [if_pos same,if_neg same]
        dsimp only
        unfold rowDeleteWith removeWith
        cases removed : fails .remove with
        | some e =>
          refine ⟨fun clean => (by cases clean.2.2.1),fun named => ?_⟩
          cases deleted : fails .rowDelete with
          | some e => rw [deleted] at named; exact absurd named (row rfl rfl)
          | none => rw [deleted] at named; exact absurd named (left rfl rfl)
        | none =>
          cases deleted : fails .rowDelete with
          | some e => exact ⟨fun clean => (by cases clean.2.2.2),fun named => absurd named (row rfl rfl)⟩
          | none => exact ⟨fun _ => kept.drop id rfl rfl rfl rfl,fun _ => ⟨rfl,rfl,rfl,rfl⟩⟩

end Finish

section Cancel

theorem rowDelete_absent {id : UploadId} (fails : Faults) (absent : s.uploads[id]? = none) : (rowDeleteWith fails s id).2 = s := by
  unfold rowDeleteWith
  cases fails .rowDelete with
  | some e => rfl
  | none =>
    have same : s.uploads.erase id = s.uploads := by
      refine table_ext fun other => ?_
      rw [get_erase]
      split
      · rename_i here; rw [←here,absent]
      · rfl
    unfold uploadRowDelete
    dsimp only
    rw [same]

theorem cancel_step (fails : Faults) (id : UploadId) (kept : Kept s) :
    (((s.sessions[id]?).isSome → CleanCancel fails) → Kept (cancelWith fails s id).2) ∧
      (Named (cancelWith fails s id).2 → (s.sessions[id]?).isSome → CleanCancel fails) := by
  cases found : s.sessions[id]? with
  | none =>
    have absent : s.uploads[id]? = none := by
      rw [←not_isSome_iff_eq_none,←kept.rows id,found]
      exact Bool.false_ne_true
    refine ⟨fun _ => ?_,fun _ none => by cases none⟩
    unfold cancelWith
    rw [found]
    dsimp only
    rw [rowDelete_absent fails absent]
    exact kept
  | some state =>
    obtain ⟨mine,running,file⟩ := kept.held id state found
    obtain ⟨session,running⟩ := isSome_iff_exists.mp running
    have recorded : (s.uploads[id]?).isSome := (kept.rows id).mp (by rw [found]; rfl)
    have gone : (s.sessions.erase id)[id]? = none := by rw [get_erase,if_pos rfl]
    unfold cancelWith CleanCancel
    rw [found]
    dsimp only
    unfold abortWith rowDeleteWith removeWith
    rw [mine]
    dsimp only
    rw [running]
    dsimp only
    cases fails .rowDelete with
    | some e =>
      refine ⟨fun clean => (by cases (clean rfl).2),fun named => absurd named ?_⟩
      cases fails .remove <;> exact unnamed_row id gone recorded
    | none => cases fails .remove with
      | some e => exact ⟨fun clean => (by cases (clean rfl).1),fun named => absurd named (unnamed_file id gone file)⟩
      | none => exact ⟨fun _ => kept.drop id rfl rfl rfl rfl,fun _ _ => ⟨rfl,rfl⟩⟩

def Own (s : OciStore) : Prop := ∀ (id : UploadId) (state : SessionState),s.sessions[id]? = some state → state.kappaId = id

theorem cancel_frame (fails : Faults) (id : UploadId) (own : Own s) : Own (cancelWith fails s id).2 ∧
    ∀ other : UploadId,id ≠ other → (cancelWith fails s id).2.sessions[other]? = s.sessions[other]? ∧
      (cancelWith fails s id).2.staging[other]? = s.staging[other]? := by
  have deleted (u : OciStore) : (rowDeleteWith fails u id).2.sessions = u.sessions ∧ (rowDeleteWith fails u id).2.staging = u.staging := by
    unfold rowDeleteWith
    split <;> exact ⟨rfl,rfl⟩
  unfold cancelWith
  cases found : s.sessions[id]? with
  | none =>
    obtain ⟨sessions,staging⟩ := deleted s
    dsimp only
    unfold Own
    rw [sessions,staging]
    exact ⟨own,fun _ _ => ⟨rfl,rfl⟩⟩
  | some state =>
    have mine := own id state found
    dsimp only
    obtain ⟨sessions,staging⟩ := deleted (abortWith fails {s with sessions := s.sessions.erase id} state.kappaId)
    have erased : (abortWith fails {s with sessions := s.sessions.erase id} state.kappaId).sessions = s.sessions.erase id := by
      unfold abortWith removeWith
      split
      · rfl
      · split <;> rfl
    unfold Own
    rw [sessions,erased,staging]
    refine ⟨fun other holds found => ?_,fun other apart => ⟨by rw [get_erase,if_neg apart],?_⟩⟩
    · rw [get_erase] at found
      split at found
      · cases found
      · exact own other holds found
    · unfold abortWith removeWith
      rw [mine]
      split
      · rfl
      · split
        · rfl
        · show (s.staging.erase id)[other]? = _
          rw [get_erase,if_neg apart]

theorem cancelAll_frame (fails : UploadId → Faults) (apart : other ∉ ids) (own : Own s) :
    (cancelAll fails ids s).2.sessions[other]? = s.sessions[other]? ∧ (cancelAll fails ids s).2.staging[other]? = s.staging[other]? := by
  induction ids generalizing s with
  | nil => exact ⟨rfl,rfl⟩
  | cons id rest ih =>
    obtain ⟨first,rest_apart⟩ := not_or.mp (mt mem_cons.mpr apart)
    obtain ⟨stays,frame⟩ := cancel_frame (fails id) id own
    obtain ⟨sessions,staging⟩ := frame other fun same => first same.symm
    unfold cancelAll
    split
    · rename_i e s' ended
      rw [ended] at sessions staging
      exact ⟨sessions,staging⟩
    · rename_i s' went
      rw [went] at sessions staging stays
      obtain ⟨sessions',staging'⟩ := ih rest_apart stays
      exact ⟨sessions'.trans sessions,staging'.trans staging⟩

theorem cancelAll_kept (fails : UploadId → Faults) (clean : ∀ id ∈ ids,CleanCancel (fails id)) (kept : Kept s) :
    Kept (cancelAll fails ids s).2 := by
  induction ids generalizing s with
  | nil => exact kept
  | cons id rest ih =>
    obtain ⟨first,others⟩ := forall_mem_cons.mp clean
    have next := (cancel_step (fails id) id kept).1 fun _ => first
    unfold cancelAll
    split
    · rename_i e s' ended
      rw [ended] at next
      exact next
    · rename_i s' went
      rw [went] at next
      exact ih others next

theorem cancelAll_clean (fails : UploadId → Faults) (apart : ids.Nodup)
    (live : ∀ id ∈ ids,(s.sessions[id]?).isSome) (kept : Kept s) (named : Named (cancelAll fails ids s).2) :
    ∀ id ∈ ids,CleanCancel (fails id) := by
  induction ids generalizing s with
  | nil => exact fun _ none => by cases none
  | cons id rest ih =>
    obtain ⟨fresh,distinct⟩ := nodup_cons.mp apart
    obtain ⟨first,others⟩ := forall_mem_cons.mp live
    have own : Own s := fun other state found => (kept.held other state found).1
    obtain ⟨keeps,exact_⟩ := cancel_step (fails id) id kept
    obtain ⟨stays,frame⟩ := cancel_frame (fails id) id own
    unfold cancelAll at named
    split at named
    · -- The purge stops at a row that cannot be deleted, and that row is left.
      rename_i e s' ended
      rw [ended] at exact_
      have clean := exact_ named first
      unfold cancelWith at ended
      obtain ⟨state,found⟩ := isSome_iff_exists.mp first
      rw [found] at ended
      dsimp only at ended
      unfold rowDeleteWith at ended
      rw [clean.2] at ended
      cases ended
    · rename_i s' went
      rw [went] at keeps exact_ stays frame
      by_cases clean : CleanCancel (fails id)
      · refine forall_mem_cons.mpr ⟨clean,ih distinct (fun other member => ?_) (keeps fun _ => clean) named⟩
        rw [(frame other fun same => fresh (same ▸ member)).1]; exact others other member
      · -- The row went, so the file could not be removed, and no later cancel looks at it.
        obtain ⟨state,found⟩ := isSome_iff_exists.mp first
        obtain ⟨mine,running,file⟩ := kept.held id state found
        obtain ⟨session,running⟩ := isSome_iff_exists.mp running
        have leftover : s'.sessions[id]? = none ∧ (s'.staging[id]?).isSome := by
          unfold cancelWith at went; rw [found] at went
          dsimp only at went
          unfold rowDeleteWith abortWith removeWith at went; rw [mine] at went
          dsimp only at went; rw [running] at went
          cases deleted : fails id .rowDelete with
          | some e => rw [deleted] at went; cases went
          | none =>
            rw [deleted] at went
            cases removed : fails id .remove with
            | none => exact absurd ⟨removed,deleted⟩ clean
            | some e =>
              rw [removed] at went; cases went
              refine ⟨?_,file⟩
              show (s.sessions.erase id)[id]? = none
              rw [get_erase,if_pos rfl]
        obtain ⟨sessions,staging⟩ := cancelAll_frame fails fresh stays
        exact absurd named (unnamed_file id (sessions.trans leftover.1) (by rw [staging]; exact leftover.2))

theorem purge_step (fails : UploadId → Faults) (order : Order) (now : Nat) (kept : Kept s) :
    ((∀ id ∈ expiredUploads maxAge s now,CleanCancel (fails id)) → Kept (purgeWith fails maxAge order s now).2) ∧
      (Named (purgeWith fails maxAge order s now).2 → ∀ id ∈ expiredUploads maxAge s now,CleanCancel (fails id)) := by
  have same : (purgeWith fails maxAge order s now).2 = (cancelAll fails (order.sort (expiredUploads maxAge s now)) s).2 := by
    unfold purgeWith
    dsimp only
    split
    · rename_i ended
      rw [ended]
    · rename_i went
      rw [went]
  have perm := order.perm (expiredUploads maxAge s now)
  rw [same]
  refine ⟨fun clean => cancelAll_kept fails (fun id member => clean id (perm.mem_iff.mp member)) kept,fun named id member => ?_⟩
  refine cancelAll_clean fails (perm.nodup_iff.mpr ?_) (fun other there => ?_) kept named id (perm.mem_iff.mpr member)
  · refine List.Nodup.sublist (filter_sublist.map _) ?_
    exact pairwise_map.mpr (distinct_keys_toList.imp fun apart same => apart (Std.compare_eq_iff_eq.mpr same))
  · obtain ⟨row,held,rfl⟩ := mem_map.mp (perm.mem_iff.mp there)
    rw [mem_rows.mp (mem_filter.mp held).1]
    rfl

end Cancel

section Restart

theorem resumeRow_attached {id : UploadId} (own : row.kappaId = id) (file : (t.staging[id]?).isSome) :
    ∃ u state,t.resumeRow id row = (true,u) ∧ u.staging = t.staging ∧ u.uploads = t.uploads ∧
      u.sessions = t.sessions.insert id state ∧ state.kappaId = id ∧
      ∀ other : UploadId,(u.uploadSessions[other]?).isSome ↔ id = other ∨ (t.uploadSessions[other]?).isSome := by
  obtain ⟨staged,file⟩ := isSome_iff_exists.mp file
  unfold resumeRow kappaUploadResume namespaceResolveOrCreate
  rw [own]
  dsimp only
  rw [file]
  dsimp only
  cases running : t.uploadSessions[id]? with
  | some session =>
    refine ⟨_,_,rfl,rfl,rfl,rfl,rfl,fun other => ⟨.inr,fun either => either.elim (fun here => ?_) fun before => before⟩⟩
    rw [←here,running]
    rfl
  | none => exact ⟨_,_,rfl,rfl,rfl,rfl,rfl,fun other => insert_isSome _ _ _ _⟩

structure Attached (rows : List (UploadId × UploadRow)) (t u : OciStore) : Prop where
  staging : u.staging = t.staging
  uploads : u.uploads = t.uploads
  live : ∀ id : UploadId,(u.sessions[id]?).isSome ↔ (t.sessions[id]?).isSome ∨ id ∈ rows.map (·.1)
  held : ∀ (id : UploadId) (state : SessionState),u.sessions[id]? = some state →
    state.kappaId = id ∧ (u.uploadSessions[id]?).isSome

theorem resumeRows_attached (rows : List (UploadId × UploadRow)) (own : ∀ row ∈ rows,row.2.kappaId = row.1)
    (files : ∀ row ∈ rows,(t.staging[row.1]?).isSome) (held : ∀ (id : UploadId) (state : SessionState),
      t.sessions[id]? = some state → state.kappaId = id ∧ (t.uploadSessions[id]?).isSome) :
    (resumeRows rows t).1 = rows.map (·.1) ∧ Attached rows t (resumeRows rows t).2 := by
  induction rows generalizing t with
  | nil => exact ⟨rfl,rfl,rfl,fun _ => by simp [resumeRows],held⟩
  | cons first rest ih =>
    obtain ⟨id,row⟩ := first
    obtain ⟨ownFirst,ownRest⟩ := forall_mem_cons.mp own
    obtain ⟨fileFirst,fileRest⟩ := forall_mem_cons.mp files
    obtain ⟨u,state,resumed,staging,uploads,sessions,mine,running⟩ := resumeRow_attached ownFirst fileFirst
    have heldNext (other : UploadId) (found : SessionState) (there : u.sessions[other]? = some found) :
        found.kappaId = other ∧ (u.uploadSessions[other]?).isSome := by
      rw [sessions,get_insert] at there
      rw [running]
      split at there
      · rename_i here; cases there
        exact ⟨mine.trans here,.inl here⟩
      · obtain ⟨same,before⟩ := held other found there
        exact ⟨same,.inr before⟩
    obtain ⟨known,attached⟩ := ih ownRest (fun other member => by rw [staging]; exact fileRest other member) heldNext
    have goes : resumeRows ((id,row) :: rest) t =
        (row.kappaId :: (resumeRows rest u).1,(resumeRows rest u).2) := by
      rw [resumeRows,resumed]
    rw [goes]
    refine ⟨?_,attached.staging.trans staging,attached.uploads.trans uploads,fun other => ?_,attached.held⟩
    · rw [known,map_cons]
      exact congrArg (· :: rest.map (·.1)) ownFirst
    · rw [attached.live,sessions,insert_isSome,map_cons,mem_cons]
      constructor
      · rintro ((here | before) | later)
        · exact .inr (.inl here.symm)
        · exact .inl before
        · exact .inr (.inr later)
      · rintro (before | here | later)
        · exact .inl (.inr before)
        · exact .inl (.inl here.symm)
        · exact .inr later

theorem restart_step (kept : Kept s) : Kept s.restart := by
  let empty : OciStore := {s with uploadSessions := ∅,sessions := ∅}
  have own (row : UploadId × UploadRow) (member : row ∈ s.uploads.toList) : row.2.kappaId = row.1 :=
    kept.row_id row.1 row.2 (mem_rows.mp member)
  have files (row : UploadId × UploadRow) (member : row ∈ s.uploads.toList) : (empty.staging[row.1]?).isSome := by
    have recorded : (s.uploads[row.1]?).isSome := by rw [mem_rows.mp member]; rfl
    obtain ⟨state,found⟩ := isSome_iff_exists.mp ((kept.rows row.1).mpr recorded)
    exact (kept.held row.1 state found).2.2
  obtain ⟨known,attached⟩ := @resumeRows_attached empty s.uploads.toList own files fun id state found => by
    simp [empty] at found
  have live (id : UploadId) : (s.restart.sessions[id]?).isSome ↔ (s.uploads[id]?).isSome := by
    show ((resumeRows s.uploads.toList empty).2.sessions[id]?).isSome ↔ _
    rw [attached.live,List.mem_map,isSome_iff_exists]
    constructor
    · rintro (none | ⟨row,member,rfl⟩)
      · simp [empty] at none
      · rw [mem_rows.mp member]; rfl
    · intro recorded
      obtain ⟨row,recorded⟩ := isSome_iff_exists.mp recorded
      exact .inr ⟨(id,row),mem_rows.mpr recorded,rfl⟩
  have staging (id : UploadId) : (s.restart.staging[id]?).isSome ↔ (s.staging[id]?).isSome ∧ (s.uploads[id]?).isSome := by
    have swept : s.restart.staging = eraseKeys (resumeRows s.uploads.toList empty).2.staging
        ((resumeRows s.uploads.toList empty).2.staging.keys.filter fun file =>
          !(resumeRows s.uploads.toList empty).1.contains file) := rfl
    have recorded : id ∈ s.uploads.toList.map (·.1) ↔ (s.uploads[id]?).isSome := by
      rw [List.mem_map,isSome_iff_exists]
      constructor
      · rintro ⟨row,member,rfl⟩
        exact ⟨row.2,mem_rows.mp member⟩
      · rintro ⟨row,held⟩
        exact ⟨(id,row),mem_rows.mpr held,rfl⟩
    rw [swept,known,attached.staging,get_eraseKeys,←recorded]
    have stray : id ∈ (empty.staging.keys.filter fun file => !(s.uploads.toList.map (·.1)).contains file) ↔
        (s.staging[id]?).isSome ∧ id ∉ s.uploads.toList.map (·.1) := by
      rw [List.mem_filter,ExtTreeMap.mem_keys,←isSome_getElem?_iff_mem,Bool.not_eq_true',contains_eq_mem,
        decide_eq_false_iff_not]
    split
    · rename_i gone
      exact iff_of_false Bool.false_ne_true fun both => (stray.mp gone).2 both.2
    · rename_i stays
      refine ⟨fun file => ⟨file,?_⟩,And.left⟩
      by_contra absent
      exact stays (stray.mpr ⟨file,absent⟩)
  refine ⟨⟨fun id => ?_,fun id file => ?_⟩,fun id state found => ?_,fun id row found => ?_⟩
  · rw [live]
    show _ ↔ ((resumeRows s.uploads.toList empty).2.uploads[id]?).isSome
    rw [attached.uploads]
  · rw [live]
    exact ((staging id).mp file).2
  · obtain ⟨mine,running⟩ := attached.held id state found
    have recorded := (live id).mp (by rw [found]; rfl)
    obtain ⟨before,there⟩ := isSome_iff_exists.mp ((kept.rows id).mpr recorded)
    exact ⟨mine,running,(staging id).mpr ⟨(kept.held id before there).2.2,recorded⟩⟩
  · have same : s.restart.uploads = s.uploads := attached.uploads
    rw [same] at found
    exact kept.row_id id row found

end Restart

-- One step from a store that keeps its bookkeeping keeps it exactly when it is clean.
theorem step_exact (kept : Kept s) (op : UploadOp) : (Clean crates maxAge s op → Kept (step crates maxAge s op)) ∧
      (Named (step crates maxAge s op) → Clean crates maxAge s op) := by
  cases op with
  | begin fails repo fresh now => exact begin_step fails repo fresh now kept
  | append fails cut id offset frame now => exact ⟨fun _ => append_step fails cut id offset frame now kept,fun _ => trivial⟩
  | finish fails id claimed =>
    cases found : s.sessions[id]? with
    | none =>
      have same : (finishWith fails crates s id claimed).2 = s := by
        unfold finishWith; rw [found]
      refine ⟨fun _ => ?_,fun _ state staged there => ?_⟩
      · show Kept (finishWith fails crates s id claimed).2
        rw [same]; exact kept
      · rw [found] at there; cases there
    | some state =>
      obtain ⟨staged,file⟩ := isSome_iff_exists.mp (kept.held id state found).2.2
      obtain ⟨keeps,exact_⟩ := @finish_step crates s fails id claimed _ _ kept found file
      refine ⟨fun clean => keeps (clean state staged found file),fun named other bytes there held => ?_⟩
      rw [found] at there
      rw [file] at held
      cases there
      cases held
      exact exact_ named
  | cancel fails id => exact cancel_step fails id kept
  | purge fails order now => exact purge_step fails order now kept
  | restart => exact ⟨fun _ => restart_step kept,fun _ => trivial⟩

theorem run_kept (kept : Kept s) (ops : List UploadOp) (clean : CleanRun crates maxAge s ops) : Kept (run crates maxAge s ops) := by
  induction ops generalizing s with
  | nil => exact kept
  | cons op rest ih => exact ih ((step_exact kept op).1 clean.1) clean.2

theorem created_kept : Kept .created := by
  refine ⟨⟨fun id => ?_,fun id file => ?_⟩,fun id state found => ?_,fun id row found => ?_⟩
  · simp [created]
  · simp [created] at file
  · simp [created] at found
  · simp [created] at found

-- After a run in which no operation leaves anything behind, the map, the rows and the
-- files agree, and the next operation keeps that exactly when it is clean too.
theorem bookkeeping_atomic (crates : Crates) (maxAge : Nat) (ops : List UploadOp)
    (clean : CleanRun crates maxAge .created ops) : Named (run crates maxAge .created ops) ∧ ∀ op,
      Named (step crates maxAge (run crates maxAge .created ops) op) ↔ Clean crates maxAge (run crates maxAge .created ops) op := by
  have kept := run_kept created_kept ops clean
  exact ⟨kept.toNamed,fun op => ⟨(step_exact kept op).2,fun next => ((step_exact kept op).1 next).toNamed⟩⟩

end Run

section Samples
open Sample

def diskFull : Str := "No space left on device (os error 28)".toList
def failing (call : Call) : Faults := fun other => if other = call then some diskFull else none
def hour : Nat := 60*60*1000

def interrupted : List UploadOp := [.begin quiet app first 0,.append quiet 0 first 0 layer 1,
  .append (failing .write) 0 first 1 layer 2,.append (failing .rowPut) 0 first 1 layer 6000]

theorem interrupted_named : Named (run crates hour .created interrupted) ∧ ∀ op,
    Named (step crates hour (run crates hour .created interrupted) op) ↔
      Clean crates hour (run crates hour .created interrupted) op :=
  bookkeeping_atomic crates hour interrupted ⟨.inr (.inr (.inl ⟨rfl,rfl⟩)),trivial,trivial,trivial,trivial⟩

-- A begin, a finish and a cancel that fail half way leave a row, and a finish that
-- cannot hash a file, that no session names.
theorem failures_leave_rows : ¬Named (step crates hour .created (.begin (failing .repoTouch) app first 0)) ∧
    ¬Named (step crates hour (run crates hour .created [.begin quiet app first 0])
      (.finish (failing .openStaged) first (name .sha256 layer))) ∧
    ¬Named (step crates hour (run crates hour .created [.begin quiet app first 0])
      (.finish (failing .hash) first (name .sha256 layer))) ∧
    ¬Named (step crates hour (run crates hour .created [.begin quiet app first 0]) (.cancel (failing .rowDelete) first)) := by
  refine ⟨unnamed_row first ?_ ?_,unnamed_row first ?_ ?_,unnamed_file first ?_ ?_,
    unnamed_row first ?_ ?_⟩
  all_goals decide +kernel

end Samples
end HologramLive.UploadFaults
