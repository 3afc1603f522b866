import HologramLive.Oci.UploadFaults
import HologramLive.Oci.GcSafety
namespace HologramLive.Transfers
open Tables Std Names OciStore UploadFaults

-- The frames accepted for each session since it began, in their order.
def accept (s : OciStore) (log : UploadId → Bytes) : Op → UploadId → Bytes
  | .begin _ fresh _ => Function.update log fresh []
  | .append id offset frame now => match (s.uploadAppend id offset frame now).1 with
    | .ok _ => Function.update log id (log id ++ frame)
    | .error _ => log
  | _ => log

def accepted (crates : Crates) : OciStore → (UploadId → Bytes) → List Op → UploadId → Bytes
  | _,log,[] => log
  | s,log,op :: rest => accepted crates (s.step crates op) (accept s log op) rest

-- What each row of a table says of the bytes of the session it is under.
def Tells {α : Type} (tells : α → Bytes → Prop) (log : UploadId → Bytes) (table : Table UploadId α) : Prop :=
  ∀ (id : UploadId) (row : α),table[id]? = some row → tells row (log id)

-- The staging file and both halves of a session tell of the same bytes.
structure Recorded (log : UploadId → Bytes) (s : OciStore) : Prop where
  staged : Tells (· = ·) log s.staging
  offset : Tells (fun session bytes => session.offset = bytes.length) log s.uploadSessions
  received : Tells (fun state bytes => state.received = bytes.length) log s.sessions

section Runs
variable {crates : Crates} {held : Bytes → Prop} {log : UploadId → Bytes} {s t : OciStore} {id : UploadId} {claimed : Digest} {state : SessionState}

theorem Recorded.fewer (recorded : Recorded log s) (fewer : Fewer s t) : Recorded log t :=
  ⟨fun id bytes found => recorded.staged id bytes (fewer.staging id bytes found),
    fun id session found => recorded.offset id session (fewer.uploadSessions id session found),
    fun id state found => recorded.received id state (fewer.sessions id state found)⟩

theorem Tells.write {α : Type} {tells : α → Bytes → Prop} {table table' : Table UploadId α} {row : α} {bytes : Bytes}
    (told : Tells tells log table) (right : tells row bytes)
    (moved : ∀ other : UploadId,table'[other]? = if id = other then some row else table[other]?) :
    Tells tells (Function.update log id bytes) table' := by
  intro other after found
  rw [moved] at found
  split at found
  · rename_i same
    cases found
    rwa [←same,Function.update_self]
  · rename_i apart
    rw [Function.update_of_ne (Ne.symm apart)]
    exact told other after found

-- The entries of one session written anew, with what the log now says of it.
theorem Recorded.write (recorded : Recorded log s) {bytes : Bytes} {session : DiskUploadSession} {state : SessionState}
    (offset : session.offset = bytes.length) (received : state.received = bytes.length)
    (staging : ∀ other : UploadId,t.staging[other]? = if id = other then some bytes else s.staging[other]?)
    (uploadSessions : ∀ other : UploadId,t.uploadSessions[other]? = if id = other then some session else s.uploadSessions[other]?)
    (sessions : ∀ other : UploadId,t.sessions[other]? = if id = other then some state else s.sessions[other]?) :
    Recorded (Function.update log id bytes) t :=
  ⟨recorded.staged.write rfl staging,recorded.offset.write offset uploadSessions,recorded.received.write received sessions⟩

theorem begin_recorded (recorded : Recorded log s) (repo : RepoName) (now : Nat) (unused : s.Unused id) :
    Recorded (Function.update log id []) (s.uploadBegin repo id now).2 := by
  obtain ⟨-,-,unstaged,-⟩ := unused
  refine recorded.write rfl rfl (fun other => ?_) (fun other => get_insert ..) fun other => get_insert ..
  have absent : id ∉ s.staging := by simpa using unstaged
  simp only [uploadBegin,repoTouch,kappaUploadBegin,namespaceResolveOrCreate,ExtTreeMap.getElem?_insertIfNew,Std.compare_eq_iff_eq]
  by_cases same : id = other
  · subst same
    simp [absent]
  · simp [same]

-- An append at the end of what was accepted goes through, and no other one does.
theorem append_exact (kept : Kept s) (recorded : Recorded log s) (live : s.sessions[id]? = some state)
    (offset : Nat) (frame : Bytes) (now : Nat) : (offset ≠ (log id).length → s.uploadAppend id offset frame now =
      (.error (.offsetMismatch (log id).length offset),{s with sessions := s.sessions.insert id state})) ∧
    (offset = (log id).length → (s.uploadAppend id offset frame now).1 = .ok (log id ++ frame).length ∧
      Recorded (Function.update log id (log id ++ frame)) (s.uploadAppend id offset frame now).2) := by
  obtain ⟨own,attached,file⟩ := kept.held id state live
  obtain ⟨session,attached⟩ := Option.isSome_iff_exists.mp attached
  obtain ⟨bytes,file⟩ := Option.isSome_iff_exists.mp file
  have received := recorded.received id state live
  have there := recorded.offset id session attached
  obtain rfl := recorded.staged id bytes file
  unfold uploadAppend appendLocked
  rw [live]
  dsimp only
  constructor
  · intro moved
    rw [if_pos (by omega),received]
  · intro placed
    rw [if_neg (by omega)]
    unfold kappaUploadPutPart
    rw [own,attached]
    dsimp only
    rw [if_neg (by omega),file]
    have total : session.offset + frame.length = (log id ++ frame).length := by rw [List.length_append,there]
    dsimp only
    rw [total]
    split
    all_goals exact ⟨rfl,recorded.write rfl rfl (fun other => get_insert ..) (fun other => get_insert ..) fun other => get_insert ..⟩

theorem append_recorded (kept : Kept s) (recorded : Recorded log s) (offset : Nat) (frame : Bytes) (now : Nat) :
    Recorded (accept s log (.append id offset frame now)) (s.uploadAppend id offset frame now).2 := by
  simp only [accept]
  cases live : s.sessions[id]? with
  | none =>
    unfold uploadAppend
    rw [live]
    exact recorded
  | some state =>
    obtain ⟨refused,goes⟩ := append_exact kept recorded live offset frame now
    by_cases placed : offset = (log id).length
    · obtain ⟨ok,after⟩ := goes placed
      rw [ok]
      exact after
    · rw [refused placed]
      refine recorded.fewer ⟨fun other row found => ?_,fun _ _ found => found,fun _ _ found => found,fun _ _ found => found⟩
      rw [get_insert] at found
      split at found
      · rename_i same; exact same ▸ live.trans found
      · exact found

theorem get_same {α : Type} {table : Table UploadId α} {value : α} (there : table[id]? = some value) (other : UploadId) :
    table[other]? = if id = other then some value else table[other]? := by
  split
  · rename_i same
    rw [←same,there]
  · rfl

theorem resumeRow_recorded (recorded : Recorded log s) {row : UploadRow} (own : row.kappaId = id) :
    Recorded log (s.resumeRow id row).2 := by
  unfold resumeRow kappaUploadResume namespaceResolveOrCreate uploadRowDelete
  rw [own]
  dsimp only
  cases file : s.staging[id]? with
  | none => exact recorded.fewer ⟨fun _ _ found => found,fun _ _ => erase_sub,fun _ _ found => found,fun _ _ found => found⟩
  | some staged =>
    have content := recorded.staged id staged file
    rw [←Function.update_eq_self id log]
    dsimp only
    cases running : s.uploadSessions[id]? with
    | some existing =>
      have there := recorded.offset id existing running
      exact recorded.write there there (get_same (content ▸ file)) (get_same running) fun other => get_insert ..
    | none =>
      have long : staged.length = (log id).length := by rw [content]
      exact recorded.write long long (get_same (content ▸ file)) (fun other => get_insert ..) fun other => get_insert ..

theorem restart_recorded (recorded : Recorded log s) (agrees : Names.Agrees s) : Recorded log s.restart := by
  have rows (entries : List (UploadId × UploadRow)) (t : OciStore) (before : Recorded log t)
      (own : ∀ entry ∈ entries,entry.2.kappaId = entry.1) : Recorded log (resumeRows entries t).2 := by
    induction entries generalizing t with
    | nil => exact before
    | cons entry rest ih =>
      obtain ⟨first,others⟩ := List.forall_mem_cons.mp own
      have moved := resumeRow_recorded before first
      unfold resumeRows
      split
      all_goals
        rename_i resumed; rw [resumed] at moved
        exact ih _ moved others
  unfold OciStore.restart resumeUploads
  have emptied : Recorded log {s with uploadSessions := ∅,sessions := ∅} :=
    recorded.fewer ⟨fun _ _ found => by simp at found,fun _ _ found => found,fun _ _ found => found,fun _ _ found => by simp at found⟩
  have attached := rows s.uploads.toList _ emptied fun entry member => agrees.row_id _ _ (mem_rows.mp member)
  refine attached.fewer ⟨fun _ _ found => found,fun _ _ found => found,fun file bytes found => ?_,fun _ _ found => found⟩
  rw [get_eraseKeys] at found
  split at found
  · cases found
  · exact found

-- Without failures of the file system the bookkeeping is kept by every call.
theorem step_kept (kept : Kept s) (op : Op) : Kept (s.step crates op) := by
  cases op with
  | begin repo fresh now => exact (begin_step quiet repo fresh now kept).1 (.inr (.inr (.inl ⟨rfl,rfl⟩)))
  | append id offset frame now =>
    rw [OciStore.step,←appendWith_quiet s id 0]
    exact append_step quiet 0 id offset frame now kept
  | finish id claimed =>
    rw [OciStore.step,←finishWith_quiet]
    refine (@step_exact crates 0 s kept (.finish quiet id claimed)).1 fun state staged _ _ => ⟨rfl,rfl,?_⟩
    split
    · exact ⟨by split <;> rfl,.inr (.inr rfl),rfl⟩
    · exact ⟨rfl,rfl⟩
  | cancel id =>
    rw [OciStore.step,←cancelWith_quiet]
    exact (cancel_step quiet id kept).1 fun _ => ⟨rfl,rfl⟩
  | restart => exact restart_step kept
  | mount | manifestPut | manifestGet | tagsPage | manifestDelete | tagDelete | deleteBlob | collect | older =>
    exact kept.same (step_uploads crates id)

theorem step_recorded {op : Op} (recorded : Recorded log s) (kept : Kept s) (agrees : Names.Agrees s) (allowed : s.Allowed op) :
    Recorded (accept s log op) (s.step crates op) := by
  cases op with
  | begin repo fresh now => exact begin_recorded recorded repo now allowed
  | append id offset frame now => exact append_recorded kept recorded offset frame now
  | finish id claimed => exact recorded.fewer (finish_fewer crates s id claimed)
  | cancel id => exact recorded.fewer (cancel_fewer s id)
  | restart => exact restart_recorded recorded agrees
  | mount | manifestPut | manifestGet | tagsPage | manifestDelete | tagDelete | deleteBlob | collect | older =>
    exact recorded.fewer (step_uploads crates id).fewer

theorem run_recorded {ops : List Op} (recorded : Recorded log s) (kept : Kept s) (agrees : Names.Agrees s)
    (legal : Legal crates held s ops) : Recorded (accepted crates s log ops) (runFrom crates s ops) ∧ Kept (runFrom crates s ops) := by
  induction ops generalizing s log with
  | nil => exact ⟨recorded,kept⟩
  | cons op rest ih =>
    obtain ⟨allowed,-,later⟩ := legal
    exact ih (step_recorded recorded kept agrees allowed) (step_kept kept op) (step_agrees agrees crates allowed) later

theorem finish_gone (live : s.sessions[id]? = some state) : (uploadFinish crates s id claimed).2.sessions[id]? = none := by
  have same (t : OciStore) (kappaId : UploadId) : (kappaUploadComplete crates t kappaId claimed).2.sessions = t.sessions := by
    unfold kappaUploadComplete
    split
    · rfl
    · split
      · rfl
      · dsimp only
        split <;> rfl
  have same := same {s with sessions := s.sessions.erase id} state.kappaId
  unfold uploadFinish finishTaken
  rw [live]
  dsimp only
  generalize kappaUploadComplete crates _ state.kappaId claimed = result at same ⊢
  obtain ⟨answer,after⟩ := result
  have gone : after.sessions[id]? = none := by
    rw [show after.sessions = s.sessions.erase id from same]
    simp
  cases answer with
  | error e => cases e <;> exact gone
  | ok result =>
    dsimp only
    split <;> exact gone

theorem finished_opens (distinguishes : crates.Distinguishes held) (hashed : Hashed crates held s.toContent) {repo : RepoName}
    {other : Digest} {bytes : Bytes} {parts : List (Nat × Bytes)} (named : crates.Names claimed bytes) (known : held bytes) :
    (s.finished crates repo claimed other bytes parts).blobOpen repo claimed = .ok (⟨bytes.length,claimed⟩,bytes) := by
  obtain ⟨found,placed⟩ := Content.store_held crates s.toContent claimed bytes
  obtain ⟨also,names⟩ := (hashed.store distinguishes known named).stored claimed found placed
  obtain rfl := names_unique distinguishes known also named names
  refine Content.blobOpen_ok.mpr ⟨.inl ?_,.own ((Content.persistPartManifest_grows crates _ parts).kept claimed bytes placed),rfl⟩
  simp [Content.Linked,Content.linkGet,Content.finished,Content.commitFinishedUpload]

-- Whatever run led here, a live session holds exactly the frames accepted since it
-- began, and takes the next one only at their end. Its finish succeeds exactly when they
-- hash to the claimed digest, and the repository then serves these bytes under it.
theorem uploads_whole {ops : List Op} (distinguishes : crates.Distinguishes held) (legal : Legal crates held .created ops)
    (live : (runFrom crates .created ops).sessions[id]? = some state) :
    let s := runFrom crates .created ops
    let bytes := accepted crates .created (fun _ => []) ops id
    s.uploadStatus id = .ok ⟨state.repo,bytes.length⟩ ∧ s.staging[id]? = some bytes ∧
    (∀ offset frame now,(∃ total,(s.uploadAppend id offset frame now).1 = .ok total) ↔ offset = bytes.length) ∧
    ∀ claimed,(uploadFinish crates s id claimed).2.sessions[id]? = none ∧ (uploadFinish crates s id claimed).2.staging[id]? = none ∧
      if crates.Names claimed bytes then (uploadFinish crates s id claimed).1 = .ok claimed ∧ (held bytes →
        (uploadFinish crates s id claimed).2.blobOpen state.repo claimed = .ok (⟨bytes.length,claimed⟩,bytes))
      else (uploadFinish crates s id claimed).1 = .error (.digestMismatch claimed.asStr) ∧
        (uploadFinish crates s id claimed).2.toContent = s.toContent := by
  have begun : Recorded (fun _ => []) created := by constructor <;> intro _ _ <;> simp [created]
  obtain ⟨recorded,kept⟩ := run_recorded begun created_kept created_agrees legal
  obtain ⟨hashed,-⟩ := reached_hashed distinguishes (Reachable.run (.start rfl) legal)
  dsimp only
  generalize runFrom crates .created ops = s at live recorded kept hashed ⊢
  generalize accepted crates .created (fun _ => []) ops = log at recorded ⊢
  obtain ⟨own,attached,file⟩ := kept.held id state live
  obtain ⟨session,attached⟩ := Option.isSome_iff_exists.mp attached
  obtain ⟨bytes,file⟩ := Option.isSome_iff_exists.mp file
  obtain rfl := recorded.staged id bytes file
  refine ⟨?_,file,fun offset frame now => ⟨?_,fun placed => ?_⟩,fun claimed => ?_⟩
  · rw [uploadStatus,live,←recorded.received id state live]
  · rintro ⟨total,ok⟩; by_contra moved
    rw [((append_exact kept recorded live offset frame now).1 moved)] at ok
    cases ok
  · exact ⟨_,((append_exact kept recorded live offset frame now).2 placed).1⟩
  · have gone := @finish_gone crates s id claimed state live
    refine ⟨gone,?_,?_⟩
    · have after : Kept (s.step crates (.finish id claimed)) := step_kept kept _
      by_contra left
      have live := after.files id (Option.isSome_iff_ne_none.mpr left)
      rw [show (s.step crates (.finish id claimed)).sessions[id]? = none from gone] at live
      cases live
    · let staged : Staged s id := ⟨state,session,log id,live,own.symm ▸ attached,own.symm ▸ file⟩
      split
      · rename_i named
        obtain ⟨answer,content⟩ := uploadFinish_matched crates staged named
        exact ⟨answer,fun known => by rw [content]; exact finished_opens distinguishes hashed named known⟩
      · rename_i differs
        have differs : crates.digestOf claimed.algorithm (log id) ≠ claimed := differs
        unfold uploadFinish finishTaken kappaUploadComplete
        simp only [live,own,attached,file,ne_eq,differs,not_false_eq_true,if_true]
        exact ⟨trivial,rfl⟩

-- What a name reads as in a repository, as a blob or as a manifest.
inductive Answers (c : Content) (repo : RepoName) (digest : Digest) (bytes : Bytes) : Prop
  | blob (stat : Content.BlobStat) (opened : c.blobOpen repo digest = .ok (stat,bytes))
  | manifest (found : StoredManifest) (read : c.manifestRead repo digest = .ok found) (same : found.bytes = bytes)

variable {repo other : RepoName} {digest : Digest} {bytes bytes' : Bytes}

-- Whichever of its two names holds the file, a name reads as bytes that hash to it.
theorem answers_named (distinguishes : crates.Distinguishes held) (reached : Reachable crates held s)
    (answer : Answers s.toContent repo digest bytes) : held bytes ∧ crates.Names digest bytes := by
  obtain ⟨hashed,-⟩ := reached_hashed distinguishes reached
  have stored : ∃ storedAs,Content.StoredUnder s.toContent digest storedAs bytes := by
    cases answer with
    | blob stat opened => exact ⟨_,(Content.blobOpen_ok.mp opened).2.1⟩
    | manifest found read same =>
      obtain ⟨link,storedAs,held,-,-,stored,-,rfl⟩ := Content.manifestRead_ok.mp read
      exact ⟨storedAs,same ▸ stored⟩
  obtain ⟨storedAs,stored⟩ := stored
  cases stored with
  | own blob => exact hashed.stored digest bytes blob
  | other _ named blob =>
    obtain ⟨known,right⟩ := hashed.stored storedAs bytes blob
    obtain ⟨both,paired⟩ := hashed.paired digest storedAs named
    obtain rfl := names_unique distinguishes known paired.known right paired.right_names
    exact ⟨known,paired.left_names⟩

-- Through deletions, collections, restarts and pushes anew, in whatever repository, a
-- name never reads as other bytes.
theorem reads_immutable {ops : List Op} (distinguishes : crates.Distinguishes held) (reached : Reachable crates held s)
    (legal : Legal crates held s ops) (first : Answers s.toContent repo digest bytes)
    (later : Answers (runFrom crates s ops).toContent other digest bytes') : bytes' = bytes ∧ crates.Names digest bytes := by
  obtain ⟨known,named⟩ := answers_named distinguishes reached first
  obtain ⟨known',named'⟩ := answers_named distinguishes (reached.run legal) later
  exact ⟨names_unique distinguishes known' known named' named,named⟩

end Runs

section Samples
open Sample

def sent : List Op := [.begin app first 0,.append first 0 layer 0]
def again : List Op := .deleteBlob app (name .sha256 layer) :: .collect ⟨false,false⟩ :: Sample.push base second layer .sha256

theorem sent_whole : ∃ state,(after sent).sessions[first]? = some state ∧
    (uploadFinish crates (after sent) first (name .sha256 layer)).2.blobOpen state.repo (name .sha256 layer) =
      .ok (⟨1,name .sha256 layer⟩,layer) := by
  have legal : Legal crates Held .created sent := by decide +kernel
  obtain ⟨state,live⟩ := Option.isSome_iff_exists.mp (show ((after sent).sessions[first]?).isSome by decide +kernel)
  obtain ⟨-,-,-,finishes⟩ := uploads_whole distinguishes legal live
  have bytes : accepted crates .created (fun _ => []) sent first = layer := by decide +kernel
  obtain ⟨-,-,ends⟩ := finishes (name .sha256 layer)
  rw [bytes,if_pos (by decide +kernel)] at ends
  exact ⟨state,live,ends.2 (by decide +kernel)⟩

theorem again_same : crates.Names (name .sha256 layer) layer ∧
    (runFrom crates (after (Sample.push app first layer .sha256)) again).blobOpen base (name .sha256 layer) =
      .ok (⟨1,name .sha256 layer⟩,layer) := by
  have pushed : Legal crates Held .created (Sample.push app first layer .sha256) := by decide +kernel
  have legal : Legal crates Held (after (Sample.push app first layer .sha256)) again := by decide +kernel
  have opened : (after (Sample.push app first layer .sha256)).blobOpen app (name .sha256 layer) =
      .ok (⟨1,name .sha256 layer⟩,layer) := by decide +kernel
  have reopened : (runFrom crates (after (Sample.push app first layer .sha256)) again).blobOpen base (name .sha256 layer) =
      .ok (⟨1,name .sha256 layer⟩,layer) := by decide +kernel
  exact ⟨(reads_immutable distinguishes (Reachable.run (.start rfl) pushed) legal (.blob _ opened) (.blob _ reopened)).2,reopened⟩

end Samples
end HologramLive.Transfers
