import HologramLive.Oci.GcSweep
namespace HologramLive
open Tables Std OciStore Content

def Crates.Names (crates : Crates) (digest : Digest) (bytes : Bytes) : Prop :=
  crates.digestOf digest.algorithm bytes = digest
instance (crates : Crates) (digest : Digest) (bytes : Bytes) : Decidable (crates.Names digest bytes) :=
  inferInstanceAs (Decidable (_ = _))

namespace Names
variable {crates : Crates} {held : Bytes → Prop}

-- Two names of the same bytes, exactly one of them a blake3.
structure Paired (crates : Crates) (held : Bytes → Prop) (left right : Digest) (bytes : Bytes) : Prop where
  known : held bytes
  left_names : crates.Names left bytes
  right_names : crates.Names right bytes
  mixed : left.algorithm = .blake3 ↔ right.algorithm ≠ .blake3

theorem Paired.swap (paired : Paired crates held x y bytes) : Paired crates held y x bytes :=
  ⟨paired.known,paired.right_names,paired.left_names,by have := paired.mixed; tauto⟩

theorem Paired.distinct (paired : Paired crates held x y bytes) : x ≠ y := by
  intro same
  have mixed := paired.mixed
  rw [same] at mixed
  tauto

theorem names_unique (distinguishes : crates.Distinguishes held) (here : held left)
    (there : held right) (named : crates.Names x left) (also : crates.Names x right) : left = right :=
  distinguishes x.algorithm left right here there (named.trans also.symm)

-- A name that is not a blake3 has one partner, the blake3 of its bytes.
theorem Paired.blake_unique (distinguishes : crates.Distinguishes held) (left : Paired crates held x y bytes)
    (right : Paired crates held x z other) (plain : x.algorithm ≠ .blake3) : y = z := by
  obtain rfl := names_unique distinguishes left.known right.known left.left_names right.left_names
  have first : y.algorithm = .blake3 := by have := left.mixed; tauto
  have second : z.algorithm = .blake3 := by have := right.mixed; tauto
  rw [←left.right_names,←right.right_names,first,second]

-- What a file and an alias row say about bytes. The blake3 side of an alias is
-- answered: its partner points back.
structure Hashed (crates : Crates) (held : Bytes → Prop) (c : Content) : Prop where
  stored : ∀ (digest : Digest) (bytes : Bytes),c.blobs[digest]? = some bytes → held bytes ∧ crates.Names digest bytes
  paired : ∀ (x y : Digest),c.aliasOf x = some y → ∃ bytes,Paired crates held x y bytes
  answered : ∀ (x y : Digest),c.aliasOf x = some y → x.algorithm = .blake3 → c.aliasOf y = some x

theorem created_hashed : Hashed crates held created.toContent := by
  constructor <;> intro _ _ <;> simp [created,aliasOf]

theorem Hashed.frame (hashed : Hashed crates held c) (blobs : after.blobs = c.blobs)
    (aliases : after.aliases = c.aliases) : Hashed crates held after := by
  have named (x : Digest) : after.aliasOf x = c.aliasOf x := congrArg (·[x]?) aliases
  refine ⟨?_,?_,?_⟩
  · rw [blobs]; exact hashed.stored
  · simp only [named]; exact hashed.paired
  · simp only [named]; exact hashed.answered

variable {digest : Digest} {c : Content} {bytes : Bytes}

theorem Hashed.blob (hashed : Hashed crates held c) (known : held bytes)
    (named : crates.Names digest bytes) : Hashed crates held {c with blobs := c.blobs.insert digest bytes} := by
  refine ⟨fun other row found => ?_,hashed.paired,hashed.answered⟩
  rw [get_insert] at found
  split at found
  · rename_i same
    cases same
    cases found
    exact ⟨known,named⟩
  · exact hashed.stored other row found

theorem Hashed.blobPut (hashed : Hashed crates held c)
    (known : held bytes) (named : crates.Names digest bytes) : Hashed crates held (c.blobPut digest bytes).2 := by
  unfold Content.blobPut
  split
  · exact hashed
  · exact hashed.blob known named

theorem Hashed.store (distinguishes : crates.Distinguishes held) (hashed : Hashed crates held c)
    (known : held bytes) (named : crates.Names digest bytes) : Hashed crates held (c.store crates digest bytes) := by
  have placed := hashed.blobPut known named
  unfold Content.store Crates.additional
  split
  · exact placed
  · unfold linkAdditional hardLink
    simp only [List.foldl_cons,List.foldl_nil]
    split
    · rename_i existing absent primary
      obtain ⟨also,names⟩ := placed.stored digest existing primary
      obtain rfl := names_unique distinguishes known also named names
      exact placed.blob known (congrArg (crates.digestOf · bytes) (crates.digestOf_algorithm _ _))
    · exact placed

theorem aliasPut_get (c : Content) (a b x : Digest) :
    (c.aliasPut a b).aliasOf x = if b = x then some a else if a = x then some b else c.aliasOf x := by
  unfold aliasPut aliasOf
  simp only [get_insert]

theorem Hashed.aliasPut (distinguishes : crates.Distinguishes held) (hashed : Hashed crates held c)
    (pair : Paired crates held a b bytes) : Hashed crates held (c.aliasPut a b) := by
  refine ⟨hashed.stored,fun x y found => ?_,fun x y found blake => ?_⟩
  · rw [aliasPut_get] at found
    split at found
    · rename_i same
      cases same
      cases found
      exact ⟨bytes,pair.swap⟩
    · split at found
      · rename_i same; cases same
        cases found; exact ⟨bytes,pair⟩
      · exact hashed.paired x y found
  · rw [aliasPut_get] at found ⊢
    split at found
    · rename_i same
      cases same
      cases found
      rw [if_neg pair.distinct.symm,if_pos rfl]
    · rename_i other
      split at found
      · rename_i same; cases same
        cases found; rw [if_pos rfl]
      · rename_i another
        obtain ⟨row,before⟩ := hashed.paired x y found
        have plain : y.algorithm ≠ .blake3 := before.mixed.mp blake
        have kept (z : Digest) (w : Digest) (written : Paired crates held z w bytes) (free : w ≠ x) : z ≠ y := by
          intro same; subst same
          exact free (written.blake_unique distinguishes before.swap plain)
        rw [if_neg (kept b a pair.swap another),if_neg (kept a b pair other)]
        exact hashed.answered x y found blake

theorem Hashed.forget (hashed : Hashed crates held c) (digest : Digest) : Hashed crates held (c.forgotten digest) := by
  have rows (x y : Digest) : (c.forgotten digest).aliasOf x = some y ↔
      ¬(x = digest ∨ (c.aliasOf digest = some x ∧ c.aliasOf x = some digest)) ∧ c.aliasOf x = some y := by
    have found := c.forgotten_aliases digest x
    unfold aliasOf at found ⊢
    rw [found]
    split <;> simp_all
  refine ⟨fun name bytes found => ?_,fun x y found => ?_,fun x y found blake => ?_⟩
  · rw [forgotten_blobs] at found
    split at found
    · cases found
    · exact hashed.stored name bytes found
  · exact hashed.paired x y ((rows x y).mp found).2
  · obtain ⟨kept,before⟩ := (rows x y).mp found
    have back := hashed.answered x y before blake
    refine (rows y x).mpr ⟨?_,back⟩
    rintro (rfl | ⟨named,named'⟩)
    · exact kept (.inr ⟨back,before⟩)
    · obtain rfl := Option.some.inj (back.symm.trans named')
      exact kept (.inl rfl)

theorem other_paired (known : held bytes) (named : crates.Names digest bytes) :
    Paired crates held digest (otherName crates digest bytes) bytes := by
  have sha : (crates.sha256Of bytes).algorithm = .sha256 := crates.digestOf_algorithm ..
  have blake : (crates.digestOf .blake3 bytes).algorithm = .blake3 := crates.digestOf_algorithm ..
  unfold otherName
  split
  · rename_i axis
    exact ⟨known,named,congrArg (crates.digestOf · bytes) sha,by simp [axis,sha]⟩
  · rename_i axis
    exact ⟨known,named,congrArg (crates.digestOf · bytes) blake,by simp [axis,blake]⟩

-- The two halves of a session and its row agree: they go by one identifier, and
-- the running hash has been fed what is staged.
structure Agrees (s : OciStore) : Prop where
  session_id : ∀ (id : UploadId) (state : SessionState),s.sessions[id]? = some state → state.kappaId = id
  row_id : ∀ (id : UploadId) (row : UploadRow),s.uploads[id]? = some row → row.kappaId = id
  fed_staged : ∀ (id : UploadId) (state : SessionState) (fed bytes : Bytes),s.sessions[id]? = some state →
    state.blake3 = some fed → s.staging[id]? = some bytes → fed = bytes

theorem created_agrees : Agrees .created := by
  constructor <;> intro _ _ <;> simp [created]

theorem Agrees.shrink (agrees : Agrees s)
    (sessions : ∀ (id : UploadId) state,t.sessions[id]? = some state → s.sessions[id]? = some state)
    (uploads : ∀ (id : UploadId) row,t.uploads[id]? = some row → s.uploads[id]? = some row)
    (staging : ∀ (id : UploadId) bytes,t.staging[id]? = some bytes → s.staging[id]? = some bytes) : Agrees t :=
  ⟨fun id state live => agrees.session_id id state (sessions id state live),
    fun id row found => agrees.row_id id row (uploads id row found),
    fun id state fed bytes live running staged =>
      agrees.fed_staged id state fed bytes (sessions id state live) running (staging id bytes staged)⟩

theorem erase_sub {κ ν : Type} [Ord κ] [TransOrd κ] [LawfulEqOrd κ] [DecidableEq κ] {table : Table κ ν} {k a : κ} {v : ν}
    (found : (table.erase k)[a]? = some v) : table[a]? = some v := by
  rw [get_erase] at found
  split at found
  · cases found
  · exact found

variable {s : OciStore}

theorem Agrees.begin (agrees : Agrees s) (repo : RepoName) (now : Nat)
    (unused : s.Unused fresh) : Agrees (s.uploadBegin repo fresh now).2 := by
  obtain ⟨-,-,unstaged,-⟩ := unused
  have staging (id : UploadId) : (s.uploadBegin repo fresh now).2.staging[id]? =
      if fresh = id then some [] else s.staging[id]? := by
    unfold uploadBegin kappaUploadBegin namespaceResolveOrCreate repoTouch
    simp only [ExtTreeMap.getElem?_insertIfNew,Std.compare_eq_iff_eq]
    by_cases same : fresh = id
    · subst same
      have absent : fresh ∉ s.staging := by simpa using unstaged
      simp [absent]
    · simp [same]
  refine ⟨?_,?_,?_⟩
  · intro id state live
    simp only [uploadBegin,repoTouch,kappaUploadBegin,namespaceResolveOrCreate,
      get_insert] at live
    split at live
    · rename_i same
      cases same
      cases live
      rfl
    · exact agrees.session_id id state live
  · intro id row found
    simp only [uploadBegin,repoTouch,kappaUploadBegin,namespaceResolveOrCreate,
      get_insert] at found
    split at found
    · rename_i same
      cases same
      cases found
      rfl
    · exact agrees.row_id id row found
  · intro id state fed bytes live running staged
    rw [staging] at staged
    simp only [uploadBegin,repoTouch,kappaUploadBegin,namespaceResolveOrCreate,
      get_insert] at live
    by_cases same : fresh = id
    · rw [if_pos same] at live staged
      cases live
      cases staged
      exact (Option.some.inj running).symm
    · rw [if_neg same] at live staged
      exact agrees.fed_staged id state fed bytes live running staged

-- What one append leaves: the session as it was, or moved on with the frame on
-- both halves.
theorem appendLocked_cases (s : OciStore) (id : UploadId) (state : SessionState) (offset : Nat) (frame : Bytes) (now : Nat) :
    (s.appendLocked id state offset frame now).2 = (state,s) ∨
    ∃ session bytes moved uploads,s.uploadSessions[state.kappaId]? = some session ∧
      s.staging[state.kappaId]? = some bytes ∧ offset = state.received ∧ offset = session.offset ∧
      (s.appendLocked id state offset frame now) = (.ok (offset + frame.length),moved,{s with
        staging := s.staging.insert state.kappaId (bytes ++ frame)
        uploadSessions := s.uploadSessions.insert state.kappaId
          ⟨offset + frame.length,session.parts ++ [(offset,frame)]⟩
        uploads := uploads}) ∧
      moved.kappaId = state.kappaId ∧ moved.repo = state.repo ∧ moved.received = offset + frame.length ∧
      moved.blake3 = state.blake3.map (· ++ frame) ∧
      (uploads = s.uploads ∨ uploads = s.uploads.insert id ⟨state.repo,state.kappaId,state.createdMs,now⟩) := by
  unfold appendLocked kappaUploadPutPart
  by_cases placed : offset = state.received
  · cases attached : s.uploadSessions[state.kappaId]? with
    | none => simp [placed]
    | some session =>
      by_cases ordered : offset = session.offset
      · cases held : s.staging[state.kappaId]? with
        | none => simp [placed,←ordered]
        | some bytes =>
          right
          let moved : SessionState := {state with
            blake3 := state.blake3.map (· ++ frame),received := offset + frame.length,touchedMs := now}
          simp only [←placed,←ordered,ne_eq,not_true,if_false]
          by_cases late : now - state.rowWrittenMs ≥ rowWriteIntervalMs
          · rw [if_pos late]
            exact ⟨session,bytes,{moved with rowWrittenMs := now},_,rfl,rfl,trivial,ordered,rfl,rfl,rfl,rfl,rfl,.inr rfl⟩
          · rw [if_neg late]
            exact ⟨session,bytes,moved,_,rfl,rfl,trivial,ordered,rfl,rfl,rfl,rfl,rfl,.inl rfl⟩
      · have different : state.received ≠ session.offset := placed ▸ ordered
        simp [placed,different]
  · simp [placed]

theorem Agrees.append (agrees : Agrees s) (id : UploadId) (offset : Nat) (frame : Bytes) (now : Nat) :
    Agrees (s.uploadAppend id offset frame now).2 := by
  unfold uploadAppend
  cases live : s.sessions[id]? with
  | none => exact agrees
  | some state =>
    have same := agrees.session_id id state live
    simp only
    rcases appendLocked_cases s id state offset frame now with
      refused | ⟨session,bytes,moved,uploads,-,held,-,-,accepted,kappa,-,-,fed,rows⟩
    · simp only [refused]
      have kept (other : UploadId) (row : SessionState) (found : (s.sessions.insert id state)[other]? = some row) :
          s.sessions[other]? = some row := by
        rw [get_insert] at found; split at found
        · rename_i here; cases here
          exact live.trans found
        · exact found
      exact agrees.shrink kept (fun _ _ found => found) (fun _ _ found => found)
    · simp only [accepted]
      rw [same] at held kappa
      refine ⟨?_,?_,?_⟩
      · intro other row found; rw [get_insert] at found
        split at found
        · rename_i here; cases here
          cases found; exact kappa
        · exact agrees.session_id other row found
      · intro other row found
        rcases rows with rfl | rfl
        · exact agrees.row_id other row found
        · rw [get_insert] at found; split at found
          · rename_i here; cases here
            cases found; exact same
          · exact agrees.row_id other row found
      · intro other row fed' bytes' found running staged; rw [same,get_insert] at staged
        rw [get_insert] at found
        by_cases here : id = other
        · rw [if_pos here] at found staged; cases found
          cases staged; rw [fed] at running
          obtain ⟨before,running',rfl⟩ := Option.map_eq_some_iff.mp running
          rw [agrees.fed_staged id state before bytes live running' held]
        · rw [if_neg here] at found staged
          exact agrees.fed_staged other row fed' bytes' found running staged

-- The uploads' half of the store with some of its entries gone.
structure Fewer (s t : OciStore) : Prop where
  sessions : ∀ (id : UploadId) state,t.sessions[id]? = some state → s.sessions[id]? = some state
  uploads : ∀ (id : UploadId) row,t.uploads[id]? = some row → s.uploads[id]? = some row
  staging : ∀ (id : UploadId) bytes,t.staging[id]? = some bytes → s.staging[id]? = some bytes
  uploadSessions : ∀ (id : UploadId) session,t.uploadSessions[id]? = some session → s.uploadSessions[id]? = some session

theorem Fewer.refl (s : OciStore) : Fewer s s :=
  ⟨fun _ _ found => found,fun _ _ found => found,fun _ _ found => found,fun _ _ found => found⟩

theorem Agrees.fewer (agrees : Agrees s) (fewer : Fewer s t) : Agrees t :=
  agrees.shrink fewer.sessions fewer.uploads fewer.staging

theorem finish_fewer (crates : Crates) (s : OciStore) (id : UploadId) (claimed : Digest) : Fewer s (uploadFinish crates s id claimed).2 := by
  unfold uploadFinish
  cases s.sessions[id]? with
  | none => exact .refl s
  | some state =>
    simp only
    unfold finishTaken kappaUploadComplete uploadRowDelete
    cases s.uploadSessions[state.kappaId]? with
    | none => exact ⟨fun _ _ => erase_sub,fun _ _ found => found,fun _ _ found => found,fun _ _ found => found⟩
    | some session =>
      simp only
      cases s.staging[state.kappaId]? with
      | none => exact ⟨fun _ _ => erase_sub,fun _ _ found => found,fun _ _ found => found,fun _ _ => erase_sub⟩
      | some bytes =>
        simp only
        by_cases matched : crates.digestOf claimed.algorithm bytes = claimed
        · simp only [matched,ne_eq,not_true,if_false]; split
          · exact ⟨fun _ _ => erase_sub,fun _ _ found => found,fun _ _ => erase_sub,fun _ _ => erase_sub⟩
          · exact ⟨fun _ _ => erase_sub,fun _ _ => erase_sub,fun _ _ => erase_sub,fun _ _ => erase_sub⟩
        · simp only [ne_eq,matched,not_false_eq_true,if_true]
          exact ⟨fun _ _ => erase_sub,fun _ _ => erase_sub,fun _ _ => erase_sub,fun _ _ => erase_sub⟩

theorem cancel_fewer (s : OciStore) (id : UploadId) : Fewer s (s.uploadCancel id).2 := by
  unfold uploadCancel kappaUploadAbort uploadRowDelete
  cases s.sessions[id]? with
  | none => exact ⟨fun _ _ found => found,fun _ _ => erase_sub,fun _ _ found => found,fun _ _ found => found⟩
  | some state =>
    simp only
    cases s.uploadSessions[state.kappaId]? with
    | none => exact ⟨fun _ _ => erase_sub,fun _ _ => erase_sub,fun _ _ found => found,fun _ _ found => found⟩
    | some session => exact ⟨fun _ _ => erase_sub,fun _ _ => erase_sub,fun _ _ => erase_sub,fun _ _ => erase_sub⟩

theorem resumeRow_agrees (agrees : Agrees s) (id : UploadId) (row : UploadRow) (same : row.kappaId = id) :
    Agrees (s.resumeRow id row).2 := by
  unfold resumeRow kappaUploadResume namespaceResolveOrCreate uploadRowDelete
  let resumed (received : Nat) : SessionState :=
    ⟨row.repo,row.kappaId,received,none,row.createdMs,row.touchedMs,row.touchedMs⟩
  have attached (t : OciStore) (held : Agrees t) (received : Nat) :
      Agrees {t with sessions := t.sessions.insert id (resumed received)} := by
    refine ⟨fun other state found => ?_,held.row_id,fun other state fed bytes found running staged => ?_⟩
    · rw [get_insert] at found
      split at found
      · rename_i here; cases here
        cases found; exact same
      · exact held.session_id other state found
    · rw [get_insert] at found
      split at found
      · cases found; cases running
      · exact held.fed_staged other state fed bytes found running staged
  cases s.staging[row.kappaId]? with
  | none => exact agrees.shrink (fun _ _ found => found) (fun _ _ => erase_sub) (fun _ _ found => found)
  | some bytes =>
    simp only
    cases s.uploadSessions[row.kappaId]? with
    | some session => exact attached {s with namespaces := s.namespaces.insert row.repo} ⟨agrees.1,agrees.2,agrees.3⟩ _
    | none =>
      let opened : OciStore := {s with
        namespaces := s.namespaces.insert row.repo
        uploadSessions := s.uploadSessions.insert row.kappaId ⟨bytes.length,[]⟩}
      exact attached opened ⟨agrees.1,agrees.2,agrees.3⟩ _

theorem Agrees.restart (agrees : Agrees s) : Agrees s.restart := by
  have rows (entries : List (UploadId × UploadRow)) (t : OciStore) (held : Agrees t)
      (same : ∀ entry ∈ entries,entry.2.kappaId = entry.1) : Agrees (resumeRows entries t).2 := by
    induction entries generalizing t with
    | nil => exact held
    | cons entry rest ih =>
      obtain ⟨id,row⟩ := entry
      have moved := resumeRow_agrees held id row (same (id,row) List.mem_cons_self)
      have later (u : OciStore) (reached : Agrees u) :=
        ih u reached fun other member => same other (List.mem_cons_of_mem _ member)
      unfold resumeRows
      split
      · rename_i u resumed; rw [resumed] at moved
        exact later u moved
      · rename_i u resumed; rw [resumed] at moved
        exact later u moved
  unfold OciStore.restart resumeUploads
  have emptied : Agrees {s with uploadSessions := ∅,sessions := ∅} :=
    agrees.shrink (fun _ _ found => by simp at found) (fun _ _ found => found) (fun _ _ found => found)
  have attached := rows s.uploads.toList _ emptied fun entry member => agrees.row_id _ _ (mem_rows.mp member)
  refine attached.shrink (fun _ _ found => found) (fun _ _ found => found) fun file bytes found => ?_
  rw [get_eraseKeys] at found
  split at found
  · cases found
  · exact found

-- The uploads' half of the store, which only the upload calls change.
structure SameUploads (s t : OciStore) : Prop where
  sessions : t.sessions = s.sessions
  uploads : t.uploads = s.uploads
  staging : t.staging = s.staging
  uploadSessions : t.uploadSessions = s.uploadSessions

theorem SameUploads.fewer (same : SameUploads s t) : Fewer s t :=
  ⟨fun _ _ found => same.sessions ▸ found,fun _ _ found => same.uploads ▸ found,fun _ _ found => same.staging ▸ found,
    fun _ _ found => same.uploadSessions ▸ found⟩

theorem SameUploads.trans (left : SameUploads s t) (right : SameUploads t u) : SameUploads s u :=
  ⟨right.1.trans left.1,right.2.trans left.2,right.3.trans left.3,right.4.trans left.4⟩

theorem manifestPut_uploads (crates : Crates) (s : OciStore) (repo : RepoName) (reference : Reference) (mediaType : Str)
    (bytes : Bytes) (plan : ManifestPlan) : SameUploads s (OciStore.manifestPut crates s repo reference mediaType bytes plan).2 := by
  unfold OciStore.manifestPut
  split
  · exact ⟨rfl,rfl,rfl,rfl⟩
  · simp only
    split
    · exact ⟨rfl,rfl,rfl,rfl⟩
    · split
      · exact ⟨rfl,rfl,rfl,rfl⟩
      · exact ⟨rfl,rfl,rfl,rfl⟩
      · cases reference <;> exact ⟨rfl,rfl,rfl,rfl⟩

theorem manifestDelete_uploads (s : OciStore) (repo : RepoName) (digest : Digest) :
    SameUploads s (s.manifestDelete repo digest).2 := by
  rcases s.manifestDelete_cases repo digest with ⟨-,same⟩ | ⟨link,-,-,answered⟩
  · rw [same]
    exact ⟨rfl,rfl,rfl,rfl⟩
  · rw [answered]
    exact ⟨rfl,rfl,rfl,rfl⟩

theorem deleteManifests_uploads (entries : List (RepoName × Digest)) (s : OciStore) :
    SameUploads s (deleteManifests entries s).2 := by
  induction entries generalizing s with
  | nil => exact ⟨rfl,rfl,rfl,rfl⟩
  | cons entry rest ih =>
    have first := manifestDelete_uploads s entry.1 entry.2
    unfold deleteManifests
    split
    · rename_i answered
      rw [answered] at first
      exact first
    · rename_i answered
      rw [answered] at first
      exact first.trans (ih _)

theorem collect_uploads (crates : Crates) (s : OciStore) (options : GcOptions) :
    SameUploads s (OciStore.collect crates s options).store := by
  have named (names : List RepoName) (t : OciStore) :
      SameUploads t (names.foldl (fun u name => u.namespaceResolveOrCreate name) t) := by
    induction names generalizing t with
    | nil => exact ⟨rfl,rfl,rfl,rfl⟩
    | cons name rest ih =>
      have first : SameUploads t (t.namespaceResolveOrCreate name) := ⟨rfl,rfl,rfl,rfl⟩
      exact first.trans (ih _)
  have ready : SameUploads s (s.gcReady options) := by
    refine SameUploads.trans ?_ (named _ _)
    cases options.dryRun <;> exact ⟨rfl,rfl,rfl,rfl⟩
  rw [collect_eq]
  refine ready.trans ?_
  unfold markAndSweep gcSweep
  split
  · exact ⟨rfl,rfl,rfl,rfl⟩
  · rename_i marks ran
    cases options.dryRun with
    | true => exact ⟨rfl,rfl,rfl,rfl⟩
    | false =>
      simp only [Bool.false_eq_true,if_false]
      have deleted := deleteManifests_uploads (((s.gcReady options).unmarkedLinks marks.marked
        (s.gcReady options).gcViews false).map fun entry => (entry.1.name,entry.2)) (s.gcReady options)
      split
      · rename_i answered; rw [answered] at deleted
        exact deleted
      · rename_i answered; rw [answered] at deleted
        exact ⟨deleted.1,deleted.2,deleted.3,deleted.4⟩

def Uploads : Op → Prop
  | .begin .. | .append .. | .finish .. | .cancel .. | .restart => True
  | _ => False

theorem step_uploads (crates : Crates) (other : ¬Uploads op) : SameUploads s (s.step crates op) := by
  cases op with
  | begin | append | finish | cancel | restart => exact absurd trivial other
  | mount | deleteBlob | older => exact ⟨rfl,rfl,rfl,rfl⟩
  | manifestPut => exact manifestPut_uploads ..
  | manifestGet repo reference =>
    simp only [step]
    unfold OciStore.manifestGet
    split
    · exact ⟨rfl,rfl,rfl,rfl⟩
    · split
      · exact ⟨rfl,rfl,rfl,rfl⟩
      · simp only
        split <;> exact ⟨rfl,rfl,rfl,rfl⟩
  | tagsPage =>
    simp only [step]
    unfold OciStore.tagsPage
    split <;> exact ⟨rfl,rfl,rfl,rfl⟩
  | manifestDelete => exact manifestDelete_uploads ..
  | tagDelete =>
    simp only [step]
    unfold OciStore.tagDelete
    simp only
    split <;> exact ⟨rfl,rfl,rfl,rfl⟩
  | collect options => exact collect_uploads crates s options

theorem step_agrees (agrees : Agrees s) (crates : Crates) (allowed : s.Allowed op) : Agrees (s.step crates op) := by
  cases op with
  | begin repo fresh now => exact agrees.begin repo now allowed
  | append id offset frame now => exact agrees.append id offset frame now
  | finish id claimed => exact agrees.fewer (finish_fewer crates s id claimed)
  | cancel id => exact agrees.fewer (cancel_fewer s id)
  | restart => exact agrees.restart
  | mount | manifestPut | manifestGet | tagsPage | manifestDelete | tagDelete | deleteBlob | collect | older =>
    exact agrees.fewer (step_uploads crates id).fewer

theorem staged_other {id : UploadId} (distinguishes : crates.Distinguishes held)
    (hashed : Hashed crates held s.toContent) (agrees : Agrees s) (staged : OciStore.Staged s id)
    (known : held staged.bytes) (named : crates.Names claimed staged.bytes) :
    staged.other crates claimed = otherName crates claimed staged.bytes := by
  unfold OciStore.Staged.other otherName
  split
  · rfl
  · cases running : staged.state.blake3 with
    | some fed =>
      have present := staged.held
      rw [agrees.session_id id staged.state staged.live] at present
      have alike := agrees.fed_staged id staged.state fed staged.bytes staged.live running present
      simp only [alike]
    | none =>
      obtain ⟨bytes,found⟩ := store_held crates s.toContent claimed staged.bytes
      obtain ⟨also,names⟩ := (hashed.store distinguishes known named).stored claimed bytes found
      simp only [found,names_unique distinguishes also known names named]

theorem step_hashed (distinguishes : crates.Distinguishes held)
    (hashed : Hashed crates held s.toContent) (agrees : Agrees s) (allowed : s.Allowed op)
    (handles : s.Handles crates held op) : Hashed crates held (s.step crates op).toContent := by
  have manifest (repo : RepoName) (digest : Digest) (mediaType : Str) (bytes : Bytes) (plan : ManifestPlan)
      (known : held bytes) (named : crates.Names digest bytes) :
      Hashed crates held (s.manifestStored crates repo digest mediaType bytes plan) :=
    ((hashed.store distinguishes known named).aliasPut distinguishes (other_paired known named)).frame rfl rfl
  have effect := step_effect crates allowed
  generalize (s.step crates op).toContent = after at effect
  cases effect with
  | same => exact hashed
  | listed => exact hashed.frame rfl rfl
  | finished id claimed staged named =>
    obtain ⟨known,record⟩ := handles _ staged.found
    have placed := hashed.store distinguishes known named
    have recorded : Hashed crates held (persistPartManifest crates (s.store crates claimed staged.bytes)
        staged.session.parts) := by
      unfold persistPartManifest
      split
      · exact placed
      · exact placed.blobPut record (congrArg (crates.digestOf · _) (crates.digestOf_algorithm _ _))
    have pair := other_paired known named
    rw [←staged_other distinguishes hashed agrees staged known named] at pair
    exact (recorded.aliasPut distinguishes pair).frame rfl rfl
  | mounted => exact hashed.frame rfl rfl
  | stored repo digest mediaType bytes plan named => exact manifest repo digest mediaType bytes plan handles named
  | tagged repo tag mediaType bytes plan =>
    exact (manifest repo _ mediaType bytes plan handles
      (congrArg (crates.digestOf · bytes) (crates.digestOf_algorithm _ _))).frame rfl rfl
  | deleted repo digest =>
    obtain ⟨blobs,aliases,-,-⟩ := s.deleted_rest repo digest
    exact hashed.frame blobs aliases
  | untagged => exact hashed.frame rfl rfl
  | unlinked repo digest stat =>
    unfold blobUnlinked
    split <;> exact hashed.frame rfl rfl
  | collected options =>
    refine collect_rule (Hashed crates held) crates s options (fun before => ?_) (fun _ c entry _ _ before _ _ => ?_)
      (fun c digest before => before.forget digest) (fun c repo digest before => before.frame rfl rfl) hashed
    · unfold objectsBackfill
      split
      · exact before
      · exact before.frame rfl rfl
    · obtain ⟨blobs,aliases,-,-⟩ := c.deleted_rest entry.1.name entry.2
      exact before.frame blobs aliases
  | older => exact hashed.frame rfl rfl

-- In a run whose bytes the hash functions tell apart, files hold what their
-- names say and aliases join names of the same bytes.
theorem reached_hashed (distinguishes : crates.Distinguishes held)
    (reached : OciStore.Reachable crates held s) : Hashed crates held s.toContent ∧ Agrees s := by
  refine Runs.Reached.invariant (fun s => Hashed crates held s.toContent ∧ Agrees s) ?_ ?_ reached
  · intro s begun
    cases begun
    exact ⟨created_hashed,created_agrees⟩
  · intro s t _ valid moved
    obtain ⟨op,allowed,handles,rfl⟩ := moved
    exact ⟨step_hashed distinguishes valid.1 valid.2 allowed handles,step_agrees valid.2 crates allowed⟩

end Names
end HologramLive
