import HologramLive.Oci.PutDelete
namespace HologramLive
open Tables Interleave Content Sample
namespace PutDelete

-- Between its link transaction and its tag, a put by tag relies on the link; from
-- its listing on, a delete relies on no tag but those listed naming what it removes.
def Task.Tagging (repo : RepoName) (digest : Digest) : Task → Prop
  | .put call named (.resolve _) | .put call named (.setTag _) => call.repo = repo ∧ named = digest
  | _ => False

def Task.Removing (repo : RepoName) (digest : Digest) : Task → Prop
  | .delete where_ named (.untag _ other) => where_ = repo ∧ (named = digest ∨ other = some digest)
  | .delete where_ _ (.unlinkOther other) => where_ = repo ∧ other = digest
  | _ => False

def Task.pending : Task → List Tag
  | .delete _ _ (.untag pending _) => pending
  | _ => []

def Task.stored : Task → Option Digest
  | .put _ digest (.ingestOther _) | .put _ digest (.nameBoth _) | .put _ digest (.commit _) => some digest
  | _ => none

def Holds (s : OciStore) (task : Task) : Prop :=
  ∀ digest ∈ task.stored,∃ bytes : Bytes,s.blobs[digest]? = some bytes

variable (c : Content)

-- A put sets its tag while the link it wrote still stands, and a delete removes a
-- link while no tag names it.
def Task.Undisturbed : Task → Prop
  | .put call digest (.setTag _) => c.Linked call.repo digest
  | .delete repo digest (.untag [] _) => ¬c.TagNames repo digest
  | .delete repo _ (.unlinkOther other) => ¬c.TagNames repo other
  | _ => True

inductive Shift (task : Task) (c after : Content) : Prop
  | quiet (calm : task.Undisturbed c) (tags : after.tags = c.tags) (links : after.links = c.links) : Shift task c after
  | linked (repo : RepoName) (digest : Digest) (link : Link) (stored : digest ∈ task.stored)
      (calm : task.Undisturbed c) (tags : after.tags = c.tags)
      (links : after.links = c.links.insert (repo,digest) link) : Shift task c after
  | tagged (repo : RepoName) (tag : Tag) (entry : TagEntry) (tagging : task.Tagging repo entry.kappa)
      (calm : task.Undisturbed c ↔ c.Linked repo entry.kappa) (tags : after.tags = c.tags.insert (repo,tag) entry)
      (links : after.links = c.links) : Shift task c after
  | untagged (repo : RepoName) (tag : Tag) (calm : task.Undisturbed c) (tags : after.tags = c.tags.erase (repo,tag))
      (links : after.links = c.links) : Shift task c after
  | unlinked (repo : RepoName) (digest : Digest) (removing : task.Removing repo digest)
      (calm : task.Undisturbed c ↔ ¬c.TagNames repo digest) (tags : after.tags = c.tags)
      (links : after.links = c.links.erase (repo,digest)) : Shift task c after

theorem blobPut_rest (digest : Digest) (bytes : Bytes) :
    (c.blobPut digest bytes).2.tags = c.tags ∧ (c.blobPut digest bytes).2.links = c.links := by
  rw [(blobPut_grows c digest bytes).only]
  exact ⟨rfl,rfl⟩

theorem linkAdditional_rest (digest : Digest) (others : List Digest) :
    (c.linkAdditional digest others).tags = c.tags ∧ (c.linkAdditional digest others).links = c.links := by
  rw [(linkAdditional_grows digest others c).only]
  exact ⟨rfl,rfl⟩

theorem putStep_shift {crates : Crates} {s : OciStore} {call : PutCall} (phase : PutPhase) :
    Shift (.put call digest phase) s.toContent (putStep crates s call digest phase).2.toContent := by
  cases phase with
  | needs needed missing =>
    cases needed with
    | nil => simp only [putStep]; split <;> exact .quiet trivial rfl rfl
    | cons head rest => simp only [putStep]; split <;> exact .quiet trivial rfl rfl
  | needsAlias needed rest missing => simp only [putStep]; split <;> exact .quiet trivial rfl rfl
  | needsOther needed other rest missing => simp only [putStep]; split <;> exact .quiet trivial rfl rfl
  | ingest =>
    simp only [putStep]
    split
    · exact .quiet trivial rfl rfl
    · obtain ⟨tags,links⟩ := blobPut_rest s.toContent digest call.bytes
      exact .quiet trivial tags links
  | ingestOther newlyStored =>
    obtain ⟨tags,links⟩ := linkAdditional_rest s.toContent digest (crates.additional digest call.bytes)
    exact .quiet trivial tags links
  | nameBoth newlyStored => exact .quiet trivial rfl rfl
  | commit newlyStored =>
    simp only [putStep]
    split <;> exact .linked call.repo digest _ rfl trivial rfl rfl
  | resolve tag => exact .quiet trivial rfl rfl
  | setTag tag => exact .tagged call.repo tag _ ⟨rfl,rfl⟩ .rfl rfl rfl

theorem deleteStep_shift {s : OciStore} {repo : RepoName} (phase : DeletePhase) :
    Shift (.delete repo digest phase) s.toContent (deleteStep s repo digest phase).2.toContent := by
  cases phase with
  | aliasRead => exact .quiet trivial rfl rfl
  | linkRead other => simp only [deleteStep]; split <;> exact .quiet trivial rfl rfl
  | otherRead other => simp only [deleteStep]; split <;> exact .quiet trivial rfl rfl
  | resolve other => exact .quiet trivial rfl rfl
  | list other => exact .quiet trivial rfl rfl
  | untag pending other =>
    cases pending with
    | nil => exact .unlinked repo digest ⟨rfl,.inl rfl⟩ .rfl rfl rfl
    | cons tag rest => exact .untagged repo tag trivial rfl rfl
  | unlinkOther other => exact .unlinked repo other ⟨rfl,rfl⟩ .rfl rfl rfl

theorem taskStep_shift {crates : Crates} (task : Task) :
    Shift task s.toContent (taskStep crates s task).2.toContent := by
  cases task with
  | put call digest phase => exact putStep_shift phase
  | delete repo digest phase => exact deleteStep_shift phase
  | putDone answer => exact .quiet trivial rfl rfl
  | deleteDone answer => exact .quiet trivial rfl rfl

theorem putStep_blobs {crates : Crates} {s : OciStore} {call : PutCall} {digest name : Digest}
    (phase : PutPhase) (held : s.blobs[name]? = some bytes) :
    (putStep crates s call digest phase).2.blobs[name]? = some bytes := by
  cases phase with
  | needs needed missing =>
    cases needed with
    | nil => simp only [putStep]; split <;> exact held
    | cons head rest => simp only [putStep]; split <;> exact held
  | needsAlias needed rest missing => simp only [putStep]; split <;> exact held
  | needsOther needed other rest missing => simp only [putStep]; split <;> exact held
  | ingest =>
    simp only [putStep]
    split
    · exact held
    · exact (blobPut_grows s.toContent digest call.bytes).kept name bytes held
  | ingestOther newlyStored => exact (linkAdditional_grows digest _ s.toContent).kept name bytes held
  | nameBoth newlyStored => exact held
  | commit newlyStored => simp only [putStep]; split <;> exact held
  | resolve tag => exact held
  | setTag tag => exact held

theorem deleteStep_blobs (phase : DeletePhase) : (deleteStep s repo digest phase).2.blobs = s.blobs := by
  cases phase with
  | linkRead other => simp only [deleteStep]; split <;> rfl
  | otherRead other => simp only [deleteStep]; split <;> rfl
  | untag pending other => cases pending <;> rfl
  | _ => rfl

theorem taskStep_blobs {crates : Crates} {s : OciStore} (task : Task) {name : Digest}
    (held : s.blobs[name]? = some bytes) : (taskStep crates s task).2.blobs[name]? = some bytes := by
  cases task with
  | put call digest phase => exact putStep_blobs phase held
  | delete repo digest phase => simp only [taskStep]; rw [deleteStep_blobs]; exact held
  | putDone answer => exact held
  | deleteDone answer => exact held

theorem deleteStep_stored (phase : DeletePhase) : (deleteStep s repo digest phase).1.stored = none := by
  have judged (other : Option Digest) (link : Link) : (linkVerdict repo digest other link).stored = none := by
    unfold linkVerdict
    split <;> rfl
  cases phase with
  | linkRead other => simp only [deleteStep]; split <;> first | exact judged _ _ | rfl
  | otherRead other => simp only [deleteStep]; split <;> first | exact judged _ _ | rfl
  | untag pending other => cases pending <;> cases other <;> rfl
  | _ => rfl

theorem taskStep_stored {crates : Crates} (task : Task) (before : Holds s task) :
    Holds (taskStep crates s task).2 (taskStep crates s task).1 := by
  intro name stored
  cases task with
  | delete repo digest phase =>
    simp only [taskStep] at stored
    rw [deleteStep_stored] at stored
    cases stored
  | putDone answer => cases stored
  | deleteDone answer => cases stored
  | put call digest phase =>
    cases phase with
    | needs needed missing =>
      cases needed <;> simp only [taskStep,putStep] at stored <;> split at stored <;> cases stored
    | needsAlias needed rest missing => simp only [taskStep,putStep] at stored; split at stored <;> cases stored
    | needsOther needed other rest missing => simp only [taskStep,putStep] at stored; split at stored <;> cases stored
    | ingest =>
      simp only [taskStep,putStep] at stored ⊢
      split at stored
      · cases stored
      · rename_i hashed; cases stored
        rw [if_neg hashed]; exact blobPut_held s.toContent name call.bytes
    | ingestOther newlyStored =>
      obtain ⟨bytes,held⟩ := before name stored
      exact ⟨bytes,taskStep_blobs (.put call digest (.ingestOther newlyStored)) held⟩
    | nameBoth newlyStored =>
      obtain ⟨bytes,held⟩ := before name stored
      exact ⟨bytes,taskStep_blobs (.put call digest (.nameBoth newlyStored)) held⟩
    | commit newlyStored => simp only [taskStep,putStep] at stored; split at stored <;> cases stored
    | resolve tag => cases stored
    | setTag tag => cases stored

-- Every link has its bytes, and every put that is about to link has stored them.
structure Stocked (s : System OciStore Task) : Prop where
  links : ∀ (repo : RepoName) (digest : Digest) (link : Link),s.store.links[(repo,digest)]? = some link →
    ∃ bytes : Bytes,s.store.blobs[digest]? = some bytes
  tasks : ∀ task ∈ s.tasks,Holds s.store task

theorem step_links {crates : Crates} {s : OciStore}
    (links : ∀ (repo : RepoName) (digest : Digest) (link : Link),s.links[(repo,digest)]? = some link →
      ∃ bytes : Bytes,s.blobs[digest]? = some bytes) (stored : Holds s task) :
    ∀ (repo : RepoName) (digest : Digest) (link : Link),(taskStep crates s task).2.links[(repo,digest)]? = some link →
      ∃ bytes : Bytes,(taskStep crates s task).2.blobs[digest]? = some bytes := by
  intro repo digest link linked
  have kept (there : ∃ bytes : Bytes,s.blobs[digest]? = some bytes) :
      ∃ bytes : Bytes,(taskStep crates s task).2.blobs[digest]? = some bytes :=
    let ⟨bytes,held⟩ := there
    ⟨bytes,taskStep_blobs task held⟩
  apply kept
  have shift : Shift task s.toContent (taskStep crates s task).2.toContent := taskStep_shift task
  cases shift with
  | quiet calm tags same => rw [same] at linked; exact links repo digest link linked
  | linked repo' digest' link' holds calm tags same =>
    rw [same,get_insert] at linked
    split at linked
    · rename_i equal
      cases equal
      exact stored digest holds
    · exact links repo digest link linked
  | tagged repo' tag entry tagging calm tags same => rw [same] at linked; exact links repo digest link linked
  | untagged repo' tag calm tags same => rw [same] at linked; exact links repo digest link linked
  | unlinked repo' digest' removing calm tags same =>
    rw [same,get_erase] at linked
    split at linked
    · cases linked
    · exact links repo digest link linked

theorem begin_stored (crates : Crates) (request : Request) : (begin crates request).stored = none := by
  cases request with
  | delete repo digest => rfl
  | put call => unfold begin; dsimp only; split <;> rfl

theorem Stocked.move {crates : Crates} (stocked : Stocked s) (next : Move Request) :
    Stocked (Interleave.move (rules crates) s next) := by
  constructor
  · cases next with
    | arrive request => exact stocked.links
    | advance at_ =>
      cases found : s.tasks[at_]? with
      | none => rw [advance_absent found]; exact stocked.links
      | some task =>
        rw [advance_found found]
        exact step_links stocked.links (stocked.tasks task (List.mem_of_getElem? found))
    | crash =>
      have same : (Interleave.move (rules crates) s .crash).store.toContent = s.store.toContent :=
        OciStore.restart_content s.store
      rw [same]
      exact stocked.links
  · apply move_tasks stocked.tasks
    · intro request digest stored
      have none_ := begin_stored crates request
      rw [show (rules crates).begin request = begin crates request from rfl,none_] at stored
      cases stored
    · intro task member
      refine ⟨taskStep_stored task (stocked.tasks task member),?_⟩
      intro other here digest stored
      obtain ⟨bytes,held⟩ := stocked.tasks other here digest stored
      exact ⟨bytes,taskStep_blobs task held⟩

def TagsLinked : Prop :=
  ∀ (repo : RepoName) (tag : Tag) (entry : TagEntry),c.tags[(repo,tag)]? = some entry → c.Linked repo entry.kappa

theorem linked_same {c after : Content} (links : after.links = c.links) {repo : RepoName} :
    after.Linked repo digest ↔ c.Linked repo digest := by
  unfold Content.Linked linkGet
  rw [links]

theorem linked_insert {c after : Content} {repo other : RepoName} {digest name : Digest}
    (links : after.links = c.links.insert (repo,digest) link) :
    after.Linked other name ↔ (repo = other ∧ digest = name) ∨ c.Linked other name := by
  unfold Content.Linked linkGet
  rw [links,get_insert]
  simp only [Prod.mk.injEq]
  split <;> simp_all

theorem linked_erase {c after : Content} {repo other : RepoName} {digest name : Digest}
    (links : after.links = c.links.erase (repo,digest)) :
    after.Linked other name ↔ ¬(repo = other ∧ digest = name) ∧ c.Linked other name := by
  unfold Content.Linked linkGet
  rw [links,get_erase]
  simp only [Prod.mk.injEq]
  split <;> simp_all

-- One step keeps every tag linked exactly when it is undisturbed.
theorem shift_tags {task : Task} {c after : Content} (linked : TagsLinked c) (shift : Shift task c after) :
    TagsLinked after ↔ task.Undisturbed c := by
  cases shift with
  | quiet calm tags links =>
    refine ⟨fun _ => calm,fun _ repo tag entry found => ?_⟩
    rw [tags] at found
    exact (linked_same links).mpr (linked repo tag entry found)
  | linked repo' digest link stored calm tags links =>
    refine ⟨fun _ => calm,fun _ repo tag entry found => ?_⟩
    rw [tags] at found
    exact (linked_insert links).mpr (.inr (linked repo tag entry found))
  | tagged repo' tag' entry' tagging calm tags links =>
    rw [calm]
    constructor
    · intro later
      have named : after.tags[(repo',tag')]? = some entry' := by rw [tags,get_insert,if_pos rfl]
      exact (linked_same links).mp (later repo' tag' entry' named)
    · intro there repo tag entry found
      apply (linked_same links).mpr
      rw [tags,get_insert] at found
      split at found
      · rename_i same; cases same
        cases found; exact there
      · exact linked repo tag entry found
  | untagged repo' tag' calm tags links =>
    refine ⟨fun _ => calm,fun _ repo tag entry found => ?_⟩
    apply (linked_same links).mpr
    rw [tags,get_erase] at found
    split at found
    · cases found
    · exact linked repo tag entry found
  | unlinked repo' digest removing calm tags links =>
    rw [calm]
    constructor
    · intro later
      rintro ⟨tag,entry,found,rfl⟩
      rw [←tags] at found
      exact ((linked_erase links).mp (later repo' tag entry found)).1 ⟨rfl,rfl⟩
    · intro unnamed repo tag entry found
      rw [tags] at found
      refine (linked_erase links).mpr ⟨?_,linked repo tag entry found⟩
      rintro ⟨rfl,rfl⟩
      exact unnamed ⟨tag,entry,found,rfl⟩

def Fine (s : System OciStore Task) : Move Request → Prop
  | .advance at_ => ∀ task ∈ s.tasks[at_]?,task.Undisturbed s.store.toContent
  | _ => True

theorem move_tagsLinked {crates : Crates} {s : System OciStore Task} {next : Move Request}
    (linked : TagsLinked s.store.toContent) :
    TagsLinked (Interleave.move (rules crates) s next).store.toContent ↔ Fine s next := by
  cases next with
  | arrive request => exact ⟨fun _ => trivial,fun _ => linked⟩
  | advance at_ =>
    cases found : s.tasks[at_]? with
    | none =>
      rw [advance_absent found]
      refine ⟨fun _ task here => ?_,fun _ => linked⟩
      rw [found] at here
      cases here
    | some task =>
      have one : TagsLinked (taskStep crates s.store task).2.toContent ↔ task.Undisturbed s.store.toContent :=
        shift_tags linked (taskStep_shift task)
      rw [advance_found found]
      constructor
      · intro later other here; rw [found] at here
        cases here; exact one.mp later
      · intro calm; exact one.mpr (calm task found)
  | crash =>
    have same : (Interleave.move (rules crates) s .crash).store.toContent = s.store.toContent :=
      OciStore.restart_content s.store
    rw [same]
    exact ⟨fun _ => trivial,fun _ => linked⟩

-- What a task relies on while it is inside its stretch.
structure Guard (s : OciStore) (task : Task) : Prop where
  tagging : ∀ repo digest,task.Tagging repo digest → s.Linked repo digest
  removing : ∀ repo digest,task.Removing repo digest → ∀ (tag : Tag) (entry : TagEntry),
    s.tags[(repo,tag)]? = some entry → entry.kappa = digest → tag ∈ task.pending

-- No put of a digest by tag is between its link and its tag while a delete of it
-- in the same repository is between its listing and its last unlinking.
def Apart (s : System OciStore Task) : Prop :=
  ∀ a ∈ s.tasks,∀ b ∈ s.tasks,∀ repo digest,a.Tagging repo digest → ¬b.Removing repo digest

theorem Guard.undisturbed (guard : Guard s task) : task.Undisturbed s.toContent := by
  have unnamed (repo : RepoName) (digest : Digest) (removing : task.Removing repo digest) (last : task.pending = []) :
      ¬s.TagNames repo digest := by
    rintro ⟨tag,entry,found,named⟩
    have listed := guard.removing repo digest removing tag entry found named
    rw [last] at listed
    cases listed
  cases task with
  | put call digest phase =>
    cases phase with
    | setTag tag => exact guard.tagging call.repo digest ⟨rfl,rfl⟩
    | _ => trivial
  | delete repo digest phase =>
    cases phase with
    | untag pending other =>
      cases pending with
      | nil => exact unnamed repo digest ⟨rfl,.inl rfl⟩ rfl
      | cons tag rest => trivial
    | unlinkOther other => exact unnamed repo other ⟨rfl,rfl⟩ rfl
    | _ => trivial
  | putDone answer => trivial
  | deleteDone answer => trivial

-- A step beside a guarded task leaves its guard when the two stretches are apart.
theorem Guard.beside {s after : OciStore} (guard : Guard s other) (shift : Shift task s.toContent after.toContent)
    (apart : ∀ repo digest,task.Tagging repo digest → ¬other.Removing repo digest)
    (apart' : ∀ repo digest,other.Tagging repo digest → ¬task.Removing repo digest) : Guard after other := by
  cases shift with
  | quiet calm tags links =>
    refine ⟨fun repo digest inside => (linked_same links).mpr (guard.tagging repo digest inside),?_⟩
    rw [tags]
    exact guard.removing
  | linked repo' digest' link stored calm tags links =>
    refine ⟨fun repo digest inside => (linked_insert links).mpr (.inr (guard.tagging repo digest inside)),?_⟩
    rw [tags]
    exact guard.removing
  | tagged repo' tag' entry' tagging calm tags links =>
    refine ⟨fun repo digest inside => (linked_same links).mpr (guard.tagging repo digest inside),?_⟩
    intro repo digest inside tag entry found named
    rw [tags,get_insert] at found
    split at found
    · rename_i same
      cases same
      cases found
      rw [named] at tagging
      exact absurd inside (apart _ _ tagging)
    · exact guard.removing repo digest inside tag entry found named
  | untagged repo' tag' calm tags links =>
    refine ⟨fun repo digest inside => (linked_same links).mpr (guard.tagging repo digest inside),?_⟩
    intro repo digest inside tag entry found named
    rw [tags,get_erase] at found
    split at found
    · cases found
    · exact guard.removing repo digest inside tag entry found named
  | unlinked repo' digest' removing calm tags links =>
    constructor
    · intro repo digest inside
      refine (linked_erase links).mpr ⟨?_,guard.tagging repo digest inside⟩
      rintro ⟨rfl,rfl⟩
      exact apart' _ _ inside removing
    · rw [tags]
      exact guard.removing

theorem guard_outside (untagging : ∀ repo digest,¬task.Tagging repo digest)
    (unremoving : ∀ repo digest,¬task.Removing repo digest) : Guard s task :=
  ⟨fun repo digest inside => absurd inside (untagging repo digest),
    fun repo digest inside => absurd inside (unremoving repo digest)⟩

theorem putStep_guard {crates : Crates} {s : OciStore} {call : PutCall} {digest : Digest}
    (guard : Guard s (.put call digest phase)) :
    Guard (putStep crates s call digest phase).2 (putStep crates s call digest phase).1 := by
  have outside (after : OciStore) (phase : PutPhase) (early : ∀ repo name,¬(Task.put call digest phase).Tagging repo name) :
      Guard after (.put call digest phase) := guard_outside early fun _ _ inside => inside
  have finished (after : OciStore) (answer : Except OciStoreError Digest) : Guard after (.putDone answer) :=
    guard_outside (fun _ _ inside => inside) fun _ _ inside => inside
  cases phase with
  | needs needed missing =>
    cases needed with
    | nil =>
      simp only [putStep]
      split
      · exact outside s _ fun _ _ inside => inside
      · exact finished s _
    | cons head rest => simp only [putStep]; split <;> exact outside s _ fun _ _ inside => inside
  | needsAlias needed rest missing => simp only [putStep]; split <;> exact outside s _ fun _ _ inside => inside
  | needsOther needed other rest missing => simp only [putStep]; split <;> exact outside s _ fun _ _ inside => inside
  | ingest =>
    simp only [putStep]
    split
    · exact finished s _
    · exact outside _ _ fun _ _ inside => inside
  | ingestOther newlyStored => exact outside _ _ fun _ _ inside => inside
  | nameBoth newlyStored => exact outside _ _ fun _ _ inside => inside
  | commit newlyStored =>
    simp only [putStep]
    split
    · exact finished _ _
    · refine ⟨?_,fun _ _ inside => absurd inside fun bad => bad⟩
      rintro repo name ⟨rfl,rfl⟩
      exact (linked_insert rfl).mpr (.inl ⟨rfl,rfl⟩)
  | resolve tag => exact ⟨fun repo name inside => guard.tagging repo name inside,fun _ _ inside => absurd inside fun bad => bad⟩
  | setTag tag => exact finished _ _

theorem deleteStep_guard (guard : Guard s (.delete repo digest phase)) :
    Guard (deleteStep s repo digest phase).2 (deleteStep s repo digest phase).1 := by
  have outside (after : OciStore) (phase : DeletePhase)
      (early : ∀ where_ name,¬(Task.delete repo digest phase).Removing where_ name) :
      Guard after (.delete repo digest phase) := guard_outside (fun _ _ inside => inside) early
  have finished (after : OciStore) (answer : Except OciStoreError Unit) : Guard after (.deleteDone answer) :=
    guard_outside (fun _ _ inside => inside) fun _ _ inside => inside
  have judged (other : Option Digest) (link : Link) : Guard s (linkVerdict repo digest other link) := by
    unfold linkVerdict
    split
    · exact finished s _
    · exact outside s _ fun _ _ inside => inside
  cases phase with
  | aliasRead => exact outside _ _ fun _ _ inside => inside
  | linkRead other =>
    simp only [deleteStep]
    split
    · exact judged _ _
    · exact outside s _ fun _ _ inside => inside
    · exact finished s _
  | otherRead other =>
    simp only [deleteStep]
    split
    · exact judged _ _
    · exact finished s _
  | resolve other => exact outside _ _ fun _ _ inside => inside
  | list other =>
    refine ⟨fun _ _ inside => absurd inside fun bad => bad,?_⟩
    rintro where_ name ⟨rfl,which⟩ tag entry found named
    refine List.mem_map.mpr ⟨(tag,entry),List.mem_filter.mpr ⟨mem_rowsUnder.mpr found,?_⟩,rfl⟩
    subst named
    rcases which with rfl | rfl <;> simp [pointsHere]
  | untag pending other =>
    cases pending with
    | nil =>
      cases other with
      | none => exact finished _ _
      | some name =>
        refine ⟨fun _ _ inside => absurd inside fun bad => bad,?_⟩
        rintro where_ digest' ⟨rfl,rfl⟩ tag entry found named
        exact guard.removing _ _ ⟨rfl,.inr rfl⟩ tag entry found named
    | cons tag rest =>
      refine ⟨fun _ _ inside => absurd inside fun bad => bad,?_⟩
      rintro where_ name ⟨rfl,which⟩ tag' entry found named
      change (s.tags.erase (repo,tag))[(repo,tag')]? = some entry at found
      rw [get_erase] at found
      split at found
      · cases found
      · rename_i different
        have listed : tag' ∈ tag :: rest := guard.removing repo name ⟨rfl,which⟩ tag' entry found named
        rcases List.mem_cons.mp listed with rfl | later
        · exact absurd rfl different
        · exact later
  | unlinkOther other => exact finished _ _

theorem taskStep_guard {crates : Crates} {s : OciStore} (guard : Guard s task) :
    Guard (taskStep crates s task).2 (taskStep crates s task).1 := by
  cases task with
  | put call digest phase => exact putStep_guard guard
  | delete repo digest phase => exact deleteStep_guard guard
  | putDone answer => exact guard
  | deleteDone answer => exact guard

theorem begin_guard (crates : Crates) (s : OciStore) (request : Request) : Guard s (begin crates request) := by
  cases request with
  | delete repo digest => exact guard_outside (fun _ _ inside => inside) fun _ _ inside => inside
  | put call =>
    unfold begin
    dsimp only
    split <;> exact guard_outside (fun _ _ inside => inside) fun _ _ inside => inside

theorem guards_move {crates : Crates} {s : System OciStore Task} (apart : Apart s)
    (guards : ∀ task ∈ s.tasks,Guard s.store task) : ∀ task ∈ (Interleave.move (rules crates) s next).tasks,
      Guard (Interleave.move (rules crates) s next).store task := by
  apply move_tasks guards
  · exact begin_guard crates s.store
  · intro task member
    refine ⟨taskStep_guard (guards task member),?_⟩
    intro other here
    apply (guards other here).beside (taskStep_shift task)
    · exact apart task member other here
    · exact apart other here task member

-- No tag names a manifest that is not linked, and no link lacks its bytes.
structure Sound (c : Content) : Prop where
  tags : TagsLinked c
  links : ∀ (repo : RepoName) (digest : Digest) (link : Link),c.links[(repo,digest)]? = some link →
    ∃ bytes : Bytes,c.blobs[digest]? = some bytes

-- Any number of puts and deletes, their transactions in any order, with crashes:
-- every state is sound exactly when every step is undisturbed; and every step is
-- when the stretches of puts and deletes on one name are kept apart.
theorem interleaved_sound_iff (crates : Crates) (s : OciStore) (sound : Sound s.toContent) (moves : List (Move Request)) :
    (Passes (rules crates) ⟨s,[]⟩ moves (fun t => Sound t.store.toContent) ↔ Moves (rules crates) ⟨s,[]⟩ moves Fine) ∧
      (Passes (rules crates) ⟨s,[]⟩ moves Apart → Moves (rules crates) ⟨s,[]⟩ moves Fine) := by
  have stocked : Stocked ⟨s,[]⟩ := ⟨sound.links,fun task member => by cases member⟩
  have stock : Passes (rules crates) ⟨s,[]⟩ moves Stocked :=
    passes_of_moves stocked (fun t next held (_ : True) => held.move next) fun _ _ _ => trivial
  constructor
  · have tagged : Passes (rules crates) ⟨s,[]⟩ moves (fun t => TagsLinked t.store.toContent) ↔
        Moves (rules crates) ⟨s,[]⟩ moves Fine :=
      passes_iff_moves stocked (fun t next held => held.move next) sound.tags fun t next _ linked => move_tagsLinked linked
    rw [←tagged]
    constructor
    · exact fun passes count bound => (passes count bound).tags
    · exact fun passes count bound => ⟨passes count bound,(stock count bound).links⟩
  · intro apart
    have guards : Passes (rules crates) ⟨s,[]⟩ moves fun t => ∀ task ∈ t.tasks,Guard t.store task :=
      passes_of_moves (fun task member => by cases member) (fun t next held apart => guards_move apart held)
        fun count next here => apart count (Nat.le_of_lt (List.getElem?_eq_some_iff.mp here).1)
    intro count next here
    have bound := Nat.le_of_lt (List.getElem?_eq_some_iff.mp here).1
    cases next with
    | advance at_ => exact fun task found => (guards count bound task (List.mem_of_getElem? found)).undisturbed
    | arrive request => trivial
    | crash => trivial

def crossing : List (Move Request) :=
  let call : PutCall := ⟨Sample.app,.tag latest,defaultMediaType,plainManifest,plain⟩
  .arrive (.put call) :: List.replicate 5 (.advance 0) ++
    .arrive (.delete Sample.app (Sample.name .sha256 plainManifest)) :: List.replicate 4 (.advance 1) ++
    [.advance 0,.advance 0,.advance 1]

def crossed : OciStore := (after (rules Sample.crates) ⟨.created,[]⟩ crossing).store

theorem created_sound : Sound OciStore.created.toContent := by
  constructor
  · intro repo tag entry found
    simp [OciStore.created] at found
  · intro repo digest link found
    simp [OciStore.created] at found

theorem crossed_unsound : ¬Passes (rules Sample.crates) ⟨.created,[]⟩ crossing fun t => Sound t.store.toContent := by
  intro passes
  have sound : Sound crossed.toContent := by
    have last := passes crossing.length (Nat.le_refl _)
    rw [List.take_length] at last
    exact last
  have tagged : crossed.tags[(Sample.app,latest)]? = some ⟨Sample.name .sha256 plainManifest,1⟩ := by
    decide
  have unlinked : ¬crossed.Linked Sample.app (Sample.name .sha256 plainManifest) := by decide
  exact unlinked (sound.tags _ _ _ tagged)

theorem tag_outlives_link : ¬∀ (s : OciStore) (moves : List (Move Request)),Sound s.toContent →
    Passes (rules Sample.crates) ⟨s,[]⟩ moves fun t => Sound t.store.toContent :=
  fun holds => crossed_unsound (holds .created crossing created_sound)

theorem crossing_disturbed : ¬Moves (rules Sample.crates) ⟨.created,[]⟩ crossing Fine ∧
    ¬Passes (rules Sample.crates) ⟨.created,[]⟩ crossing Apart := by
  obtain ⟨exact_,apart⟩ := interleaved_sound_iff Sample.crates .created created_sound crossing
  have disturbed : ¬Moves (rules Sample.crates) ⟨.created,[]⟩ crossing Fine :=
    fun fine => crossed_unsound (exact_.mpr fine)
  exact ⟨disturbed,fun apart' => disturbed (apart apart')⟩

end PutDelete
end HologramLive
