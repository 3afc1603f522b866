import HologramLive.Oci.Names
import HologramLive.Oci.Consistency
import HologramLive.Oci.GcMark
namespace HologramLive
open Tables Std List
namespace Content

variable {c : Content}

theorem mem_names : name ∈ c.names digest ↔ name = digest ∨ c.aliasOf digest = some name := by
  unfold names
  simp only [mem_cons,Option.mem_toList]

variable {digest : Digest}

theorem mem_names_self : digest ∈ c.names digest := mem_names.mpr (.inl rfl)

-- What a phase of the sweep leaves, table by table. `unlinked` says which links
-- go and `doomed` which objects.
structure Trimmed (c after : Content) (unlinked : RepoName → Digest → Prop) (doomed : Digest → Prop) : Prop where
  blobs : ∀ (x : Digest) (bytes : Bytes),after.blobs[x]? = some bytes ↔ c.blobs[x]? = some bytes ∧ ¬doomed x
  objects : ∀ (x : Digest) (manifest : Bool),after.objects[x]? = some manifest ↔ c.objects[x]? = some manifest ∧ ¬doomed x
  links : ∀ (repo : RepoName) (x : Digest) (link : Link),after.links[(repo,x)]? = some link ↔
    c.links[(repo,x)]? = some link ∧ ¬unlinked repo x ∧ ¬doomed x
  aliases : ∀ x y : Digest,after.aliases[x]? = some y ↔
    c.aliases[x]? = some y ∧ ¬doomed x ∧ ¬(doomed y ∧ c.aliases[y]? = some x)
  referrers : ∀ (repo : RepoName) (subject referrer : Digest) (row : ReferrerDescriptor),
    after.referrers[(repo,subject,referrer)]? = some row ↔ c.referrers[(repo,subject,referrer)]? = some row ∧
      ¬unlinked repo referrer ∧ ∀ d,doomed d → subject ∉ c.names d ∧ referrer ∉ c.names d
  repos : after.repos = c.repos
  flag : after.objectsBackfilled = c.objectsBackfilled

theorem Trimmed.nothing (c : Content) : Trimmed c c (fun _ _ => False) fun _ => False := by
  constructor <;> simp

variable {first later : RepoName → Digest → Prop} {doomed : Digest → Prop} {middle after : Content}

theorem Trimmed.unlink (left : Trimmed c middle first fun _ => False) (right : Trimmed middle after later doomed) :
    Trimmed c after (fun repo x => first repo x ∨ later repo x) doomed := by
  have aliases : middle.aliases = c.aliases := table_ext fun x => Option.ext fun y => by
    simpa using left.aliases x y
  have names (d : Digest) : middle.names d = c.names d := by unfold names aliasOf; rw [aliases]
  refine ⟨fun x bytes => ?_,fun x manifest => ?_,fun repo x link => ?_,fun x y => ?_,fun repo subject referrer row => ?_,
    right.repos.trans left.repos,right.flag.trans left.flag⟩
  · rw [right.blobs,left.blobs]; simp
  · rw [right.objects,left.objects]; simp
  · rw [right.links,left.links]; tauto
  · rw [right.aliases,aliases]
  · rw [right.referrers,left.referrers]
    simp only [names,false_implies,implies_true,and_true,not_or,and_assoc]

theorem Trimmed.then_unlink (left : Trimmed c middle first doomed) (right : Trimmed middle after later fun _ => False) :
    Trimmed c after (fun repo x => first repo x ∨ later repo x) doomed := by
  have aliases : after.aliases = middle.aliases := table_ext fun x => Option.ext fun y => by
    simpa using right.aliases x y
  refine ⟨fun x bytes => ?_,fun x manifest => ?_,fun repo x link => ?_,fun x y => ?_,fun repo subject referrer row => ?_,
    right.repos.trans left.repos,right.flag.trans left.flag⟩
  · rw [right.blobs,left.blobs]; simp
  · rw [right.objects,left.objects]; simp
  · rw [right.links,left.links]; tauto
  · rw [aliases,left.aliases]
  · rw [right.referrers,left.referrers]
    simp only [false_implies,implies_true,and_true,not_or]
    tauto

theorem deleted_trimmed (c : Content) (repo : RepoName) (digest : Digest) :
    Trimmed c (c.manifestDeleted repo digest) (fun other x => other = repo ∧ x ∈ c.names digest) fun _ => False := by
  obtain ⟨blobs,aliases,objects,repos,flag⟩ := c.deleted_rest repo digest
  refine ⟨fun x bytes => ?_,fun x manifest => ?_,fun other x link => ?_,fun x y => ?_,fun other subject referrer row => ?_,
    repos,flag⟩
  · rw [blobs]; simp
  · rw [objects]; simp
  · rw [deleted_links,mem_names]
    split <;> simp_all
  · rw [aliases]; simp
  · rw [deleted_referrers,mem_names]
    split <;> simp_all

theorem unlinked_trimmed (c : Content) (repo : RepoName) (digest : Digest) :
    Trimmed c (c.linkRemove repo digest).2 (fun other x => other = repo ∧ x = digest) fun _ => False := by
  refine ⟨fun x bytes => ?_,fun x manifest => ?_,fun other x link => ?_,fun x y => ?_,fun other subject referrer row => ?_,
    rfl,rfl⟩
  · simp [linkRemove]
  · simp [linkRemove]
  · rw [linkRemove_links]
    split <;> simp_all
  · simp [linkRemove]
  · rw [linkRemove_referrers]
    split <;> simp_all

-- One object forgotten, then the rest. A name whose alias row the first removal
-- took stands in that removal itself.
theorem forgotten_trimmed {after : Content} (right : Trimmed (c.forgotten digest) after (fun _ _ => False) doomed) :
    Trimmed c after (fun _ _ => False) fun x => x = digest ∨ doomed x := by
  have rows (x y : Digest) : (c.forgotten digest).aliases[x]? = some y ↔
      ¬(x = digest ∨ (c.aliasOf digest = some x ∧ c.aliasOf x = some digest)) ∧ c.aliasOf x = some y := by
    rw [c.forgotten_aliases digest x]
    unfold aliasOf
    split <;> simp_all
  have named (x y : Digest) : y ∈ (c.forgotten digest).names x ↔ y = x ∨
      ¬(x = digest ∨ (c.aliasOf digest = some x ∧ c.aliasOf x = some digest)) ∧ c.aliasOf x = some y := by
    rw [mem_names,←rows]
    rfl
  refine ⟨fun x bytes => ?_,fun x manifest => ?_,fun repo x link => ?_,fun x y => ?_,fun repo subject referrer row => ?_,
    right.repos,right.flag⟩
  · rw [right.blobs,forgotten_blobs]
    split <;> simp_all [eq_comm]
  · rw [right.objects,forgotten_objects]
    split <;> simp_all [eq_comm]
  · rw [right.links,forgotten_links]
    split <;> simp_all
  · rw [right.aliases,rows,rows]
    unfold aliasOf
    grind
  · rw [right.referrers,forgotten_referrers]
    simp only [named,mem_names]
    split
    · grind
    · grind

-- The three phases, each by induction on its list.
theorem sweepObjects_trimmed (doomed : List Digest) (c : Content) :
    Trimmed c (sweepObjects doomed c).2 (fun _ _ => False) fun x => x ∈ doomed := by
  induction doomed generalizing c with
  | nil => simp only [not_mem_nil]; exact .nothing c
  | cons digest rest ih => simp only [mem_cons]; exact forgotten_trimmed (ih (c.forgotten digest))

theorem sweepLinks_trimmed (stale : List (RepoName × Digest)) (c : Content) :
    Trimmed c (sweepLinks stale c).2 (fun repo x => (repo,x) ∈ stale) fun _ => False := by
  induction stale generalizing c with
  | nil => simp only [not_mem_nil]; exact .nothing c
  | cons entry rest ih =>
    have both := (c.unlinked_trimmed entry.1 entry.2).unlink (ih (c.linkRemove entry.1 entry.2).2)
    simp only [mem_cons,Prod.ext_iff]
    exact both

theorem deleteManifests_trimmed (ran : OciStore.deleteManifests entries s = (.ok (),t)) :
    Trimmed s.toContent t.toContent (fun repo x => ∃ d,(repo,d) ∈ entries ∧ x ∈ s.names d) (fun _ => False) ∧
      ∀ (repo : RepoName) (tag : Tag) (entry : TagEntry),t.tags[(repo,tag)]? = some entry ↔
        s.tags[(repo,tag)]? = some entry ∧ ∀ d,(repo,d) ∈ entries → entry.kappa ∉ s.names d := by
  induction entries generalizing s with
  | nil => cases ran; exact ⟨by simpa using Trimmed.nothing _,by simp⟩
  | cons first rest ih =>
    obtain ⟨repo,digest⟩ := first
    unfold OciStore.deleteManifests at ran
    rcases s.manifestDelete_cases repo digest with ⟨⟨e,refused⟩,-⟩ | ⟨link,-,-,answered⟩
    · split at ran
      · cases ran
      · rename_i accepted; rw [accepted] at refused
        cases refused
    · rw [answered] at ran
      obtain ⟨trimmed,tags⟩ := ih ran
      have names (d : Digest) : (s.manifestDeleted repo digest).names d = s.names d := by
        obtain ⟨-,aliases,-,-,-⟩ := s.deleted_rest repo digest
        unfold Content.names aliasOf; rw [aliases]
      have both := (s.deleted_trimmed repo digest).unlink trimmed
      simp only [names] at both tags
      constructor
      · convert both using 2 with other
        funext x
        simp only [mem_cons,Prod.mk.injEq,eq_iff_iff]; grind
      · intro other tag entry; rw [tags,s.deleted_tags repo other digest tag entry]
        simp only [mem_cons,Prod.mk.injEq,mem_names]; grind

-- Whether an object is on record once the backfill has run, whether a sweep
-- takes it, and whether a sweep leaves a link under the name.
def Recorded (c : Content) (digest : Digest) : Prop := ∃ manifest : Bool,c.objectsBackfill.objects[digest]? = some manifest
def Doomed (crates : Crates) (c : Content) (deleteUntagged : Bool) (digest : Digest) : Prop :=
  c.Recorded digest ∧ ¬Marked crates c deleteUntagged digest
def Spared (crates : Crates) (c : Content) (deleteUntagged : Bool) (digest : Digest) : Prop :=
  ¬Doomed crates c deleteUntagged digest ∧ ∃ name ∈ c.names digest,Marked crates c deleteUntagged name

variable {crates : Crates}

theorem walked_objects {objects : Table Digest Bool} :
    Walked crates {c with objects := objects,objectsBackfilled := flag} deleteUntagged repo digest ↔
      Walked crates c deleteUntagged repo digest := by
  constructor
  · intro walked
    induction walked with
    | root listed manifest rooted => exact .root listed manifest rooted
    | spread _ found member named listed manifest shared ih => exact .spread ih found member named listed manifest shared
  · intro walked
    induction walked with
    | root listed manifest rooted => exact .root listed manifest rooted
    | spread _ found member named listed manifest shared ih => exact .spread ih found member named listed manifest shared

variable {deleteUntagged : Bool}

theorem marked_backfill {name : Digest} :
    Marked crates c.objectsBackfill deleteUntagged name ↔ Marked crates c deleteUntagged name := by
  unfold objectsBackfill
  split
  · exact .rfl
  · unfold Marked
    simp only [walked_objects]
    exact .rfl

def unmarked (c : Content) (marked : KeySet Digest) (blob : Bool) : List (RepoName × Digest) :=
  (c.unmarkedLinks marked c.gcViews blob).map fun entry => (entry.1.name,entry.2)

theorem mem_unmarked :
    (repo,digest) ∈ c.unmarked marked blob ↔ repo ∈ c.repos ∧ ∃ link : Link,c.links[(repo,digest)]? = some link ∧
      (∀ name ∈ c.names digest,name ∉ marked) ∧ (link.kind = .blob ↔ blob = true) := by
  have absent (x : Digest) : c.isMarked marked x = false ↔ ∀ name ∈ c.names x,name ∉ marked := by
    rw [←Bool.not_eq_true,isMarked_iff]
    simp
  unfold unmarked
  simp only [mem_map,mem_unmarkedLinks,Prod.mk.injEq,absent]
  constructor
  · rintro ⟨entry,⟨name,listed,view,link,linked,unmarked,kind⟩,rfl,rfl⟩
    rw [view]
    exact ⟨listed,link,linked,unmarked,kind⟩
  · rintro ⟨listed,link,linked,unmarked,kind⟩
    exact ⟨(c.gcView repo,digest),⟨repo,listed,rfl,link,linked,unmarked,kind⟩,rfl,rfl⟩

variable {held : Bytes → Prop}

theorem marked_blake
    (hashed : Names.Hashed crates held c) (named : c.aliasOf x = some y) (plain : x.algorithm ≠ .blake3)
    (marked : Marked crates c deleteUntagged x) : Marked crates c deleteUntagged y := by
  obtain ⟨repo,digest,found,reference,walked,answered,member,among⟩ := marked
  refine ⟨repo,digest,found,reference,walked,answered,member,?_⟩
  rcases mem_names.mp among with rfl | aliased
  · exact mem_names.mpr (.inr named)
  · obtain ⟨bytes,pair⟩ := hashed.paired reference x aliased
    have blake : reference.algorithm = .blake3 := by have := pair.mixed; tauto
    have back := hashed.answered reference x aliased blake
    exact mem_names.mpr (.inl (Option.some.inj (named.symm.trans back)))

-- A deleted manifest takes no link that something marked keeps.
theorem spared_other
    (hashed : Names.Hashed crates held c) (kept : ∃ name ∈ c.names x,Marked crates c deleteUntagged name)
    (unmarked : ∀ name ∈ c.names d,¬Marked crates c deleteUntagged name) : x ∉ c.names d := by
  intro member
  obtain ⟨name,among,marked⟩ := kept
  have plain : ¬Marked crates c deleteUntagged x := unmarked x member
  rcases mem_names.mp among with rfl | named
  · exact plain marked
  · rcases mem_names.mp member with rfl | aliased
    · exact unmarked name among marked
    · obtain ⟨bytes,pair⟩ := hashed.paired x name named
      by_cases blake : x.algorithm = .blake3
      · have other : name.algorithm ≠ .blake3 := pair.mixed.mp blake
        exact plain (marked_blake hashed (hashed.answered x name named blake) other marked)
      · obtain ⟨bytes',pair'⟩ := hashed.paired d x aliased
        have first : d.algorithm = .blake3 := by have := pair'.mixed; tauto
        have back := hashed.answered d x aliased first
        obtain rfl := Option.some.inj (named.symm.trans back)
        exact unmarked name mem_names_self marked

-- The whole effect of a collection that succeeds: an object goes when it is on
-- record and not marked, a link stays when it is spared, and nothing else moves
-- but the rows that name what went.
structure Swept (crates : Crates) (c : Content) (deleteUntagged : Bool) (after : Content) : Prop where
  tags : after.tags = c.tags
  repos : after.repos = c.repos
  backfilled : after.objectsBackfilled = true
  blobs : ∀ (x : Digest) (bytes : Bytes),after.blobs[x]? = some bytes ↔
    c.blobs[x]? = some bytes ∧ ¬Doomed crates c deleteUntagged x
  objects : ∀ (x : Digest) (manifest : Bool),after.objects[x]? = some manifest ↔
    c.objectsBackfill.objects[x]? = some manifest ∧ ¬Doomed crates c deleteUntagged x
  links : ∀ (repo : RepoName) (x : Digest) (link : Link),after.links[(repo,x)]? = some link ↔
    c.links[(repo,x)]? = some link ∧ Spared crates c deleteUntagged x
  aliases : ∀ x y : Digest,after.aliases[x]? = some y ↔ c.aliases[x]? = some y ∧ ¬Doomed crates c deleteUntagged x ∧
    ¬(Doomed crates c deleteUntagged y ∧ c.aliases[y]? = some x)
  referrers : ∀ (repo : RepoName) (subject referrer : Digest) (row : ReferrerDescriptor),
    after.referrers[(repo,subject,referrer)]? = some row ↔ c.referrers[(repo,subject,referrer)]? = some row ∧
      Spared crates c deleteUntagged referrer ∧
      ∀ d,Doomed crates c deleteUntagged d → subject ∉ c.names d ∧ referrer ∉ c.names d

end Content

namespace OciStore
open Content

def gcDoomed (s : OciStore) (options : GcOptions) (marks : MarkState) : List Digest :=
  (s.gcObjects options).filter fun digest => !marks.marked.contains digest

def sweptContent (c : Content) (doomed : List Digest) (stale : List (RepoName × Digest)) : Content :=
  (sweepLinks stale (sweepObjects doomed c).2).2

theorem sweptContent_tags (c : Content) (doomed : List Digest) (stale : List (RepoName × Digest)) :
    (sweptContent c doomed stale).tags = c.tags :=
  sweepLinks_rule (fun after => after.tags = c.tags) stale _ (fun _ _ _ kept => kept)
    (sweepObjects_rule (fun after => after.tags = c.tags) doomed c (fun _ _ _ kept => kept) rfl)

variable {options : GcOptions} {s : OciStore}

-- A collection that answers a report has marked, deleted every manifest it
-- decided on, and swept.
theorem collect_ran (real : options.dryRun = false) (ran : (collect crates s options).answer = .ok report) :
    ∃ marks t,(s.gcReady options).gcMark crates options.deleteUntagged (s.gcReady options).gcViews = .ok marks ∧
      deleteManifests ((s.gcReady options).unmarked marks.marked false) (s.gcReady options) = (.ok (),t) ∧
      (collect crates s options).store = {t with
        toContent := sweptContent t.toContent (s.gcDoomed options marks) ((s.gcReady options).unmarked marks.marked true)} ∧
      report.sweptBlobs = (s.gcDoomed options marks).length ∧
      report.sweptManifests = ((s.gcReady options).unmarked marks.marked false).length := by
  rw [collect_eq] at ran ⊢
  unfold markAndSweep at ran ⊢
  split at ran
  · cases ran
  · rename_i marks marked
    rw [marked]
    unfold gcSweep at ran ⊢
    simp only [real,Bool.false_eq_true,if_false] at ran ⊢
    split at ran
    · cases ran
    · rename_i t deleted
      refine ⟨marks,t,rfl,deleted,?_,?_,?_⟩
      · rfl
      · cases ran; rfl
      · cases ran; exact (length_map _).symm

theorem mem_sortDedup {α : Type} [Ord α] [TransOrd α] [LawfulEqOrd α] {rows : List α} {row : α} :
    row ∈ sortDedup rows ↔ row ∈ rows := by
  have folded (set : KeySet α) : row ∈ rows.foldl (fun kept other => kept.insert other) set ↔ row ∈ set ∨ row ∈ rows := by
    induction rows generalizing set with
    | nil => simp
    | cons other rest ih =>
      rw [foldl_cons,ih]
      simp only [ExtTreeSet.mem_insert,Std.compare_eq_iff_eq,mem_cons]
      grind
  unfold sortDedup
  rw [ExtTreeSet.mem_toList,folded]
  simp

theorem mem_gcObjects {digest : Digest} (real : options.dryRun = false) :
    digest ∈ s.gcObjects options ↔ s.Recorded digest := by
  unfold gcObjects Recorded objectRows
  simp only [real,Bool.false_eq_true,if_false,mem_map,mem_sortDedup,Prod.exists,exists_and_right,exists_eq_right,
    mem_rows]

theorem collect_swept (valid : Consistency.Consistent s.toContent) (hashed : Names.Hashed crates held s.toContent)
    (real : options.dryRun = false) (ran : (collect crates s options).answer = .ok report) :
    Swept crates s.toContent options.deleteUntagged (collect crates s options).store.toContent := by
  obtain ⟨marks,t,marked,deleted,store,-,-⟩ := collect_ran real ran
  have ready : (s.gcReady options).toContent = s.objectsBackfill := by
    rw [gcReady_content]
    simp [real]
  obtain ⟨first,tags⟩ := deleteManifests_trimmed deleted
  have swept := first.unlink ((sweepObjects_trimmed (s.gcDoomed options marks) t.toContent).then_unlink
    (sweepLinks_trimmed ((s.gcReady options).unmarked marks.marked true) _))
  have kept := sweptContent_tags t.toContent (s.gcDoomed options marks) ((s.gcReady options).unmarked marks.marked true)
  have content : (collect crates s options).store.toContent = sweptContent t.toContent (s.gcDoomed options marks)
      ((s.gcReady options).unmarked marks.marked true) := by rw [store]
  rw [content]
  change Trimmed _ (sweptContent _ _ _) _ _ at swept
  generalize sweptContent t.toContent (s.gcDoomed options marks) _ = final at swept kept
  rw [ready] at marked swept tags
  have mem (name : Digest) : name ∈ marks.marked ↔ Marked crates s.toContent options.deleteUntagged name :=
    ((gcMark_ok marked).1 name).trans marked_backfill
  have doomed (x : Digest) : x ∈ s.gcDoomed options marks ↔ Doomed crates s.toContent options.deleteUntagged x := by
    unfold gcDoomed Doomed
    rw [mem_filter,mem_gcObjects real,←mem]
    simp [←ExtTreeSet.contains_iff_mem]
  obtain ⟨objects,same⟩ := backfill_same s.toContent
  have entries (blob : Bool) (repo : RepoName) (x : Digest) : (repo,x) ∈ s.objectsBackfill.unmarked marks.marked blob ↔
      repo ∈ s.repos ∧ ∃ link : Link,s.links[(repo,x)]? = some link ∧
        (∀ name ∈ s.names x,¬Marked crates s.toContent options.deleteUntagged name) ∧ (link.kind = .blob ↔ blob = true) := by
    rw [mem_unmarked]
    simp only [mem]
    rw [same]
    exact .rfl
  -- A link goes exactly when neither phase spares it.
  have spared (repo : RepoName) (x : Digest) (link : Link) (linked : s.links[(repo,x)]? = some link) :
      (¬((∃ d,(repo,d) ∈ s.objectsBackfill.unmarked marks.marked false ∧ x ∈ s.objectsBackfill.names d) ∨
        (False ∨ (repo,x) ∈ s.objectsBackfill.unmarked marks.marked true)) ∧ x ∉ s.gcDoomed options marks) ↔
      Spared crates s.toContent options.deleteUntagged x := by
    rw [doomed]
    unfold Spared
    constructor
    · rintro ⟨kept,undoomed⟩
      refine ⟨undoomed,?_⟩
      by_contra unmarked
      have absent : ∀ name ∈ s.names x,¬Marked crates s.toContent options.deleteUntagged name :=
        fun name among marked => unmarked ⟨name,among,marked⟩
      have listed := valid.linked_listed repo x link linked
      apply kept
      by_cases blob : link.kind = .blob
      · exact .inr (.inr ((entries true repo x).mpr ⟨listed,link,linked,absent,by simp [blob]⟩))
      · exact .inl ⟨x,(entries false repo x).mpr ⟨listed,link,linked,absent,by simp [blob]⟩,mem_names_self⟩
    · rintro ⟨undoomed,marked⟩
      refine ⟨?_,undoomed⟩
      rintro (⟨d,entry,member⟩ | impossible | entry)
      · obtain ⟨-,-,-,absent,-⟩ := (entries false repo d).mp entry
        rw [same] at member; exact spared_other hashed marked absent member
      · exact impossible
      · obtain ⟨-,-,-,absent,-⟩ := (entries true repo x).mp entry
        obtain ⟨name,among,found⟩ := marked
        exact absent name among found
  refine ⟨?_,?_,?_,?_,?_,?_,?_,?_⟩
  · rw [kept]
    refine table_ext fun key => Option.ext fun entry => ?_
    obtain ⟨repo,tag⟩ := key
    rw [tags repo tag entry]
    simp only [same]
    refine ⟨fun found => found.1,fun found => ⟨found,fun d member among => ?_⟩⟩
    rw [←same] at member
    obtain ⟨listed,link,linked,absent,kind⟩ := (entries false repo d).mp member
    have manifest : s.Candidate repo d := ⟨link,linked,by simp [kind]⟩
    have walked : Walked crates s.toContent options.deleteUntagged repo d :=
      .root listed manifest (.inr ⟨entry.kappa,among,tag,entry,found,rfl⟩)
    rw [same] at marked
    have inside := walked_marked marked (walked_objects.mpr walked) mem_names_self
    exact absent d mem_names_self ((mem d).mp inside)
  · rw [same] at swept
    exact swept.repos
  · rw [same] at swept
    exact swept.flag
  · intro x bytes
    rw [same] at swept
    exact (swept.blobs x bytes).trans (and_congr_right' (not_congr (doomed x)))
  · intro x manifest
    exact (swept.objects x manifest).trans (and_congr_right' (not_congr (doomed x)))
  · intro repo x link
    refine (swept.links repo x link).trans ?_
    rw [same] at spared ⊢
    exact and_congr_right fun linked => spared repo x link linked
  · intro x y
    refine (swept.aliases x y).trans ?_
    rw [same,doomed,doomed]
  · intro repo subject referrer row
    refine (swept.referrers repo subject referrer row).trans ?_
    rw [same] at spared ⊢
    refine and_congr_right fun found => ?_
    obtain ⟨link,linked⟩ := valid.referrer_linked repo subject referrer row found
    have both := spared repo referrer link linked
    simp only [doomed] at both ⊢
    constructor
    · rintro ⟨kept,names⟩
      have undoomed : ¬Doomed crates s.toContent options.deleteUntagged referrer :=
        fun gone => (names referrer gone).2 mem_names_self
      exact ⟨both.mp ⟨kept,undoomed⟩,names⟩
    · rintro ⟨kept,names⟩
      exact ⟨(both.mpr kept).1,names⟩

end OciStore
end HologramLive
