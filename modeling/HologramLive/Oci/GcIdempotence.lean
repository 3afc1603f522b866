import HologramLive.Oci.GcSafety
namespace HologramLive
open Tables Std GcSafety OciStore List
namespace GcIdempotence
open Content

section Trimmed
open Classical

-- The content before a collection, less the referrers rows that name a swept
-- object under either name. The collection drops these rows though mark
-- followed them.
noncomputable def trimmed (crates : Crates) (c : Content) (deleteUntagged : Bool) : Content :=
  {c with referrers := eraseWhere c.referrers fun key =>
    decide (∃ d,Doomed crates c deleteUntagged d ∧ (key.2.1 ∈ c.names d ∨ key.2.2 ∈ c.names d))}

theorem trimmed_referrers (crates : Crates) (c : Content) (deleteUntagged : Bool) {repo : RepoName} :
    (trimmed crates c deleteUntagged).referrers[(repo,subject,referrer)]? = some row ↔
      c.referrers[(repo,subject,referrer)]? = some row ∧
        ∀ d,Doomed crates c deleteUntagged d → subject ∉ c.names d ∧ referrer ∉ c.names d := by
  have found := get_eraseWhere c.referrers (fun key : RepoName × Digest × Digest =>
    decide (∃ d,Doomed crates c deleteUntagged d ∧ (key.2.1 ∈ c.names d ∨ key.2.2 ∈ c.names d))) (repo,subject,referrer)
  unfold trimmed
  rw [found]
  simp only [decide_eq_true_eq]
  split
  · rename_i gone
    obtain ⟨d,doomed,named⟩ := gone
    refine ⟨fun absent => (by cases absent),fun ⟨_,kept⟩ => ?_⟩
    rcases named with subject | referrer
    · exact absurd subject (kept d doomed).1
    · exact absurd referrer (kept d doomed).2
  · rename_i kept
    refine ⟨fun row => ⟨row,fun d doomed => ⟨fun named => ?_,fun named => ?_⟩⟩,fun row => row.1⟩
    · exact kept ⟨d,doomed,.inl named⟩
    · exact kept ⟨d,doomed,.inr named⟩

end Trimmed

theorem mem_gcReferrers {c : Content} :
    reference ∈ c.gcReferrers repo digest ↔ ∃ subject ∈ c.names digest,∃ (referrer : Digest) (row : ReferrerDescriptor),
      c.referrers[(repo,subject,referrer)]? = some row ∧ row.digest = reference := by
  unfold gcReferrers referrersOf
  simp only [mem_flatMap,mem_map,mem_filter]
  constructor
  · rintro ⟨subject,among,row,⟨entry,⟨member,starts⟩,rfl⟩,rfl⟩
    obtain ⟨⟨other,about,referrer⟩,row⟩ := entry
    simp only [Bool.and_eq_true,decide_eq_true_eq] at starts
    obtain ⟨rfl,rfl⟩ := starts
    exact ⟨about,among,referrer,row,mem_rows.mp member,rfl⟩
  · rintro ⟨subject,among,referrer,row,found,rfl⟩
    exact ⟨subject,among,row,⟨((repo,subject,referrer),row),⟨mem_rows.mpr found,by simp⟩,rfl⟩,rfl⟩

theorem gcFound_ok {c : Content} :
    c.gcFound crates repo digest = .ok found ↔ ∃ references,c.gcReferences crates repo digest = .ok references ∧
      found = digest :: references ++ c.gcReferrers repo digest := by
  unfold gcFound
  cases c.gcReferences crates repo digest with
  | error e => simp
  | ok references => simp [eq_comm]

section Second
variable {crates : Crates} {held : Bytes → Prop} {c after : Content} {deleteUntagged : Bool}

def Found (crates : Crates) (c : Content) (deleteUntagged : Bool) (digest : Digest) : Prop :=
  ∀ name ∈ c.names digest,Marked crates c deleteUntagged name

theorem found_names (swept : Swept crates c deleteUntagged after)
    (found : Found crates c deleteUntagged digest) (among : name ∈ c.names digest) : name ∈ after.names digest := by
  rcases mem_names.mp among with rfl | named
  · exact mem_names_self
  · refine mem_names.mpr (.inr ((swept_alias swept).mpr ⟨named,?_,?_⟩))
    · exact fun doomed => doomed.2 (found digest mem_names_self)
    · exact fun doomed => doomed.1.2 (found name among)

theorem fewer_names (swept : Swept crates c deleteUntagged after) {digest name : Digest}
    (among : name ∈ after.names digest) : name ∈ c.names digest := by
  rcases mem_names.mp among with rfl | named
  · exact mem_names_self
  · exact mem_names.mpr (.inr ((swept_alias swept).mp named).1)

theorem found_spared (found : Found crates c deleteUntagged digest) : Spared crates c deleteUntagged digest :=
  ⟨fun doomed => doomed.2 (found digest mem_names_self),digest,mem_names_self,found digest mem_names_self⟩

theorem swept_references (valid : Consistency.Consistent c) (hashed : Names.Hashed crates held c)
    (swept : Swept crates c deleteUntagged after)
    (manifest : c.Candidate repo digest) (found : Found crates c deleteUntagged digest)
    (read : c.gcReferences crates repo digest = .ok references) :
    after.gcReferences crates repo digest = .ok references := by
  obtain ⟨link,linked,-⟩ := manifest
  have answers : GcSafety.Answers crates c deleteUntagged repo digest :=
    ⟨fun _ => found_spared found,fun absent => absurd (linked_iff.mpr ⟨link,linked⟩) absent⟩
  unfold gcReferences at read ⊢
  rw [swept.repos]
  split at read
  · cases read
  · rename_i listed
    rw [if_neg listed]
    cases manifest : c.manifestRead repo digest with
    | error e => simp [manifest] at read
    | ok stored =>
      rw [manifest] at read
      rw [swept_manifest valid hashed swept answers manifest]
      exact read

-- Everything the first mark walked reads; that is what its success says.
def Reads (crates : Crates) (c : Content) (deleteUntagged : Bool) : Prop :=
  ∀ repo digest,Walked crates c deleteUntagged repo digest → ∃ found,c.gcFound crates repo digest = .ok found

theorem walked_found (walked : Walked crates c deleteUntagged repo digest)
    (answered : c.gcFound crates repo digest = .ok found) (member : reference ∈ found) :
    Found crates c deleteUntagged reference :=
  fun _ among => ⟨repo,digest,found,reference,walked,answered,member,among⟩

theorem walked_self (reads : Reads crates c deleteUntagged)
    (walked : Walked crates c deleteUntagged repo digest) : Found crates c deleteUntagged digest := by
  obtain ⟨found,answered⟩ := reads repo digest walked
  exact walked_found walked answered (gcFound_self answered)

theorem trimmed_found {repo : RepoName}
    (answered : (trimmed crates c deleteUntagged).gcFound crates repo digest = .ok found) :
    ∃ more,c.gcFound crates repo digest = .ok more ∧ ∀ reference ∈ found,reference ∈ more := by
  obtain ⟨references,read,rfl⟩ := gcFound_ok.mp answered
  refine ⟨_,gcFound_ok.mpr ⟨references,read,rfl⟩,fun reference member => ?_⟩
  rcases mem_append.mp member with first | referrer
  · exact mem_append_left _ first
  · obtain ⟨subject,among,name,row,kept,rfl⟩ := mem_gcReferrers.mp referrer
    have before := ((trimmed_referrers crates c deleteUntagged).mp kept).1
    exact mem_append_right _ (mem_gcReferrers.mpr ⟨subject,among,name,row,before,rfl⟩)

theorem trimmed_walked (walked : Walked crates (trimmed crates c deleteUntagged) deleteUntagged repo digest) :
    Walked crates c deleteUntagged repo digest := by
  induction walked with
  | root listed manifest rooted => exact .root listed manifest rooted
  | spread _ answered member named listed manifest shared ih =>
    obtain ⟨more,found,inside⟩ := trimmed_found answered
    exact .spread ih found (inside _ member) named listed manifest shared

theorem second_found (valid : Consistency.Consistent c) (hashed : Names.Hashed crates held c)
    (swept : Swept crates c deleteUntagged after) (reads : Reads crates c deleteUntagged) (walked : Walked crates c deleteUntagged repo digest) :
    ∃ first second,(trimmed crates c deleteUntagged).gcFound crates repo digest = .ok first ∧
      after.gcFound crates repo digest = .ok second ∧ ∀ reference,reference ∈ first ↔ reference ∈ second := by
  have closed := walked_self reads walked
  obtain ⟨found,answered⟩ := reads repo digest walked
  obtain ⟨references,read,rfl⟩ := gcFound_ok.mp answered
  have again := swept_references valid hashed swept (walked_candidate walked).2 closed read
  refine ⟨_,_,gcFound_ok.mpr ⟨references,read,rfl⟩,gcFound_ok.mpr ⟨references,again,rfl⟩,fun reference => ?_⟩
  simp only [mem_append]
  apply or_congr_right
  constructor
  · intro referrer
    obtain ⟨subject,among,name,row,kept,rfl⟩ := mem_gcReferrers.mp referrer
    obtain ⟨before,apart⟩ := (trimmed_referrers crates c deleteUntagged).mp kept
    have listed : row.digest ∈ c.gcReferrers repo digest := mem_gcReferrers.mpr ⟨subject,among,name,row,before,rfl⟩
    have referenced := walked_found walked answered (mem_append_right _ listed)
    have named := valid.referrer_named repo subject name row before
    rw [named] at referenced
    exact mem_gcReferrers.mpr ⟨subject,found_names swept closed among,name,row,
      (swept.referrers repo subject name row).mpr ⟨before,found_spared referenced,apart⟩,rfl⟩
  · intro referrer
    obtain ⟨subject,among,name,row,kept,rfl⟩ := mem_gcReferrers.mp referrer
    obtain ⟨before,-,apart⟩ := (swept.referrers repo subject name row).mp kept
    exact mem_gcReferrers.mpr ⟨subject,fewer_names swept among,name,row,
      (trimmed_referrers crates c deleteUntagged).mpr ⟨before,apart⟩,rfl⟩

theorem swept_candidate (swept : Swept crates c deleteUntagged after) :
    after.Candidate repo digest ↔ c.Candidate repo digest ∧ Spared crates c deleteUntagged digest := by
  unfold Candidate
  simp only [swept.links]
  constructor
  · rintro ⟨link,⟨linked,spared⟩,kind⟩
    exact ⟨⟨link,linked,kind⟩,spared⟩
  · rintro ⟨⟨link,linked,kind⟩,spared⟩
    exact ⟨link,⟨linked,spared⟩,kind⟩

theorem second_walked (valid : Consistency.Consistent c) (hashed : Names.Hashed crates held c)
    (swept : Swept crates c deleteUntagged after) (reads : Reads crates c deleteUntagged) :
    Walked crates after deleteUntagged repo digest ↔
      Walked crates (trimmed crates c deleteUntagged) deleteUntagged repo digest := by
  constructor
  · intro walked
    induction walked with
    | root listed manifest rooted =>
      refine .root (swept.repos ▸ listed) ((swept_candidate swept).mp manifest).1 ?_
      rcases rooted with off | ⟨name,among,tag,entry,found,named⟩
      · exact .inl off
      · exact .inr ⟨name,fewer_names swept among,tag,entry,swept.tags ▸ found,named⟩
    | spread _ answered member named listed manifest shared ih =>
      obtain ⟨first,second,before,again,same⟩ := second_found valid hashed swept reads (trimmed_walked ih)
      obtain rfl := Except.ok.inj (again.symm.trans answered)
      exact .spread ih before ((same _).mpr member) (fewer_names swept named) (swept.repos ▸ listed)
        ((swept_candidate swept).mp manifest).1 (fewer_names swept shared)
  · intro walked
    induction walked with
    | root listed manifest rooted =>
      have closed := walked_self reads (.root listed manifest rooted)
      refine .root (swept.repos ▸ listed) ((swept_candidate swept).mpr ⟨manifest,found_spared closed⟩) ?_
      rcases rooted with off | ⟨name,among,tag,entry,found,named⟩
      · exact .inl off
      · exact .inr ⟨name,found_names swept closed among,tag,entry,swept.tags ▸ found,named⟩
    | spread walked answered member named listed manifest shared ih =>
      have before := trimmed_walked walked
      have later := trimmed_walked (.spread walked answered member named listed manifest shared)
      have closed := walked_self reads later
      obtain ⟨first,second,first_answer,again,same⟩ := second_found valid hashed swept reads before
      obtain rfl := Except.ok.inj (first_answer.symm.trans answered)
      obtain ⟨more,whole,inside⟩ := trimmed_found answered
      have referenced := walked_found before whole (inside _ member)
      exact .spread ih again ((same _).mp member) (found_names swept referenced named) (swept.repos ▸ listed)
        ((swept_candidate swept).mpr ⟨manifest,found_spared closed⟩) (found_names swept closed shared)

theorem second_marked (valid : Consistency.Consistent c) (hashed : Names.Hashed crates held c)
    (swept : Swept crates c deleteUntagged after) (reads : Reads crates c deleteUntagged) {name : Digest} :
    Marked crates after deleteUntagged name ↔ Marked crates (trimmed crates c deleteUntagged) deleteUntagged name := by
  constructor
  · rintro ⟨repo,digest,found,reference,walked,answered,member,among⟩
    have before := (second_walked valid hashed swept reads).mp walked
    obtain ⟨first,second,first_answer,again,same⟩ := second_found valid hashed swept reads (trimmed_walked before)
    obtain rfl := Except.ok.inj (again.symm.trans answered)
    exact ⟨repo,digest,first,reference,before,first_answer,(same _).mpr member,fewer_names swept among⟩
  · rintro ⟨repo,digest,found,reference,walked,answered,member,among⟩
    obtain ⟨first,second,first_answer,again,same⟩ := second_found valid hashed swept reads (trimmed_walked walked)
    obtain rfl := Except.ok.inj (first_answer.symm.trans answered)
    obtain ⟨more,whole,inside⟩ := trimmed_found answered
    have referenced := walked_found (trimmed_walked walked) whole (inside _ member)
    exact ⟨repo,digest,second,reference,(second_walked valid hashed swept reads).mpr walked,again,(same _).mp member,
      found_names swept referenced among⟩

theorem second_mark (valid : Consistency.Consistent c) (hashed : Names.Hashed crates held c)
    (swept : Swept crates c deleteUntagged after) (reads : Reads crates c deleteUntagged) :
    ∃ marks,after.gcMark crates deleteUntagged after.gcViews = .ok marks ∧
      ∀ name,name ∈ marks.marked ↔ Marked crates (trimmed crates c deleteUntagged) deleteUntagged name := by
  cases ran : after.gcMark crates deleteUntagged after.gcViews with
  | ok marks => exact ⟨marks,rfl,fun name => ((gcMark_ok ran).1 name).trans (second_marked valid hashed swept reads)⟩
  | error failure =>
    obtain ⟨e,lines⟩ := failure
    obtain ⟨repo,digest,walked,failed⟩ := gcMark_error ran
    have before := (second_walked valid hashed swept reads).mp walked
    obtain ⟨-,second,-,answered,-⟩ := second_found valid hashed swept reads (trimmed_walked before)
    rw [failed] at answered
    cases answered

theorem second_recorded (swept : Swept crates c deleteUntagged after) :
    after.Recorded digest ↔ c.Recorded digest ∧ Marked crates c deleteUntagged digest := by
  have backfilled : after.objectsBackfill = after := by
    unfold Content.objectsBackfill
    rw [if_pos swept.backfilled]
  unfold Recorded
  simp only [backfilled,swept.objects]
  constructor
  · rintro ⟨manifest,recorded,kept⟩
    exact ⟨⟨manifest,recorded⟩,by_contra fun unmarked => kept ⟨⟨manifest,recorded⟩,unmarked⟩⟩
  · rintro ⟨⟨manifest,recorded⟩,marked⟩
    exact ⟨manifest,recorded,fun doomed => doomed.2 marked⟩

theorem spared_names (swept : Swept crates c deleteUntagged after)
    (spared : Spared crates c deleteUntagged digest) (among : name ∈ c.names digest)
    (marked : Marked crates (trimmed crates c deleteUntagged) deleteUntagged name) : name ∈ after.names digest := by
  rcases mem_names.mp among with rfl | named
  · exact mem_names_self
  · refine mem_names.mpr (.inr ((swept_alias swept).mpr ⟨named,spared.1,fun doomed => ?_⟩))
    obtain ⟨repo,digest,found,reference,walked,answered,member,inside⟩ := marked
    obtain ⟨more,whole,first⟩ := trimmed_found answered
    exact doomed.1.2 ⟨repo,digest,more,reference,trimmed_walked walked,whole,first _ member,inside⟩

end Second

-- A second run with nothing to do: it answers a report, sweeps no object and no
-- manifest, and leaves the store as it found it.
def Idle (crates : Crates) (s : OciStore) (options : GcOptions) : Prop :=
  ∃ report,(collect crates s options).answer = .ok report ∧ report.sweptBlobs = 0 ∧
    report.sweptManifests = 0 ∧ (collect crates s options).store = s

-- All the first run keeps is still reached without the rows it drops: the marked
-- objects on record, and the spared links.
def Settled (crates : Crates) (c : Content) (deleteUntagged : Bool) : Prop :=
  (∀ x,c.Recorded x → Marked crates c deleteUntagged x →
    Marked crates (trimmed crates c deleteUntagged) deleteUntagged x) ∧
  ∀ repo x,c.Linked repo x → Spared crates c deleteUntagged x →
    ∃ name ∈ c.names x,Marked crates (trimmed crates c deleteUntagged) deleteUntagged name

theorem deleteManifests_namespaces (entries : List (RepoName × Digest)) (s : OciStore) (name : RepoName)
    (present : name ∈ s.namespaces) : name ∈ (deleteManifests entries s).2.namespaces := by
  induction entries generalizing s with
  | nil => exact present
  | cons entry rest ih =>
    unfold deleteManifests
    rcases s.manifestDelete_cases entry.1 entry.2 with ⟨⟨e,refused⟩,same⟩ | ⟨link,-,-,answered⟩
    · cases result : s.manifestDelete entry.1 entry.2 with
      | mk answer t =>
        rw [result] at refused same; cases refused
        cases same; exact present
    · rw [answered]
      exact ih _ (ExtTreeSet.mem_insert.mpr (.inr present))

theorem second_ready (valid : Consistency.Consistent s.toContent) (hashed : Names.Hashed crates held s.toContent)
    (real : options.dryRun = false) (ran : (collect crates s options).answer = .ok report) :
    (collect crates s options).store.gcReady options = (collect crates s options).store := by
  have swept := collect_swept valid hashed real ran
  obtain ⟨marks,t,-,deleted,store,-,-⟩ := collect_ran real ran
  have named (name : RepoName) (listed : name ∈ s.repos) :
      name ∈ (collect crates s options).store.namespaces := by
    have kept := deleteManifests_namespaces ((s.gcReady options).unmarked marks.marked false) (s.gcReady options) name
      (ready_named s options name listed)
    rw [deleted] at kept
    rw [store]
    exact kept
  generalize (collect crates s options).store = after at swept named
  have backfilled : after.objectsBackfill = after.toContent := by
    unfold Content.objectsBackfill
    rw [if_pos swept.backfilled]
  unfold gcReady
  simp only [real,Bool.false_eq_true,if_false,backfilled]
  exact named_already _ after fun name member => named name (swept.repos ▸ ExtTreeSet.mem_toList.mp member)

-- A second run directly after a successful one is idle exactly when the first
-- one is settled.
theorem collect_idempotent_iff {crates : Crates} {held : Bytes → Prop} {s : OciStore} {options : GcOptions}
    {report : GcReport} (distinguishes : crates.Distinguishes held) (reached : OciStore.Reachable crates held s)
    (real : options.dryRun = false) (ran : (collect crates s options).answer = .ok report) :
    Idle crates (collect crates s options).store options ↔ Settled crates s.toContent options.deleteUntagged := by
  have valid := Consistency.reached_consistent reached
  obtain ⟨hashed,-⟩ := Names.reached_hashed distinguishes reached
  have swept := collect_swept valid hashed real ran
  have ready := second_ready valid hashed real ran
  have reads : Reads crates s.toContent options.deleteUntagged := by
    obtain ⟨marks,-,marked,-⟩ := collect_ran real ran
    obtain ⟨objects,same⟩ := backfill_same s.toContent
    rw [gcReady_content,if_neg (by simp [real]),same] at marked
    exact fun repo digest walked => (gcMark_ok marked).2 repo digest (walked_objects.mpr walked)
  generalize (collect crates s options).store = after at swept ready
  obtain ⟨marks,marked,mem⟩ := second_mark valid hashed swept reads
  have gone (x : Digest) : x ∈ after.gcDoomed options marks ↔ s.Recorded x ∧
      Marked crates s.toContent options.deleteUntagged x ∧
      ¬Marked crates (trimmed crates s.toContent options.deleteUntagged) options.deleteUntagged x := by
    unfold gcDoomed
    rw [mem_filter,mem_gcObjects real,second_recorded swept,←mem]
    simp [←ExtTreeSet.contains_iff_mem,and_assoc]
  constructor
  · rintro ⟨again,ran',noBlobs,noManifests,same⟩
    obtain ⟨marks',t,marked',deleted,store,blobs,manifests⟩ := collect_ran real ran'
    rw [ready] at marked' deleted store manifests
    obtain rfl := Except.ok.inj (marked.symm.trans marked')
    have noDoomed : after.gcDoomed options marks = [] := length_eq_zero_iff.mp (blobs.symm.trans noBlobs)
    have noUntagged : after.unmarked marks.marked false = [] := length_eq_zero_iff.mp (manifests.symm.trans noManifests)
    rw [noUntagged] at deleted
    cases deleted
    have kept : (sweepLinks (after.unmarked marks.marked true) after.toContent).2 = after.toContent := by
      have content := congrArg toContent (store.symm.trans same)
      rw [noDoomed] at content
      exact content
    refine ⟨fun x recorded before => ?_,fun repo x linked spared => ?_⟩
    · by_contra unmarked
      have member := (gone x).mpr ⟨recorded,before,unmarked⟩
      rw [noDoomed] at member
      cases member
    · by_contra unmarked
      obtain ⟨link,row⟩ := linked_iff.mp linked
      have still := (swept.links repo x link).mpr ⟨row,spared⟩
      have listed := swept.repos ▸ valid.linked_listed repo x link row
      have absent : ∀ name ∈ after.names x,name ∉ marks.marked := fun name among found =>
        unmarked ⟨name,fewer_names swept among,(mem name).mp found⟩
      by_cases blob : link.kind = .blob
      · have stale : (repo,x) ∈ after.unmarked marks.marked true :=
          mem_unmarked.mpr ⟨listed,link,still,absent,by simp [blob]⟩
        have trimmed := (sweepLinks_trimmed (after.unmarked marks.marked true) after.toContent).links repo x link
        rw [kept] at trimmed; exact (trimmed.mp still).2.1 stale
      · have untagged : (repo,x) ∈ after.unmarked marks.marked false :=
          mem_unmarked.mpr ⟨listed,link,still,absent,by simp [blob]⟩
        rw [noUntagged] at untagged; cases untagged
  · rintro ⟨objects,links⟩
    have noDoomed : (after.gcObjects options).filter (fun x => !marks.marked.contains x) = [] := by
      apply eq_nil_iff_forall_not_mem.mpr
      intro x member
      obtain ⟨recorded,before,unmarked⟩ := (gone x).mp member
      exact unmarked (objects x recorded before)
    have noLinks (blob : Bool) : after.unmarkedLinks marks.marked after.gcViews blob = [] := by
      apply map_eq_nil_iff.mp
      apply eq_nil_iff_forall_not_mem.mpr
      intro entry member
      obtain ⟨listed,link,linked,absent,-⟩ := mem_unmarked.mp member
      obtain ⟨before,spared⟩ := (swept.links entry.1 entry.2 link).mp linked
      obtain ⟨name,among,found⟩ := links entry.1 entry.2 (linked_iff.mpr ⟨link,before⟩) spared
      exact absent name (spared_names swept spared among found) ((mem name).mpr found)
    unfold Idle
    rw [collect_eq,ready]
    unfold markAndSweep gcSweep
    simp only [marked,real,Bool.false_eq_true,if_false,noDoomed,noLinks]
    exact ⟨_,rfl,rfl,rfl,rfl⟩

section Runs
open Sample

def signed : List Op :=
  [.manifestPut app (.tag latest) defaultMediaType plainManifest plain,
    .manifestPut app (.digest (name .sha256 signature)) defaultMediaType signature signs,
    .manifestPut app (.digest (name .sha512 plainManifest)) defaultMediaType plainManifest plain,
    .manifestDelete app (name .sha512 plainManifest)]

theorem signed_reachable : OciStore.Reachable crates Held (after signed) := .run (.start rfl) (by decide)

theorem signed_first : (collect crates (after signed) ⟨false,true⟩).answer = .ok ⟨2,1,0,0⟩ := by decide +kernel

theorem signed_second : (collect crates (collect crates (after signed) ⟨false,true⟩).store
    ⟨false,true⟩).answer = .ok ⟨1,1,1,0⟩ := by decide +kernel

theorem signed_not_idle : ¬Idle crates (collect crates (after signed) ⟨false,true⟩).store ⟨false,true⟩ := by
  rintro ⟨report,ran,swept,-,-⟩
  rw [signed_second] at ran
  cases ran
  cases swept

theorem second_run_sweeps_signature : OciStore.Reachable crates Held (after signed) ∧
    (collect crates (after signed) ⟨false,true⟩).answer = .ok ⟨2,1,0,0⟩ ∧
    ¬Idle crates (collect crates (after signed) ⟨false,true⟩).store ⟨false,true⟩ :=
  ⟨signed_reachable,signed_first,signed_not_idle⟩

theorem signed_not_settled : ¬Settled crates (after signed).toContent true := fun settled =>
  signed_not_idle ((collect_idempotent_iff distinguishes signed_reachable rfl signed_first).mpr settled)

end Runs
end GcIdempotence
end HologramLive
