import HologramLive.Oci.GcDryRun
namespace HologramLive
open Tables OciStore

namespace Removal
open Content

theorem blobStat_absent {c : Content} {repo : RepoName} {digest : Digest} :
    c.blobStat repo digest = .error (notHere repo digest) ↔ ¬c.LinkedUnder repo digest := by
  unfold blobStat
  cases linked : c.requireLink repo digest with
  | error e =>
    obtain ⟨rfl,absent⟩ := requireLink_error linked
    simp [absent]
  | ok _ =>
    have under := requireLink_ok.mp linked
    simp only [under,not_true,iff_false]
    cases resolved : c.resolveStored repo digest with
    | error e =>
      have lost : ∃ message,e = .io message := by
        unfold resolveStored at resolved; simp only at resolved
        split at resolved
        · cases resolved
        · split at resolved
          · exact ⟨_,(Except.error.inj resolved).symm⟩
          · split at resolved
            · cases resolved
            · exact ⟨_,(Except.error.inj resolved).symm⟩
      obtain ⟨message,rfl⟩ := lost
      simp [notHere]
    | ok storedAs =>
      obtain ⟨bytes,held⟩ := resolveStored_blob resolved
      simp [held]

variable (c : Content)

-- A delete takes the repository's own links under the two names it looks at.
theorem blobUnlinked_rows (repo repo' : RepoName) (digest storedAs name : Digest) :
    (c.blobUnlinked repo digest storedAs).linkGet repo' name =
      if repo' = repo ∧ (name = storedAs ∨ name = digest) then none else c.linkGet repo' name := by
  unfold linkGet blobUnlinked
  split
  · rw [linkRemove_links,linkRemove_links]
    grind
  · rename_i same
    rw [linkRemove_links]
    grind

variable (repo : RepoName)

theorem blobUnlinked_links (digest storedAs name : Digest) :
    (c.blobUnlinked repo digest storedAs).Linked repo name ↔ c.Linked repo name ∧ ¬(name = storedAs ∨ name = digest) := by
  unfold Linked
  rw [blobUnlinked_rows]
  split <;> simp_all

theorem blobUnlinked_rest (digest storedAs : Digest) :
    (c.blobUnlinked repo digest storedAs).blobs = c.blobs ∧ (c.blobUnlinked repo digest storedAs).aliases = c.aliases := by
  unfold blobUnlinked
  split <;> exact ⟨rfl,rfl⟩

theorem blobOpen_congr {c after : Content} {repo : RepoName} (blobs : after.blobs = c.blobs) (aliases : after.aliases = c.aliases)
    (links : ∀ name,after.linkGet repo name = c.linkGet repo name) (name : Digest) :
    after.blobOpen repo name = c.blobOpen repo name := by
  unfold blobOpen blobStat requireLink resolveStored aliasOf
  simp only [links,blobs,aliases]

-- What the route promises: the blob is gone from the repository under both of
-- its names, and every other repository reads as before.
structure Removed (c after : Content) (repo : RepoName) (digest : Digest) : Prop where
  gone : ∀ name ∈ c.names digest,after.blobStat repo name = .error (notHere repo name)
  others : ∀ repo' ≠ repo,∀ name,after.blobOpen repo' name = c.blobOpen repo' name

-- Every link that answers for the alias is one the delete looks at: under the
-- name asked by, or under the alias when no file has the name asked by.
def Covered (digest : Digest) : Prop :=
  ∀ name,(c.aliasOf digest = some name ∨ ∃ other,c.aliasOf digest = some other ∧ c.aliasOf other = some name) →
    c.Linked repo name → name = digest ∨ (c.blobs[digest]? = none ∧ c.aliasOf digest = some name)

theorem deleteBlob_ok {c : Content} {repo : RepoName} {digest : Digest} (answered : (c.deleteBlob repo digest).1 = .ok ()) :
    ∃ storedAs bytes,StoredUnder c digest storedAs bytes ∧ (c.deleteBlob repo digest).2 = c.blobUnlinked repo digest storedAs := by
  cases found : c.blobStat repo digest with
  | error e =>
    unfold deleteBlob at answered
    rw [found] at answered
    cases answered
  | ok stat =>
    obtain ⟨-,bytes,stored,-⟩ := blobStat_ok.mp found
    refine ⟨stat.storedAs,bytes,stored,?_⟩
    unfold deleteBlob blobUnlinked
    rw [found]
    simp only
    split <;> rfl

-- The delete does what it promises exactly where it looks at every link.
theorem delete_removes_iff {c : Content} {repo : RepoName} {digest : Digest}
    (answered : (c.deleteBlob repo digest).1 = .ok ()) :
    Removed c (c.deleteBlob repo digest).2 repo digest ↔ Covered c repo digest := by
  obtain ⟨storedAs,bytes,stored,shape⟩ := deleteBlob_ok answered
  rw [shape]
  obtain ⟨blobs,aliases⟩ := blobUnlinked_rest c repo digest storedAs
  have aliased (name : Digest) : (c.blobUnlinked repo digest storedAs).aliasOf name = c.aliasOf name :=
    congrArg (·[name]?) aliases
  -- The file's name is the one asked by, or its alias when that has no file.
  have place (name : Digest) (other : name ≠ digest) :
      name = storedAs ↔ c.blobs[digest]? = none ∧ c.aliasOf digest = some name := by
    cases stored with
    | own held => simp only [held,reduceCtorEq,false_and,iff_false]; exact other
    | other absent named held => simp only [absent,named,true_and,Option.some.injEq]; exact eq_comm
  have linked (name : Digest) : (c.blobUnlinked repo digest storedAs).Linked repo name ↔
      c.Linked repo name ∧ ¬(name = digest ∨ (c.blobs[digest]? = none ∧ c.aliasOf digest = some name)) := by
    rw [blobUnlinked_links]
    by_cases own : name = digest
    · simp [own]
    · simp [own,place name own]
  have under (name : Digest) : (c.blobUnlinked repo digest storedAs).LinkedUnder repo name ↔
      ∃ link,(link = name ∨ c.aliasOf name = some link) ∧ c.Linked repo link ∧
        ¬(link = digest ∨ (c.blobs[digest]? = none ∧ c.aliasOf digest = some link)) := by
    unfold LinkedUnder
    simp only [linked,aliased]
    grind
  constructor
  · rintro ⟨gone,-⟩ name reaches present
    by_contra kept
    rcases reaches with named | ⟨other,named,back⟩
    · exact blobStat_absent.mp (gone digest mem_names_self) ((under digest).mpr ⟨name,.inr named,present,kept⟩)
    · exact blobStat_absent.mp (gone other (mem_names.mpr (.inr named))) ((under other).mpr ⟨name,.inr back,present,kept⟩)
  · intro covered
    refine ⟨fun name among => blobStat_absent.mpr fun still => ?_,fun repo' other => blobOpen_congr blobs aliases fun name => ?_⟩
    · obtain ⟨link,reaches,present,kept⟩ := (under name).mp still
      rcases mem_names.mp among with rfl | named
      · rcases reaches with rfl | named
        · exact kept (.inl rfl)
        · exact kept (covered link (.inl named) present)
      · rcases reaches with rfl | back
        · exact kept (covered link (.inl named) present)
        · exact kept (covered link (.inr ⟨name,named,back⟩) present)
    · have row := blobUnlinked_rows c repo repo' digest storedAs name
      rw [if_neg fun same => other same.1] at row
      exact row

section Runs
open Sample

def byBlake : List Op := Sample.push app first layer .blake3

theorem byBlake_kept : ((after byBlake).deleteBlob app (name .sha256 layer)).1 = .ok () ∧
      ((after byBlake).deleteBlob app (name .sha256 layer)).2.blobStat app (name .sha256 layer) =
        .ok ⟨1,name .sha256 layer⟩ := by decide +kernel

theorem deleted_blob_answers : OciStore.Reachable crates Held (after byBlake) ∧
    ((after byBlake).deleteBlob app (name .sha256 layer)).1 = .ok () ∧
    ¬Removed (after byBlake).toContent ((after byBlake).deleteBlob app (name .sha256 layer)).2 app (name .sha256 layer) := by
  refine ⟨.run (.start rfl) (by decide),byBlake_kept.1,fun removed => ?_⟩
  have gone := removed.gone _ mem_names_self
  rw [byBlake_kept.2] at gone
  cases gone

theorem byBlake_names : (after byBlake).aliasOf (name .blake3 layer) = some (name .sha256 layer) ∧
    (after byBlake).aliasOf (name .sha256 layer) = some (name .blake3 layer) ∧
    ¬(after byBlake).Linked app (name .sha256 layer) := by decide +kernel

theorem pushed_name_covered : Covered (after byBlake).toContent app (name .blake3 layer) := by
  obtain ⟨named,back,absent⟩ := byBlake_names
  rintro link (found | ⟨other,found,again⟩) present
  · rw [named] at found
    cases found
    exact absurd present absent
  · rw [named] at found
    cases found
    rw [back] at again
    cases again
    exact .inl rfl

theorem pushed_name_removed :
    Removed (after byBlake).toContent ((after byBlake).deleteBlob app (name .blake3 layer)).2 app (name .blake3 layer) :=
  (delete_removes_iff (by decide +kernel)).mpr pushed_name_covered

end Runs

def Completes (crates : Crates) (s : OciStore) (deleteUntagged : Bool) : Prop :=
  ∃ report,(collect crates s ⟨false,deleteUntagged⟩).answer = .ok report

-- A sweep whose mark ended runs to its end exactly when no repository links an
-- unmarked manifest under a blake3 and under that blake3's alias.
theorem sweep_completes_iff {crates : Crates} {held : Bytes → Prop} {s : OciStore} {marks : MarkState}
    (distinguishes : crates.Distinguishes held) (reached : OciStore.Reachable crates held s) (deleteUntagged : Bool)
    (marked : (s.gcReady ⟨false,deleteUntagged⟩).gcMark crates deleteUntagged (s.gcReady ⟨false,deleteUntagged⟩).gcViews = .ok marks) :
    Completes crates s deleteUntagged ↔ ¬GcDryRun.Doubled crates s.toContent deleteUntagged := by
  have valid := Consistency.reached_consistent reached
  obtain ⟨hashed,-⟩ := Names.reached_hashed distinguishes reached
  have real : (s.gcReady ⟨false,deleteUntagged⟩).toContent = s.objectsBackfill :=
    gcReady_content s ⟨false,deleteUntagged⟩
  have before : s.gcMark crates deleteUntagged s.gcViews = .ok marks := by
    rw [←GcDryRun.mark_backfill,←real]
    exact marked
  have deletes := GcDryRun.deletes_iff valid hashed (gcMark_ok before).1 real
  unfold Completes
  rw [←deletes,collect_eq]
  unfold markAndSweep
  simp only [marked]
  unfold gcSweep
  simp only [real,GcDryRun.unmarked_backfill,Bool.false_eq_true,if_false]
  unfold unmarked
  split
  · rename_i failed
    simp [failed]
  · rename_i finished
    simp [finished]

section Runs
open Sample GcDryRun

theorem mark_ends : (∃ marks,((after doubled).gcReady ⟨false,true⟩).gcMark crates true ((after doubled).gcReady ⟨false,true⟩).gcViews =
      .ok marks) ∧
    ∃ marks,((after unnamed).gcReady ⟨false,true⟩).gcMark crates true ((after unnamed).gcReady ⟨false,true⟩).gcViews = .ok marks := by
  have ended {answer : Except (OciStoreError × List Str) MarkState} (ok : answer.isOk = true) : ∃ marks,answer = .ok marks := by
    cases answer with
    | error e => cases ok
    | ok marks => exact ⟨marks,rfl⟩
  exact ⟨ended (by decide),ended (by decide)⟩

-- The blake3 name goes first and takes the sha256 link with it.
theorem sweep_stops : OciStore.Reachable crates Held (after doubled) ∧
    (∃ marks,((after doubled).gcReady ⟨false,true⟩).gcMark crates true ((after doubled).gcReady ⟨false,true⟩).gcViews = .ok marks) ∧
    (collect crates (after doubled) ⟨false,true⟩).answer =
      .error (.notInRepository app.text (name .sha256 plainManifest).asStr) ∧
    ¬Completes crates (after doubled) true := by
  refine ⟨.run (.start rfl) (by decide),mark_ends.1,doubled_answers.2,?_⟩
  rintro ⟨report,answered⟩
  rw [doubled_answers.2] at answered
  cases answered

-- One name of a manifest is swept to the end.
theorem single_completes : Completes crates (after unnamed) true ∧ ¬Doubled crates (after unnamed).toContent true := by
  obtain ⟨marks,ended⟩ := mark_ends.2
  have ran : (collect crates (after unnamed) ⟨false,true⟩).answer.isOk = true := by decide
  have completes : Completes crates (after unnamed) true := by
    unfold Completes
    cases answer : (collect crates (after unnamed) ⟨false,true⟩).answer with
    | error e => rw [answer] at ran; cases ran
    | ok report => exact ⟨report,rfl⟩
  exact ⟨completes,(sweep_completes_iff distinguishes unnamed_reachable true ended).mp completes⟩

end Runs

end Removal
end HologramLive
