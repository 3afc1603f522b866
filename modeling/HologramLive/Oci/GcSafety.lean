import HologramLive.Oci.Swept
namespace HologramLive
open Tables Std OciStore Option

namespace Content

theorem manifestRead_ok :
    c.manifestRead repo digest = .ok manifest ↔ ∃ link storedAs bytes,c.manifestLink repo digest = some link ∧
      link.kind ≠ .blob ∧ StoredUnder c digest storedAs bytes ∧ bytes.length ≤ manifestMax ∧
      manifest = ⟨digest,link.mediaType.getD defaultMediaType,bytes⟩ := by
  have under (link : Link) (found : c.manifestLink repo digest = some link) : c.LinkedUnder repo digest := by
    unfold manifestLink at found
    unfold LinkedUnder Linked
    split at found
    · rename_i direct
      exact .inl (by simp [direct])
    · split at found
      · rename_i other named; exact .inr ⟨other,named,by simp [found]⟩
      · cases found
  unfold manifestRead
  constructor
  · intro read
    split at read
    · cases read
    · split at read
      · cases read
      · rename_i link found; split at read
        · cases read
        · rename_i manifest; split at read
          · cases read
          · rename_i storedAs resolved
            obtain ⟨bytes,stored⟩ := resolveStored_ok.mp resolved
            rw [stored.held] at read; simp only at read
            split at read
            · cases read
            · rename_i small; cases read
              exact ⟨link,storedAs,bytes,found,manifest,stored,by omega,rfl⟩
  · rintro ⟨link,storedAs,bytes,found,manifest,stored,small,rfl⟩
    rw [requireLink_ok.mpr (under link found),found]
    have resolved : c.resolveStored repo digest = .ok storedAs := resolveStored_ok.mpr ⟨bytes,stored⟩
    simp only [manifest,if_false,resolved,stored.held]
    rw [if_neg (by omega)]

end Content

namespace GcSafety
open Content

-- What a collection has to keep in a repository: the tagged manifests that read
-- back, or every manifest when untagged ones stay, what they reference, the
-- referrers of a kept manifest, and all of it under every linked name.
inductive Keeps (crates : Crates) (c : Content) (deleteUntagged : Bool) (repo : RepoName) : Digest → Prop
  | tagged (tag : Tag) (entry : TagEntry) (found : c.tags[(repo,tag)]? = some entry)
      (read : c.manifestRead repo entry.kappa = .ok manifest) : Keeps crates c deleteUntagged repo entry.kappa
  | untagged (off : deleteUntagged = false) (read : c.manifestRead repo digest = .ok manifest) :
      Keeps crates c deleteUntagged repo digest
  | reference (keeps : Keeps crates c deleteUntagged repo digest)
      (found : c.gcReferences crates repo digest = .ok references) (member : reference ∈ references) :
      Keeps crates c deleteUntagged repo reference
  | referrer (keeps : Keeps crates c deleteUntagged repo digest) (read : c.manifestRead repo digest = .ok manifest)
      (member : referrer ∈ c.gcReferrers repo digest) : Keeps crates c deleteUntagged repo referrer
  | renamed (keeps : Keeps crates c deleteUntagged repo digest) (reads : c.Reads repo digest bytes)
      (named : crates.Names name bytes) (linked : c.Linked repo name) : Keeps crates c deleteUntagged repo name

-- The link a name is read through is spared: its own, or its alias's while the
-- alias row stays.
def Answers (crates : Crates) (c : Content) (deleteUntagged : Bool) (repo : RepoName) (digest : Digest) : Prop :=
  (c.Linked repo digest → Spared crates c deleteUntagged digest) ∧
  (¬c.Linked repo digest → ¬Doomed crates c deleteUntagged digest ∧
    ∃ other,c.aliasOf digest = some other ∧ Spared crates c deleteUntagged other)

section Swept
variable {crates : Crates} {held : Bytes → Prop} {c after : Content} {deleteUntagged : Bool}

variable {repo : RepoName} {digest : Digest}

theorem linked_iff : c.Linked repo digest ↔ ∃ link : Link,c.links[(repo,digest)]? = some link := isSome_iff_exists

theorem swept_linked (swept : Swept crates c deleteUntagged after) (repo : RepoName) (digest : Digest) :
    after.Linked repo digest ↔ c.Linked repo digest ∧ Spared crates c deleteUntagged digest := by
  simp only [linked_iff,swept.links,exists_and_right]

theorem swept_alias (swept : Swept crates c deleteUntagged after) :
    after.aliasOf x = some y ↔ c.aliasOf x = some y ∧ ¬Doomed crates c deleteUntagged x ∧
      ¬(Doomed crates c deleteUntagged y ∧ c.aliasOf y = some x) := swept.aliases x y

theorem spared_alias (hashed : Names.Hashed crates held c) (named : c.aliasOf x = some y)
    (kept : ¬Doomed crates c deleteUntagged x) (spared : Spared crates c deleteUntagged y) :
    Spared crates c deleteUntagged x := by
  obtain ⟨-,name,among,marked⟩ := spared
  refine ⟨kept,?_⟩
  rcases mem_names.mp among with rfl | aliased
  · exact ⟨name,mem_names.mpr (.inr named),marked⟩
  · by_cases back : name = x
    · exact ⟨name,mem_names.mpr (.inl back),marked⟩
    · -- The third name of the bytes is no blake3, so it is marked with its own.
      obtain ⟨bytes,pair⟩ := hashed.paired y name aliased
      have blake : y.algorithm = .blake3 := by
        by_contra plain
        obtain ⟨bytes',pair'⟩ := hashed.paired x y named
        have first : x.algorithm = .blake3 := by have := pair'.mixed; tauto
        exact back (Option.some.inj (aliased.symm.trans (hashed.answered x y named first)))
      have other : name.algorithm ≠ .blake3 := pair.mixed.mp blake
      have inside := marked_blake hashed (hashed.answered y name aliased blake) other marked
      exact ⟨y,mem_names.mpr (.inr named),inside⟩

-- One name: it still answers after the sweep exactly when its link is spared.
theorem swept_reads (valid : Consistency.Consistent c) (hashed : Names.Hashed crates held c)
    (swept : Swept crates c deleteUntagged after) (reads : c.Reads repo digest bytes) :
    after.Reads repo digest bytes ↔ Answers crates c deleteUntagged repo digest := by
  obtain ⟨linked,storedAs,stored⟩ := reads_iff.mp reads
  constructor
  · intro still
    obtain ⟨under,-⟩ := reads_iff.mp still
    rcases under with own | ⟨other,named,reached⟩
    · obtain ⟨before,spared⟩ := (swept_linked swept repo digest).mp own
      exact ⟨fun _ => spared,fun absent => absurd before absent⟩
    · obtain ⟨before,kept,-⟩ := (swept_alias swept).mp named
      obtain ⟨-,spared⟩ := (swept_linked swept repo other).mp reached
      exact ⟨fun _ => spared_alias hashed before kept spared,fun _ => ⟨kept,other,before,spared⟩⟩
  · intro answers
    apply reads_iff.mpr
    by_cases own : c.Linked repo digest
    · have spared := answers.1 own
      refine ⟨.inl ((swept_linked swept repo digest).mpr ⟨own,spared⟩),digest,?_⟩
      obtain ⟨link,row⟩ := linked_iff.mp own
      obtain ⟨file,found⟩ := valid.linked_stored repo digest link row
      obtain ⟨-,rfl⟩ := stored.unique (.own found)
      exact .own ((swept.blobs digest bytes).mpr ⟨found,spared.1⟩)
    · obtain ⟨kept,other,named,spared⟩ := answers.2 own
      rcases linked with direct | ⟨reached,named',linked⟩
      · exact absurd direct own
      · obtain rfl := Option.some.inj (named.symm.trans named')
        have still : after.aliasOf digest = some other :=
          (swept_alias swept).mpr ⟨named,kept,fun gone => spared.1 gone.1⟩
        refine ⟨.inr ⟨other,still,(swept_linked swept repo other).mpr ⟨linked,spared⟩⟩,?_⟩
        cases stored with
        | own found => exact ⟨digest,.own ((swept.blobs digest bytes).mpr ⟨found,kept⟩)⟩
        | other missing named'' found =>
          obtain rfl := Option.some.inj (named.symm.trans named'')
          have absent : after.blobs[digest]? = none := by
            apply eq_none_iff_forall_ne_some.mpr
            intro row present; rw [((swept.blobs digest row).mp present).1] at missing
            cases missing
          exact ⟨other,.other absent still ((swept.blobs other bytes).mpr ⟨found,spared.1⟩)⟩

theorem swept_manifest (valid : Consistency.Consistent c) (hashed : Names.Hashed crates held c)
    (swept : Swept crates c deleteUntagged after)
    (answers : Answers crates c deleteUntagged repo digest) (read : c.manifestRead repo digest = .ok manifest) :
    after.manifestRead repo digest = .ok manifest := by
  obtain ⟨link,storedAs,bytes,found,kind,stored,small,rfl⟩ := manifestRead_ok.mp read
  have through : after.manifestLink repo digest = some link := by
    unfold manifestLink at found ⊢
    by_cases own : c.Linked repo digest
    · obtain ⟨row,present⟩ := linked_iff.mp own
      have still : after.linkGet repo digest = some row := (swept.links repo digest row).mpr ⟨present,answers.1 own⟩
      have before : c.linkGet repo digest = some row := present
      rw [before] at found
      rw [still]
      exact found
    · obtain ⟨kept,other,named,spared⟩ := answers.2 own
      have before : c.linkGet repo digest = none := not_isSome_iff_eq_none.mp own
      have absent : after.linkGet repo digest = none := by
        apply not_isSome_iff_eq_none.mp
        intro present; exact own ((swept_linked swept repo digest).mp present).1
      have still : after.aliasOf digest = some other :=
        (swept_alias swept).mpr ⟨named,kept,fun gone => spared.1 gone.1⟩
      simp only [before,named] at found
      simp only [absent,still]
      exact (swept.links repo other link).mpr ⟨found,spared⟩
  have under : c.LinkedUnder repo digest := by
    by_cases own : c.Linked repo digest
    · exact .inl own
    · have before : c.linkGet repo digest = none := not_isSome_iff_eq_none.mp own
      obtain ⟨-,other,named,-⟩ := answers.2 own
      unfold manifestLink at found
      simp only [before,named] at found
      exact .inr ⟨other,named,linked_iff.mpr ⟨link,found⟩⟩
  have still := (swept_reads valid hashed swept (reads_iff.mpr ⟨under,storedAs,stored⟩)).mpr answers
  obtain ⟨-,place,kept⟩ := reads_iff.mp still
  exact manifestRead_ok.mpr ⟨link,place,bytes,through,kind,kept,small,rfl⟩

end Swept

-- What a collection owes the content it starts from: all that is kept and reads
-- back still does, with the same bytes.
def Safe (crates : Crates) (c after : Content) (deleteUntagged : Bool) : Prop :=
  ∀ (repo : RepoName) (digest : Digest) (bytes : Bytes),Keeps crates c deleteUntagged repo digest →
    c.Reads repo digest bytes → after.Reads repo digest bytes ∧
      ∀ manifest,c.manifestRead repo digest = .ok manifest → after.manifestRead repo digest = .ok manifest

theorem collect_safe_iff {crates : Crates} {held : Bytes → Prop} {s : OciStore} {options : GcOptions} {report : GcReport}
    (distinguishes : crates.Distinguishes held) (reached : OciStore.Reachable crates held s)
    (real : options.dryRun = false) (ran : (collect crates s options).answer = .ok report) :
    Safe crates s.toContent (collect crates s options).store.toContent options.deleteUntagged ↔
      ∀ (repo : RepoName) (digest : Digest) (bytes : Bytes),
        Keeps crates s.toContent options.deleteUntagged repo digest → s.Reads repo digest bytes →
          Answers crates s.toContent options.deleteUntagged repo digest := by
  have valid := Consistency.reached_consistent reached
  obtain ⟨hashed,-⟩ := Names.reached_hashed distinguishes reached
  have swept := collect_swept valid hashed real ran
  constructor
  · intro safe repo digest bytes keeps reads
    exact (swept_reads valid hashed swept reads).mp (safe repo digest bytes keeps reads).1
  · intro condition repo digest bytes keeps reads
    have answers := condition repo digest bytes keeps reads
    exact ⟨(swept_reads valid hashed swept reads).mpr answers,
      fun manifest read => swept_manifest valid hashed swept answers read⟩

section Runs
open Sample

def twice : List Op :=
  Sample.push app first layer .sha256 ++ Sample.push app second layer .sha512 ++
    [.manifestPut app (.tag latest) defaultMediaType imageManifest image]

theorem twice_reachable : OciStore.Reachable crates Held (after twice) := .run (.start rfl) (by decide)

theorem twice_before : (after twice).manifestRead app (name .sha256 imageManifest) =
      .ok ⟨name .sha256 imageManifest,defaultMediaType,imageManifest⟩ ∧
    (after twice).tags[(app,latest)]? = some ⟨name .sha256 imageManifest,1⟩ ∧
    (after twice).gcReferences crates app (name .sha256 imageManifest) = .ok [name .sha256 layer] ∧
    (after twice).blobOpen app (name .sha256 layer) = .ok (⟨1,name .sha256 layer⟩,layer) ∧
    (after twice).blobOpen app (name .sha512 layer) = .ok (⟨1,name .sha512 layer⟩,layer) ∧
    (after twice).Linked app (name .sha512 layer) ∧ crates.Names (name .sha512 layer) layer := by decide +kernel

theorem twice_after : (collect crates (after twice) ⟨false,false⟩).answer = .ok ⟨2,1,0,1⟩ ∧
    (collect crates (after twice) ⟨false,false⟩).store.blobStat app (name .sha512 layer) =
      .error (Content.notHere app (name .sha512 layer)) := by decide +kernel

theorem twice_keeps : Keeps crates (after twice).toContent false app (name .sha512 layer) := by
  obtain ⟨read,tagged,references,opened,-,linked,named⟩ := twice_before
  have reference : Keeps crates (after twice).toContent false app (name .sha256 layer) :=
    .reference (.tagged latest _ tagged read) references List.mem_cons_self
  exact .renamed reference ⟨_,opened⟩ named linked

theorem twice_loses :
    ¬Safe crates (after twice).toContent (collect crates (after twice) ⟨false,false⟩).store.toContent false := by
  intro safe
  obtain ⟨-,-,-,-,opened,-,-⟩ := twice_before
  obtain ⟨⟨stat,still⟩,-⟩ := safe app (name .sha512 layer) layer twice_keeps ⟨_,opened⟩
  rw [Content.blobOpen,twice_after.2] at still
  cases still

theorem sweep_takes_kept_layer : OciStore.Reachable crates Held (after twice) ∧
    (collect crates (after twice) ⟨false,false⟩).answer = .ok ⟨2,1,0,1⟩ ∧
    ¬Safe crates (after twice).toContent (collect crates (after twice) ⟨false,false⟩).store.toContent false :=
  ⟨twice_reachable,twice_after.1,twice_loses⟩

theorem twice_condition_fails : ¬∀ (repo : RepoName) (digest : Digest) (bytes : Bytes),
    Keeps crates (after twice).toContent false repo digest → (after twice).Reads repo digest bytes →
      Answers crates (after twice).toContent false repo digest := fun condition =>
  twice_loses ((collect_safe_iff distinguishes twice_reachable rfl twice_after.1).mpr condition)

end Runs
end GcSafety
end HologramLive
