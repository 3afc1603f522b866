import HologramLive.Oci.GcSweep
namespace HologramLive
open Tables Std Content
namespace Consistency

-- Links and referrers agree with the files. A link's own name has a file, and a
-- referrers row stands only beside the link of its referrer.
structure Consistent (c : Content) : Prop where
  linked_stored : ∀ (repo : RepoName) (digest : Digest) (link : Link),c.links[(repo,digest)]? = some link →
    ∃ bytes : Bytes,c.blobs[digest]? = some bytes
  linked_listed : ∀ (repo : RepoName) (digest : Digest) (link : Link),c.links[(repo,digest)]? = some link →
    repo ∈ c.repos
  referrer_linked : ∀ (repo : RepoName) (subject referrer : Digest) (row : ReferrerDescriptor),
    c.referrers[(repo,subject,referrer)]? = some row → ∃ link : Link,c.links[(repo,referrer)]? = some link
  referrer_named : ∀ (repo : RepoName) (subject referrer : Digest) (row : ReferrerDescriptor),
    c.referrers[(repo,subject,referrer)]? = some row → row.digest = referrer

theorem created_consistent : Consistent OciStore.created.toContent := by
  constructor <;> intro _ _ _ <;> simp [OciStore.created]

theorem Consistent.grows (valid : Consistent c) (grown : c.Grows after) : Consistent after := by
  rw [grown.only]
  refine ⟨fun repo digest link linked => ?_,valid.linked_listed,valid.referrer_linked,valid.referrer_named⟩
  obtain ⟨bytes,held⟩ := valid.linked_stored repo digest link linked
  exact ⟨bytes,grown.kept digest bytes held⟩

theorem Consistent.frame (valid : Consistent c) (blobs : after.blobs = c.blobs)
    (links : after.links = c.links) (referrers : after.referrers = c.referrers)
    (repos : ∀ repo ∈ c.repos,repo ∈ after.repos) : Consistent after := by
  refine ⟨?_,?_,?_,?_⟩
  · rw [links,blobs]; exact valid.linked_stored
  · rw [links]; exact fun repo digest link linked => repos repo (valid.linked_listed repo digest link linked)
  · rw [links,referrers]; exact valid.referrer_linked
  · rw [referrers]; exact valid.referrer_named

theorem Consistent.link {c after : Content} {repo : RepoName} {digest : Digest} {link : Link} {bytes : Bytes}
    (valid : Consistent c) (held : c.blobs[digest]? = some bytes) (blobs : after.blobs = c.blobs)
    (links : after.links = c.links.insert (repo,digest) link) (referrers : after.referrers = c.referrers)
    (repos : after.repos = c.repos.insert repo) : Consistent after := by
  refine ⟨?_,?_,?_,?_⟩
  · rw [links,blobs]
    intro other name row linked
    rw [get_insert] at linked
    split at linked
    · rename_i same
      cases same
      exact ⟨bytes,held⟩
    · exact valid.linked_stored other name row linked
  · rw [links,repos]
    intro other name row linked
    rw [get_insert] at linked
    split at linked
    · rename_i same
      cases same
      exact ExtTreeSet.mem_insert_self
    · exact ExtTreeSet.mem_insert.mpr (.inr (valid.linked_listed other name row linked))
  · rw [links,referrers]
    intro other subject referrer row found
    obtain ⟨before,linked⟩ := valid.referrer_linked other subject referrer row found
    rw [get_insert]
    split
    · exact ⟨link,rfl⟩
    · exact ⟨before,linked⟩
  · rw [referrers]; exact valid.referrer_named

theorem Consistent.refer (valid : Consistent c) (link : Link) (linked : c.links[(repo,referrer)]? = some link)
    (named : descriptor.digest = referrer) :
    Consistent {c with referrers := c.referrers.insert (repo,subject,referrer) descriptor} := by
  refine ⟨valid.linked_stored,valid.linked_listed,?_,?_⟩
  · intro other about name row found
    rw [get_insert] at found
    split at found
    · rename_i same
      cases same
      exact ⟨link,linked⟩
    · exact valid.referrer_linked other about name row found
  · intro other about name row found
    rw [get_insert] at found
    split at found
    · rename_i same
      cases same
      cases found
      exact named
    · exact valid.referrer_named other about name row found

theorem Consistent.unlink (valid : Consistent c) (repo : RepoName) (digest : Digest) :
    Consistent (c.linkRemove repo digest).2 := by
  unfold linkRemove
  refine ⟨?_,?_,?_,?_⟩
  · intro other name link linked
    rw [get_erase] at linked
    split at linked
    · cases linked
    · exact valid.linked_stored other name link linked
  · intro other name link linked
    rw [get_erase] at linked
    split at linked
    · cases linked
    · exact valid.linked_listed other name link linked
  · intro other subject referrer row found
    rw [get_eraseWhere] at found
    split at found
    · cases found
    · rename_i kept
      obtain ⟨link,linked⟩ := valid.referrer_linked other subject referrer row found
      refine ⟨link,?_⟩
      rw [get_erase]
      split
      · rename_i same; cases same
        simp at kept
      · exact linked
  · intro other subject referrer row found
    rw [get_eraseWhere] at found
    split at found
    · cases found
    · exact valid.referrer_named other subject referrer row found

theorem Consistent.forget (valid : Consistent c) (digest : Digest) : Consistent (c.forgotten digest) := by
  refine ⟨?_,?_,?_,?_⟩
  · intro repo name link linked
    rw [forgotten_links] at linked
    split at linked
    · cases linked
    · rename_i other
      obtain ⟨bytes,held⟩ := valid.linked_stored repo name link linked
      exact ⟨bytes,by rw [forgotten_blobs,if_neg (Ne.symm other)]; exact held⟩
  · intro repo name link linked
    rw [forgotten_links] at linked
    split at linked
    · cases linked
    · exact valid.linked_listed repo name link linked
  · intro repo subject referrer row found
    rw [forgotten_referrers] at found
    split at found
    · cases found
    · rename_i unnamed
      obtain ⟨link,linked⟩ := valid.referrer_linked repo subject referrer row found
      have other : referrer ≠ digest := fun same => unnamed (.inr (.inr (.inr same)))
      exact ⟨link,by rw [forgotten_links,if_neg other]; exact linked⟩
  · intro repo subject referrer row found
    rw [forgotten_referrers] at found
    split at found
    · cases found
    · exact valid.referrer_named repo subject referrer row found

theorem Consistent.untag (valid : Consistent c) (entries : List (Tag × TagEntry)) (repo : RepoName) :
    Consistent (entries.foldl (fun kept row => kept.tagRemove repo row.1) c) := by
  induction entries generalizing c with
  | nil => exact valid
  | cons row rest ih => exact ih (valid.frame rfl rfl rfl fun _ member => member)

theorem Consistent.deleted (valid : Consistent c) (repo : RepoName) (digest : Digest) :
    Consistent (c.manifestDeleted repo digest) := by
  have untagged : Consistent (c.removeTags repo digest (c.aliasOf digest)) := valid.untag _ repo
  unfold manifestDeleted unlinkManifest
  generalize c.aliasOf digest = named at untagged ⊢
  cases named with
  | none => exact untagged.unlink repo digest
  | some other => exact (untagged.unlink repo digest).unlink repo other

theorem Consistent.stored (valid : Consistent c) (crates : Crates) (repo : RepoName) (digest : Digest)
    (mediaType : Str) (bytes : Bytes) (plan : ManifestPlan) :
    Consistent (c.manifestStored crates repo digest mediaType bytes plan) := by
  obtain ⟨held,found⟩ := store_held crates c digest bytes
  have placed : Consistent (c.store crates digest bytes) := valid.grows (store_grows crates c digest bytes)
  have linked : Consistent {c.manifestStored crates repo digest mediaType bytes plan with
      referrers := (c.store crates digest bytes).referrers} := placed.link found rfl rfl rfl rfl
  unfold manifestStored manifestCommit ManifestPlan.referrer
  cases plan.subject with
  | none => exact linked
  | some subject =>
    exact linked.refer ((⟨plan.kind,some mediaType⟩ : Link).durable)
      (by simp [manifestStored,manifestCommit]) rfl

theorem Consistent.finished (valid : Consistent c) (crates : Crates) (repo : RepoName) (claimed other : Digest)
    (staged : Bytes) (parts : List (Nat × Bytes)) : Consistent (c.finished crates repo claimed other staged parts) := by
  obtain ⟨held,found⟩ := store_held crates c claimed staged
  have grown := persistPartManifest_grows crates (c.store crates claimed staged) parts
  have placed := (valid.grows (store_grows crates c claimed staged)).grows grown
  exact placed.link (grown.kept claimed held found) rfl rfl rfl rfl

theorem step_consistent {s : OciStore} (valid : Consistent s.toContent)
    (allowed : s.Allowed op) : Consistent (s.step crates op).toContent := by
  have effect := OciStore.step_effect crates allowed
  generalize (s.step crates op).toContent = after at effect
  cases effect with
  | same => exact valid
  | listed repo fresh now => exact valid.frame rfl rfl rfl fun _ member => ExtTreeSet.mem_insert.mpr (.inr member)
  | finished id claimed staged => exact valid.finished ..
  | mounted target source asked stat found =>
    obtain ⟨-,bytes,stored,-⟩ := blobStat_ok.mp found
    exact valid.link stored.held rfl rfl rfl rfl
  | stored => exact valid.stored ..
  | tagged repo tag mediaType bytes plan => exact (valid.stored ..).frame rfl rfl rfl fun _ member => member
  | deleted repo digest => exact valid.deleted repo digest
  | untagged => exact valid.frame rfl rfl rfl fun _ member => member
  | unlinked repo digest stat =>
    unfold blobUnlinked
    split
    · exact (valid.unlink _ _).unlink _ _
    · exact valid.unlink _ _
  | collected options =>
    refine OciStore.collect_rule Consistent crates s options (fun held => ?_) (fun _ c entry _ _ held _ _ => held.deleted _ _)
      (fun c digest held => held.forget digest) (fun c repo digest held => held.unlink repo digest) valid
    unfold objectsBackfill
    split
    · exact held
    · exact held.frame rfl rfl rfl fun _ member => member
  | older => exact valid.frame rfl rfl rfl fun _ member => member

theorem reached_consistent (reached : OciStore.Reachable crates held s) : Consistent s.toContent := by
  refine Runs.Reached.invariant (fun s => Consistent s.toContent) ?_ ?_ reached
  · intro s begun
    cases begun
    exact created_consistent
  · intro s t _ valid moved
    obtain ⟨op,allowed,-,rfl⟩ := moved
    exact step_consistent valid allowed

-- Whatever was called before, a referrer is linked where it refers, and a link
-- leads to bytes.
theorem links_resolve {crates : Crates} {held : Bytes → Prop} {s : OciStore}
    (reached : OciStore.Reachable crates held s) :
    (∀ (repo : RepoName) (subject referrer : Digest) (row : ReferrerDescriptor),
      s.referrers[(repo,subject,referrer)]? = some row → s.Linked repo referrer) ∧
    ∀ (repo : RepoName) (digest : Digest) (link : Link),s.links[(repo,digest)]? = some link →
      ∃ (storedAs : Digest) (bytes : Bytes),s.resolveStored repo digest = .ok storedAs ∧ s.blobs[storedAs]? = some bytes := by
  have valid := reached_consistent reached
  constructor
  · intro repo subject referrer row found
    obtain ⟨link,linked⟩ := valid.referrer_linked repo subject referrer row found
    exact Option.isSome_iff_exists.mpr ⟨link,linked⟩
  · intro repo digest link linked
    obtain ⟨bytes,stored⟩ := valid.linked_stored repo digest link linked
    exact ⟨digest,bytes,resolveStored_ok.mpr ⟨bytes,.own stored⟩,stored⟩

open Sample in
theorem signature_linked : (after [.manifestPut app (.digest (name .sha256 signature)) defaultMediaType signature signs]).Linked
    app (name .sha256 signature) := by
  have reached : OciStore.Reachable crates Held
      (after [.manifestPut app (.digest (name .sha256 signature)) defaultMediaType signature signs]) :=
    .run (.start rfl) (by decide)
  exact (links_resolve reached).1 app (name .blake3 plainManifest) (name .sha256 signature)
    ⟨name .sha256 signature,defaultMediaType,signature.length,none,none⟩ (by rfl)

end Consistency
end HologramLive
