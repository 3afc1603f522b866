import HologramLive.Oci.GcSweep
import HologramLive.Oci.GcMark
namespace HologramLive
open Tables Std Content OciStore
namespace TagInvariant

-- The repository can serve this digest as a manifest.
structure Serves (c : Content) (repo : RepoName) (digest : Digest) : Prop where
  listed : repo ∈ c.repos
  manifest : c.Candidate repo digest
  stored : ∃ bytes : Bytes,c.blobs[digest]? = some bytes ∧ bytes.length ≤ manifestMax

def Tagged (c : Content) : Prop :=
  ∀ (repo : RepoName) (tag : Tag) (entry : TagEntry),c.tags[(repo,tag)]? = some entry → Serves c repo entry.kappa

variable {repo : RepoName} {s : OciStore}

theorem serves_get (found : s.tags[(repo,tag)]? = some entry) (serves : Serves s.toContent repo entry.kappa) :
    ∃ (bytes : Bytes) (mediaType : Str),s.blobs[entry.kappa]? = some bytes ∧
      (s.manifestGet repo (.tag tag)).1 = .ok ⟨entry.kappa,mediaType,bytes⟩ := by
  obtain ⟨link,linked,manifest⟩ := serves.manifest
  obtain ⟨bytes,held,small⟩ := serves.stored
  have direct : s.linkGet repo entry.kappa = some link := linked
  have checked : s.requireLink repo entry.kappa = .ok () :=
    requireLink_ok.mpr (.inl (by simp [Content.Linked,direct]))
  have resolved : s.resolveStored repo entry.kappa = .ok entry.kappa :=
    resolveStored_ok.mpr ⟨bytes,.own held⟩
  refine ⟨bytes,link.mediaType.getD defaultMediaType,held,?_⟩
  have read : s.manifestRead repo entry.kappa = .ok ⟨entry.kappa,link.mediaType.getD defaultMediaType,bytes⟩ := by
    unfold manifestRead manifestLink
    simp only [checked,direct,manifest,if_false,resolved,held]
    exact if_neg (by omega)
  unfold manifestGet
  have resolvedTag : (s.namespaceResolveOrCreate repo).tagResolve repo tag = .ok entry.kappa := by
    simp [tagResolve,namespaceResolveOrCreate,found]
  simp only [serves.listed,not_true,if_false,resolvedTag]
  exact read

-- The steps that keep the invariant: no step links as a blob, or unlinks, a
-- digest that a tag of the same repository names, and a manifest put by tag is
-- within the size the store reads back.
def KeepsTags (crates : Crates) (s : OciStore) : Op → Prop
  | .finish id claimed => ∀ staged : OciStore.Staged s id,crates.digestOf claimed.algorithm staged.bytes = claimed →
      ¬s.TagNames staged.state.repo claimed
  | .mount target source asked => ∀ stat,s.blobStat source asked = .ok stat → ¬s.TagNames target stat.storedAs
  | .deleteBlob repo digest => ∀ stat,s.blobStat repo digest = .ok stat →
      ¬s.TagNames repo stat.storedAs ∧ ¬s.TagNames repo digest
  | .manifestPut _ (.tag _) _ bytes _ => bytes.length ≤ manifestMax ∧
      ∀ existing : Bytes,s.blobs[crates.sha256Of bytes]? = some existing → existing.length ≤ manifestMax
  | _ => True

theorem Tagged.grows (tagged : Tagged c) (grown : c.Grows after) : Tagged after := by
  rw [grown.only]
  intro repo tag entry found
  have serves := tagged repo tag entry found
  obtain ⟨bytes,held,small⟩ := serves.stored
  exact ⟨serves.listed,serves.manifest,bytes,grown.kept _ _ held,small⟩

theorem Tagged.frame (tagged : Tagged c) (tags : after.tags = c.tags) (blobs : after.blobs = c.blobs)
    (repos : ∀ repo ∈ c.repos,repo ∈ after.repos)
    (links : ∀ repo digest,c.TagNames repo digest → c.Candidate repo digest → after.Candidate repo digest) :
    Tagged after := by
  intro repo tag entry found
  rw [tags] at found
  have serves := tagged repo tag entry found
  refine ⟨repos repo serves.listed,links repo entry.kappa ⟨tag,entry,found,rfl⟩ serves.manifest,?_⟩
  rw [blobs]
  exact serves.stored

theorem candidate_insert {c : Content}
    (manifest : c.Candidate repo' name) (keeps : (repo,digest) = (repo',name) → link.kind ≠ .blob) :
    ∃ row : Link,(c.links.insert (repo,digest) link)[(repo',name)]? = some row ∧ row.kind ≠ .blob := by
  rw [get_insert]
  split
  · rename_i same
    exact ⟨link,rfl,keeps same⟩
  · exact manifest

variable {digest : Digest}

theorem Tagged.unlink (tagged : Tagged c) (untagged : ¬c.TagNames repo digest) :
    Tagged (c.linkRemove repo digest).2 := by
  refine tagged.frame rfl rfl (fun _ member => member) fun other name names manifest => ?_
  obtain ⟨link,linked,kind⟩ := manifest
  refine ⟨link,?_,kind⟩
  rw [linkRemove_links]
  split
  · rename_i same
    obtain ⟨rfl,rfl⟩ := same
    exact absurd names untagged
  · exact linked

theorem Tagged.deleted (tagged : Tagged c) (repo : RepoName) (digest : Digest) :
    Tagged (c.manifestDeleted repo digest) := by
  obtain ⟨blobs,-,-,repos,-⟩ := c.deleted_rest repo digest
  intro other tag entry found
  obtain ⟨before,kept⟩ := (c.deleted_tags repo other digest tag entry).mp found
  have serves := tagged other tag entry before
  obtain ⟨link,linked,kind⟩ := serves.manifest
  refine ⟨repos ▸ serves.listed,⟨link,?_,kind⟩,blobs ▸ serves.stored⟩
  rw [deleted_links,if_neg kept]
  exact linked

theorem Tagged.forget (tagged : Tagged c) (untagged : ∀ repo,¬c.TagNames repo digest) :
    Tagged (c.forgotten digest) := by
  intro repo tag entry found
  have before : c.tags[(repo,tag)]? = some entry := found
  have serves := tagged repo tag entry before
  obtain ⟨link,linked,kind⟩ := serves.manifest
  obtain ⟨bytes,held,small⟩ := serves.stored
  have other : entry.kappa ≠ digest := fun same => untagged repo ⟨tag,entry,before,same⟩
  refine ⟨serves.listed,⟨link,?_,kind⟩,bytes,?_,small⟩
  · rw [forgotten_links,if_neg other]
    exact linked
  · rw [forgotten_blobs,if_neg (Ne.symm other)]
    exact held

theorem Tagged.stored (tagged : Tagged c) (crates : Crates) (repo : RepoName) (digest : Digest) (mediaType : Str)
    (bytes : Bytes) (plan : ManifestPlan) : Tagged (c.manifestStored crates repo digest mediaType bytes plan) := by
  have grown := tagged.grows (store_grows crates c digest bytes)
  refine grown.frame rfl rfl (fun _ member => ExtTreeSet.mem_insert.mpr (.inr member)) fun other name _ manifest => ?_
  exact candidate_insert manifest fun _ => plan.not_blob

theorem stored_bytes (crates : Crates) (c : Content) (digest : Digest) (bytes : Bytes) :
    (c.store crates digest bytes).blobs[digest]? = some ((c.blobs[digest]?).getD bytes) := by
  have grown := linkAdditional_grows digest (crates.additional digest bytes) (c.blobPut digest bytes).2
  refine grown.kept digest _ ?_
  unfold blobPut
  cases held : c.blobs[digest]? with
  | none => simp
  | some existing => simp [held]

theorem Tagged.put (tagged : Tagged c) (small : bytes.length ≤ manifestMax)
    (existing : ∀ held : Bytes,c.blobs[digest]? = some held → held.length ≤ manifestMax) :
    Tagged ((c.manifestStored crates repo digest mediaType bytes plan).tagSet repo tag digest) := by
  have stored := tagged.stored crates repo digest mediaType bytes plan
  have moved : Serves (c.manifestStored crates repo digest mediaType bytes plan) repo digest := by
    refine ⟨ExtTreeSet.mem_insert_self,⟨(⟨plan.kind,some mediaType⟩ : Link).durable,?_,plan.not_blob⟩,_,
      stored_bytes crates c digest bytes,?_⟩
    · simp [manifestStored,manifestCommit]
    · cases held : c.blobs[digest]? with
      | none => exact small
      | some before => exact existing before held
  intro other name entry found
  unfold tagSet at found
  rw [get_insert] at found
  split at found
  · rename_i same
    cases same
    cases found
    exact ⟨moved.listed,moved.manifest,moved.stored⟩
  · have serves := stored other name entry found
    exact ⟨serves.listed,serves.manifest,serves.stored⟩

-- A collection never takes what a tag names: the tagged digest is a root.
theorem Tagged.collected (tagged : Tagged s.toContent) (crates : Crates) (options : GcOptions) :
    Tagged (collect crates s options).store.toContent := by
  have ready : Tagged (s.gcReady options).toContent := by
    rw [gcReady_content]
    split
    · exact tagged
    · unfold objectsBackfill
      split
      · exact tagged
      · exact tagged.frame rfl rfl (fun _ member => member) fun _ _ _ manifest => manifest
  rw [collect_eq]
  unfold markAndSweep
  split
  · exact ready
  · rename_i marks ran
    generalize s.gcReady options = begun at ready ran
    have rooted (repo : RepoName) (digest : Digest) (names : begun.TagNames repo digest) : digest ∈ marks.marked := by
      obtain ⟨tag,entry,found,rfl⟩ := names
      have serves := ready repo tag entry found
      have self : entry.kappa ∈ begun.names entry.kappa := List.mem_cons_self
      exact walked_marked ran
        (.root serves.listed serves.manifest (.inr ⟨_,self,tag,entry,found,rfl⟩)) self
    let inv (c : Content) : Prop := Tagged c ∧ ∀ repo digest,c.TagNames repo digest → begun.TagNames repo digest
    refine (gcSweep_rule inv begun _ _ _ marks ?_ ?_ ?_ ⟨ready,fun _ _ names => names⟩).1
    · intro c entry link _ held _ _
      refine ⟨held.1.deleted _ _,fun repo digest names => ?_⟩
      obtain ⟨tag,row,found,named⟩ := names
      exact held.2 repo digest ⟨tag,row,((c.deleted_tags _ _ _ _ _).mp found).1,named⟩
    · intro c digest _ unmarked held
      exact ⟨held.1.forget fun repo names => unmarked (rooted repo digest (held.2 repo digest names)),held.2⟩
    · intro c entry member held
      refine ⟨held.1.unlink fun names => ?_,held.2⟩
      obtain ⟨repo,_,view,link,linked,_,blob⟩ := mem_unmarkedLinks.mp member
      rw [view] at names
      obtain ⟨tag,row,found,named⟩ := held.2 _ _ names
      obtain ⟨other,served,manifest⟩ := (ready repo tag row found).manifest
      rw [named] at served
      cases Option.some.inj (linked.symm.trans served)
      exact manifest (blob.mpr rfl)

theorem step_tagged (tagged : Tagged s.toContent) (allowed : s.Allowed op)
    (keeps : KeepsTags crates s op) : Tagged (s.step crates op).toContent := by
  have effect := step_effect crates allowed
  generalize (s.step crates op).toContent = after at effect
  cases effect with
  | same => exact tagged
  | listed => exact tagged.frame rfl rfl (fun _ member => ExtTreeSet.mem_insert.mpr (.inr member)) fun _ _ _ held => held
  | finished id claimed staged hashed =>
    have grown := (store_grows crates s.toContent claimed staged.bytes).trans
      (persistPartManifest_grows crates _ staged.session.parts)
    have untagged := keeps staged hashed
    have names : ∀ repo digest,(persistPartManifest crates (s.store crates claimed staged.bytes)
        staged.session.parts).TagNames repo digest → s.TagNames repo digest := by
      rw [grown.only]
      exact fun _ _ names => names
    refine (tagged.grows grown).frame rfl rfl (fun _ member => ExtTreeSet.mem_insert.mpr (.inr member))
      fun repo digest named manifest => candidate_insert manifest fun same => ?_
    obtain ⟨rfl,rfl⟩ := Prod.mk.inj same
    exact absurd (names _ _ named) untagged
  | mounted target source asked stat found =>
    refine tagged.frame rfl rfl (fun _ member => ExtTreeSet.mem_insert.mpr (.inr member))
      fun repo digest named manifest => candidate_insert manifest fun same => ?_
    obtain ⟨rfl,rfl⟩ := Prod.mk.inj same
    exact absurd named (keeps stat found)
  | stored repo digest mediaType bytes plan => exact tagged.stored crates repo digest mediaType bytes plan
  | tagged repo tag mediaType bytes plan => exact tagged.put keeps.1 keeps.2
  | deleted repo digest => exact tagged.deleted repo digest
  | untagged repo tag =>
    intro other name entry found
    unfold tagRemove at found
    rw [get_erase] at found
    split at found
    · cases found
    · have serves := tagged other name entry found
      exact ⟨serves.listed,serves.manifest,serves.stored⟩
  | unlinked repo digest stat found =>
    obtain ⟨stored,asked⟩ := keeps stat found
    unfold blobUnlinked
    split
    · exact (tagged.unlink stored).unlink asked
    · exact tagged.unlink stored
  | collected options => exact tagged.collected crates options
  | older => exact tagged.frame rfl rfl (fun _ member => member) fun _ _ _ held => held

def KeepingNext (crates : Crates) (s t : OciStore) : Prop :=
  ∃ op,s.Allowed op ∧ KeepsTags crates s op ∧ t = s.step crates op

-- In a run of such steps every tag reads back the manifest it names.
theorem reached_tags {crates : Crates} {s : OciStore}
    (reached : Runs.Reached (· = created) (KeepingNext crates) s) (repo : RepoName) (tag : Tag)
    (entry : TagEntry) (found : s.tags[(repo,tag)]? = some entry) :
    s.Candidate repo entry.kappa ∧ ∃ (bytes : Bytes) (mediaType : Str),s.blobs[entry.kappa]? = some bytes ∧
      (s.manifestGet repo (.tag tag)).1 = .ok ⟨entry.kappa,mediaType,bytes⟩ := by
  have tagged : Tagged s.toContent := by
    refine Runs.Reached.invariant (fun s => Tagged s.toContent) ?_ ?_ reached
    · intro s begun
      cases begun
      intro repo tag entry none
      simp [created] at none
    · intro s t _ held moved
      obtain ⟨op,allowed,keeps,rfl⟩ := moved
      exact step_tagged held allowed keeps
  have serves := tagged repo tag entry found
  exact ⟨serves.manifest,serves_get found serves⟩

section Runs
open Sample

theorem tag_reads_after_put : ∃ bytes mediaType,
    ((after [.manifestPut app (.tag latest) defaultMediaType plainManifest plain]).manifestGet app (.tag latest)).1 =
      .ok ⟨name .sha256 plainManifest,mediaType,bytes⟩ := by
  have moved : KeepingNext crates .created (after [.manifestPut app (.tag latest) defaultMediaType plainManifest plain]) :=
    ⟨.manifestPut app (.tag latest) defaultMediaType plainManifest plain,trivial,
      ⟨by decide,fun existing held => by simp [created] at held⟩,rfl⟩
  obtain ⟨-,bytes,mediaType,-,read⟩ := reached_tags (.step (.start rfl) moved) app latest
    ⟨name .sha256 plainManifest,1⟩ (by decide)
  exact ⟨bytes,mediaType,read⟩

-- The step left out: a manifest put by tag, then its bytes pushed as a blob into
-- the same repository. The blob's link takes the place of the manifest's.
def hidden : List Op :=
  .manifestPut app (.tag latest) defaultMediaType plainManifest plain :: Sample.push app first plainManifest .sha256

theorem blob_push_hides_tag : OciStore.Reachable crates Held (after hidden) ∧
    (after hidden).tags[(app,latest)]? = some ⟨name .sha256 plainManifest,1⟩ ∧
    (after hidden).links[(app,name .sha256 plainManifest)]? = some ⟨.blob,none⟩ ∧
    ((after hidden).manifestGet app (.tag latest)).1 = .error (notHere app (name .sha256 plainManifest)) := by
  have shown : OciStore.Legal crates Held .created hidden ∧
      (after hidden).tags[(app,latest)]? = some ⟨name .sha256 plainManifest,1⟩ ∧
      (after hidden).links[(app,name .sha256 plainManifest)]? = some ⟨.blob,none⟩ ∧
      ((after hidden).manifestGet app (.tag latest)).1 = .error (notHere app (name .sha256 plainManifest)) := by
    decide +kernel
  exact ⟨.run (.start rfl) shown.1,shown.2⟩

end Runs
end TagInvariant
end HologramLive
