import HologramLive.Oci.GcRead
namespace HologramLive
open Tables Std List
namespace Content

variable (c : Content)

def forgotten (digest : Digest) : Content := ((c.blobDelete digest).objectForget digest).2

def Names (digest part : Digest) : Prop := part = digest ∨ c.aliasOf digest = some part

variable (digest name : Digest)

theorem forgotten_blobs :
    (c.forgotten digest).blobs[name]? = if digest = name then none else c.blobs[name]? := get_erase ..

theorem forgotten_objects :
    (c.forgotten digest).objects[name]? = if digest = name then none else c.objects[name]? := get_erase ..

theorem forgotten_links (repo : RepoName) :
    (c.forgotten digest).links[(repo,name)]? = if name = digest then none else c.links[(repo,name)]? := by
  have found := get_eraseWhere c.links (fun key => decide (key.2 = digest)) (repo,name)
  simp only [decide_eq_true_eq] at found
  exact found

theorem forgotten_referrers (digest subject referrer : Digest) (repo : RepoName) :
    (c.forgotten digest).referrers[(repo,subject,referrer)]? =
      if c.aliasOf digest = some subject ∨ c.aliasOf digest = some referrer ∨ subject = digest ∨ referrer = digest then
        none else c.referrers[(repo,subject,referrer)]? := by
  have shape : (c.forgotten digest).referrers = eraseWhere c.referrers fun key => [key.2.1,key.2.2].any fun part =>
    part = digest || decide (c.aliasOf digest = some part) := rfl
  rw [shape,get_eraseWhere]
  simp only [any_cons,any_nil,Bool.or_false,Bool.or_eq_true,decide_eq_true_eq]
  refine if_congr ?_ rfl rfl
  constructor
  · rintro ((here | other) | (here | other)) <;> simp [*]
  · rintro (other | other | here | here) <;> simp [*]

theorem forgotten_aliases : (c.forgotten digest).aliases[name]? =
      if name = digest ∨ (c.aliasOf digest = some name ∧ c.aliasOf name = some digest) then none
      else c.aliases[name]? := by
  unfold forgotten objectForget blobDelete aliasOf
  simp only
  cases other : c.aliases[digest]? with
  | none => simp [get_erase,eq_comm]
  | some back =>
    by_cases points : (c.aliases.erase digest)[back]? = some digest
    · simp only [points,if_true]
      rw [get_erase] at points ⊢
      rw [get_erase]
      grind
    · simp only [points,if_false]
      rw [get_erase] at points ⊢
      grind

end Content

namespace OciStore

theorem deleteManifests_rule (inv : Content → Prop) (entries : List (RepoName × Digest)) (s : OciStore)
    (remove : ∀ c entry link,entry ∈ entries → inv c → c.manifestLink entry.1 entry.2 = some link → link.kind ≠ .blob →
      inv (c.manifestDeleted entry.1 entry.2))
    (start : inv s.toContent) : inv (deleteManifests entries s).2.toContent := by
  induction entries generalizing s with
  | nil => exact start
  | cons entry rest ih =>
    obtain ⟨repo,digest⟩ := entry
    have later (t : OciStore) := ih t fun c other link member => remove c other link (mem_cons_of_mem _ member)
    unfold deleteManifests
    rcases s.manifestDelete_cases repo digest with ⟨⟨e,refused⟩,same⟩ | ⟨link,found,manifest,answered⟩
    · cases result : s.manifestDelete repo digest with
      | mk answer after =>
        rw [result] at refused same; cases refused
        cases same; exact start
    · rw [answered]
      exact later _ (remove s.toContent (repo,digest) link mem_cons_self start found manifest)

theorem sweepObjects_rule (inv : Content → Prop) (doomed : List Digest) (c : Content)
    (forget : ∀ c digest,digest ∈ doomed → inv c → inv (c.forgotten digest))
    (start : inv c) : inv (Content.sweepObjects doomed c).2 := by
  induction doomed generalizing c with
  | nil => exact start
  | cons digest rest ih =>
    exact ih _ (fun c other member => forget c other (mem_cons_of_mem _ member))
      (forget c digest mem_cons_self start)

theorem sweepLinks_rule (inv : Content → Prop) (stale : List (RepoName × Digest)) (c : Content)
    (unlink : ∀ c entry,entry ∈ stale → inv c → inv (c.linkRemove entry.1 entry.2).2)
    (start : inv c) : inv (Content.sweepLinks stale c).2 := by
  induction stale generalizing c with
  | nil => exact start
  | cons entry rest ih =>
    exact ih _ (fun c other member => unlink c other (mem_cons_of_mem _ member))
      (unlink c entry mem_cons_self start)

-- What is kept by each removal a sweep makes is kept by the sweep, also by one
-- that stops at a manifest it cannot delete.
theorem gcSweep_rule (inv : Content → Prop) (s : OciStore) (dryRun : Bool) (repos : List GcRepo) (objects : List Digest) (marks : MarkState)
    (remove : ∀ c entry link,entry ∈ s.unmarkedLinks marks.marked repos false → inv c →
      c.manifestLink entry.1.name entry.2 = some link → link.kind ≠ .blob → inv (c.manifestDeleted entry.1.name entry.2))
    (forget : ∀ c digest,digest ∈ objects → digest ∉ marks.marked → inv c → inv (c.forgotten digest))
    (unlink : ∀ c entry,entry ∈ s.unmarkedLinks marks.marked repos true → inv c →
      inv (c.linkRemove entry.1.name entry.2).2)
    (start : inv s.toContent) : inv (s.gcSweep dryRun repos objects marks).store.toContent := by
  unfold gcSweep
  cases dryRun with
  | true => exact start
  | false =>
    simp only [Bool.false_eq_true,if_false]
    have deleted := deleteManifests_rule inv ((s.unmarkedLinks marks.marked repos false).map fun entry =>
      (entry.1.name,entry.2)) s (fun c entry link member held found manifest => by
        obtain ⟨source,among,shape⟩ := mem_map.mp member
        cases shape; exact remove c source link among held found manifest) start
    split
    · rename_i e s' stopped
      rw [stopped] at deleted
      exact deleted
    · rename_i done s' finished
      rw [finished] at deleted
      refine sweepLinks_rule inv _ _ (fun c entry member held => ?_) (sweepObjects_rule inv _ _ (fun c digest member held => ?_)
        deleted)
      · obtain ⟨source,among,shape⟩ := mem_map.mp member
        cases shape; exact unlink c source among held
      · obtain ⟨recorded,unmarked⟩ := mem_filter.mp member
        exact forget c digest recorded (by simpa [←ExtTreeSet.contains_iff_mem] using unmarked) held

theorem gcReady_content (s : OciStore) (options : GcOptions) :
    (s.gcReady options).toContent = if options.dryRun then s.toContent else s.objectsBackfill := by
  unfold gcReady
  rw [namespaces_content]
  cases options.dryRun <;> rfl

theorem collect_rule (inv : Content → Prop) (crates : Crates) (s : OciStore) (options : GcOptions)
    (backfill : inv s.toContent → inv s.objectsBackfill)
    (remove : ∀ marks c entry link,entry ∈ (s.gcReady options).unmarkedLinks marks (s.gcReady options).gcViews false →
      inv c → c.manifestLink entry.1.name entry.2 = some link → link.kind ≠ .blob →
      inv (c.manifestDeleted entry.1.name entry.2)) (forget : ∀ c digest,inv c → inv (c.forgotten digest))
    (unlink : ∀ c repo digest,inv c → inv (c.linkRemove repo digest).2)
    (start : inv s.toContent) : inv (collect crates s options).store.toContent := by
  have ready : inv (s.gcReady options).toContent := by
    rw [gcReady_content]
    cases options.dryRun with
    | true => exact start
    | false => exact backfill start
  rw [collect_eq]
  unfold markAndSweep
  split
  · exact ready
  · exact gcSweep_rule inv _ _ _ _ _ (fun c entry link => remove _ c entry link) (fun c digest _ _ => forget c digest)
      (fun c entry _ => unlink c _ _) ready

end OciStore
end HologramLive
