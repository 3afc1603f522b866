import HologramLive.Oci.Effects
namespace HologramLive
open Tables Std List ExtTreeSet

variable (c : Content)

def Content.gcView (name : RepoName) : GcRepo :=
  ⟨name,(c.linksOf name).map fun row => (row.1,row.2.kind),(c.tagList name).map (·.1),
    (c.tagList name).foldl (fun tagged row => tagged.insert row.2.kappa) ∅⟩

def Content.gcViews : List GcRepo := c.repos.toList.map c.gcView

open Content

theorem Content.backfill_same : ∃ objects,c.objectsBackfill = {c with objects := objects,objectsBackfilled := true} := by
  unfold objectsBackfill
  split
  · rename_i flag
    exact ⟨c.objects,by rw [←flag]⟩
  · exact ⟨_,rfl⟩

namespace OciStore

variable (s : OciStore)

theorem repos_drained : s.gcRepoNames = s.repos.toList := by
  unfold gcRepoNames
  have sorted : s.repos.toList.Pairwise fun a b => (compare a b == .lt) = true :=
    ordered_toList.imp fun ordered => by simp [ordered]
  exact drain_rows sorted (fun _ _ => before_asymmetric) before_irreflexive (by decide : 0 < gcPage)
    (fun after => rfl) (s.repos.toList.length + 1) 0 (by omega)

variable (repo : RepoName)

theorem links_drained : s.gcLinks repo = (s.linksOf repo).map fun row => (row.1,row.2.kind) := by
  unfold gcLinks
  have paged (after : Option (Digest × Link)) : s.linksPage repo (after.map (·.1)) gcPage =
      ((s.linksOf repo).filter fun row => after.all fun last => compare last.1 row.1 == .lt).take gcPage := by
    cases after <;> rfl
  have drained := drain_rows (rowsUnder_sorted s.links repo) (fun _ _ => before_asymmetric)
    (fun _ => before_irreflexive _) (by decide : 0 < gcPage) paged ((s.linksOf repo).length + 1) 0
    (by simp only [linksOf]; omega)
  simp only [take_zero] at drained
  rw [drained]
  rfl

theorem namespace_twice :
    (s.namespaceResolveOrCreate repo).namespaceResolveOrCreate repo = s.namespaceResolveOrCreate repo := by
  have same : (s.namespaces.insert repo).insert repo = s.namespaces.insert repo :=
    ext_mem fun name => by simp [mem_insert]
  simp only [namespaceResolveOrCreate,same]

def tagsAfter (after : Option Tag) : List Tag :=
  (((c.tagList repo).map (·.1)).filter fun tag => after.all fun last => compare last tag == .lt).take gcPage

theorem tagsPage_listed (after : Option Tag) (listed : repo ∈ s.repos) :
    s.tagsPage repo (after.map (·.text)) gcPage = (.ok (tagsAfter s.toContent repo after),s.namespaceResolveOrCreate repo) := by
  unfold tagsPage tagsAfter
  simp only [listed,not_true,if_false]
  cases after <;> rfl

theorem gcTagsFrom_eq (fuel : Nat) (all : List Tag) (s : OciStore) (listed : repo ∈ s.repos) :
    gcTagsFrom repo (fuel + 1) all s =
      (.ok (drain (tagsAfter s.toContent repo) gcPage (fuel + 1) all),s.namespaceResolveOrCreate repo) := by
  induction fuel generalizing all s with
  | zero =>
    simp only [gcTagsFrom,tagsPage_listed s repo _ listed,drain]
    split <;> rfl
  | succ fuel ih =>
    have again (page : List Tag) := ih (all ++ page) (s.namespaceResolveOrCreate repo) listed
    rw [gcTagsFrom,tagsPage_listed s repo _ listed,drain]
    simp only [again,namespace_twice]
    split <;> rfl

theorem tags_drained (listed : repo ∈ s.repos) :
    s.gcTags repo = (.ok ((s.tagList repo).map (·.1)),s.namespaceResolveOrCreate repo) := by
  unfold gcTags
  rw [gcTagsFrom_eq repo _ [] s listed]
  have sorted : ((s.tagList repo).map (·.1)).Pairwise fun a b => (compare a b == .lt) = true :=
    pairwise_map.mpr (rowsUnder_sorted s.tags repo)
  have drained := drain_rows sorted (fun _ _ => before_asymmetric) before_irreflexive (by decide : 0 < gcPage)
    (fun after => (rfl : tagsAfter s.toContent repo after = _)) ((s.tagList repo).length + 1) 0
    (by rw [length_map]; omega)
  simp only [take_zero] at drained
  rw [drained]

theorem gcTagged_eq (rows : List (Tag × TagEntry)) (tagged : KeySet Digest) (s : OciStore)
    (present : ∀ row ∈ rows,s.tags[(repo,row.1)]? = some row.2) :
    gcTagged repo (rows.map (·.1)) tagged (s.namespaceResolveOrCreate repo) =
      (.ok (rows.foldl (fun set row => set.insert row.2.kappa) tagged),s.namespaceResolveOrCreate repo) := by
  induction rows generalizing tagged with
  | nil => rfl
  | cons row rest ih =>
    have first := present row mem_cons_self
    have resolved : (s.namespaceResolveOrCreate repo).tagResolve repo row.1 = .ok row.2.kappa := by
      simp [tagResolve,namespaceResolveOrCreate,first]
    simp only [map_cons,gcTagged,namespace_twice,resolved,foldl_cons]
    exact ih (tagged.insert row.2.kappa) fun other member => present other (mem_cons_of_mem _ member)

variable (names : List RepoName)

theorem gcReposWithLinks_eq (s : OciStore) (listed : ∀ name ∈ names,name ∈ s.repos) : gcReposWithLinks names s =
      (.ok (names.map s.gcView),names.foldl (fun t name => t.namespaceResolveOrCreate name) s) := by
  induction names generalizing s with
  | nil => rfl
  | cons name rest ih =>
    have tags := s.tags_drained name (listed name mem_cons_self)
    have tagged := gcTagged_eq name (s.tagList name) ∅ s fun row member => mem_rowsUnder.mp member
    have later := ih (s.namespaceResolveOrCreate name) fun other member => listed other (mem_cons_of_mem _ member)
    have links : (s.namespaceResolveOrCreate name).gcLinks name = (s.linksOf name).map fun row => (row.1,row.2.kind) :=
      links_drained _ name
    have view : (s.namespaceResolveOrCreate name).gcView = s.gcView := rfl
    unfold gcReposWithLinks
    simp only [tags,tagged,later,map_cons,foldl_cons,view]
    have head : (⟨name,s.gcLinks name,(s.tagList name).map (·.1),
        (s.tagList name).foldl (fun set row => set.insert row.2.kappa) ∅⟩ : GcRepo) = s.gcView name := by
      rw [links_drained]; rfl
    rw [head]

theorem namespaces_content (s : OciStore) :
    (names.foldl (fun t name => t.namespaceResolveOrCreate name) s).toContent = s.toContent := by
  induction names generalizing s with
  | nil => rfl
  | cons name rest ih => exact ih (s.namespaceResolveOrCreate name)

variable (options : GcOptions)

def gcReady : OciStore :=
  let ready := if options.dryRun then s else {s with toContent := s.objectsBackfill}
  ready.repos.toList.foldl (fun t name => t.namespaceResolveOrCreate name) ready

theorem named_already (s : OciStore) (present : ∀ name ∈ names,name ∈ s.namespaces) :
    names.foldl (fun t name => t.namespaceResolveOrCreate name) s = s := by
  induction names with
  | nil => rfl
  | cons name rest ih =>
    have same : s.namespaceResolveOrCreate name = s := by
      have inserted : s.namespaces.insert name = s.namespaces := by
        refine ext_mem fun other => ?_
        have first := present name mem_cons_self
        simp only [mem_insert,Std.compare_eq_iff_eq]
        constructor
        · rintro (rfl | before)
          · exact first
          · exact before
        · exact .inr
      unfold namespaceResolveOrCreate
      rw [inserted]
    rw [foldl_cons,same]
    exact ih fun other member => present other (mem_cons_of_mem _ member)

theorem ready_named (name : RepoName) (listed : name ∈ s.repos) : name ∈ (s.gcReady options).namespaces := by
  have grown (names : List RepoName) (t : OciStore) (present : name ∈ names ∨ name ∈ t.namespaces) :
      name ∈ (names.foldl (fun u other => u.namespaceResolveOrCreate other) t).namespaces := by
    induction names generalizing t with
    | nil => simpa using present
    | cons other rest ih =>
      apply ih
      rcases present with member | before
      · rcases mem_cons.mp member with rfl | later
        · exact .inr mem_insert_self
        · exact .inl later
      · exact .inr (mem_insert.mpr (.inr before))
  unfold gcReady
  apply grown
  apply Or.inl
  apply mem_toList.mpr
  cases options.dryRun with
  | true => exact listed
  | false =>
    obtain ⟨objects,same⟩ := backfill_same s.toContent
    simp only [Bool.false_eq_true,if_false,same]
    exact listed

def gcObjects : List Digest :=
  (sortDedup (if options.dryRun then s.objectRows ++ s.objectsBackfillPlan else s.objectsBackfill.objectRows)).map (·.1)

theorem collect_eq (crates : Crates) (s : OciStore) (options : GcOptions) : collect crates s options =
      (s.gcReady options).markAndSweep crates options (s.gcReady options).gcViews (s.gcObjects options) := by
  have read (t : OciStore) : gcReposWithLinks t.gcRepoNames t =
      (.ok t.gcViews,t.repos.toList.foldl (fun u name => u.namespaceResolveOrCreate name) t) := by
    rw [repos_drained]
    exact gcReposWithLinks_eq _ _ fun name member => mem_toList.mp member
  unfold collect gcReady gcObjects
  cases options.dryRun with
  | true =>
    simp only [if_true,read,gcViews,namespaces_content]
  | false =>
    simp only [Bool.false_eq_true,if_false,read,gcViews,namespaces_content]

end OciStore
end HologramLive
