import HologramLive.Oci.GcIdempotence
namespace HologramLive
open Tables Std OciStore List
namespace GcDryRun
open Content

variable (c : Content)

-- What the backfill plans and what it writes are the same objects. The kind of a
-- planned object may differ from the one written.
theorem plan_objects (x : Digest) :
    (∃ manifest,(x,manifest) ∈ c.objectRows ++ c.objectsBackfillPlan) ↔ c.Recorded x := by
  unfold Recorded objectRows objectsBackfillPlan objectsBackfill
  by_cases flag : c.objectsBackfilled = true
  · simp only [flag,if_true,append_nil,mem_rows]
  · have planned (step : Table Digest Bool → (RepoName × Digest) × Link → Table Digest Bool)
        (keeps : ∀ out row manifest,c.objects[row.1.2]? = some manifest → step out row = out)
        (adds : ∀ out row,c.objects[row.1.2]? = none → ∃ manifest,step out row = out.insert row.1.2 manifest)
        (rows : List ((RepoName × Digest) × Link)) (out : Table Digest Bool) :
        (∃ manifest,(rows.foldl step out)[x]? = some manifest) ↔
        (∃ manifest,out[x]? = some manifest) ∨ c.objects[x]? = none ∧ ∃ row ∈ rows,row.1.2 = x := by
      induction rows generalizing out with
      | nil => simp
      | cons row rest ih =>
        rw [foldl_cons,ih]
        cases known : c.objects[row.1.2]? with
        | some manifest => rw [keeps out row manifest known]; simp only [mem_cons,exists_eq_or_imp]; grind
        | none =>
          obtain ⟨manifest,added⟩ := adds out row known
          simp only [added,get_insert,mem_cons,exists_eq_or_imp]
          by_cases same : row.1.2 = x
          · rw [if_pos same]; exact ⟨fun _ => .inr ⟨same ▸ known,.inl same⟩,fun _ => .inl ⟨_,rfl⟩⟩
          · rw [if_neg same]; simp only [same,false_or]
    have written (step : Table Digest Bool → (RepoName × Digest) × Link → Table Digest Bool)
        (keeps : ∀ objects row manifest,objects[row.1.2]? = some manifest → step objects row = objects)
        (adds : ∀ objects row,objects[row.1.2]? = none → ∃ manifest,step objects row = objects.insert row.1.2 manifest)
        (rows : List ((RepoName × Digest) × Link)) (objects : Table Digest Bool) :
        (∃ manifest,(rows.foldl step objects)[x]? = some manifest) ↔
        (∃ manifest,objects[x]? = some manifest) ∨ ∃ row ∈ rows,row.1.2 = x := by
      induction rows generalizing objects with
      | nil => simp
      | cons row rest ih =>
        rw [foldl_cons,ih]
        cases known : objects[row.1.2]? with
        | some manifest => rw [keeps objects row manifest known]; simp only [mem_cons,exists_eq_or_imp]; grind
        | none =>
          obtain ⟨manifest,added⟩ := adds objects row known
          simp only [added,get_insert,mem_cons,exists_eq_or_imp]
          by_cases same : row.1.2 = x
          · rw [if_pos same]; exact ⟨fun _ => .inr (.inl same),fun _ => .inl ⟨_,rfl⟩⟩
          · rw [if_neg same]; simp only [same,false_or]
    simp only [flag,Bool.false_eq_true,if_false,mem_append,exists_or,mem_rows]
    refine (or_congr_right (planned _ (fun out row manifest known => by simp only [known])
      (fun out row known => by simp only [known]; exact ⟨_,rfl⟩) c.links.toList ∅)).trans
      (Iff.trans ?_ (written _ (fun objects row manifest known => by simp only [known])
        (fun objects row known => by simp only [known]; exact ⟨_,rfl⟩) c.links.toList c.objects).symm)
    simp only [ExtTreeMap.getElem?_empty,reduceCtorEq,exists_false,false_or]
    cases known : c.objects[x]? with
    | some manifest => simp
    | none => simp

theorem plan_absent {c : Content} (planned : (x,manifest) ∈ c.objectsBackfillPlan) : c.objects[x]? = none := by
  unfold objectsBackfillPlan at planned
  split at planned
  · cases planned
  · have kept (step : Table Digest Bool → (RepoName × Digest) × Link → Table Digest Bool)
        (keeps : ∀ out row manifest,c.objects[row.1.2]? = some manifest → step out row = out)
        (adds : ∀ out row,c.objects[row.1.2]? = none → ∃ manifest,step out row = out.insert row.1.2 manifest)
        (rows : List ((RepoName × Digest) × Link)) (out : Table Digest Bool)
        (before : ∀ other : Digest,c.objects[other]? ≠ none → out[other]? = none) :
        ∀ other : Digest,c.objects[other]? ≠ none → (rows.foldl step out)[other]? = none := by
      induction rows generalizing out with
      | nil => exact before
      | cons row rest ih =>
        rw [foldl_cons]
        apply ih
        intro other recorded
        cases known : c.objects[row.1.2]? with
        | some manifest => rw [keeps out row manifest known]; exact before other recorded
        | none =>
          obtain ⟨manifest,added⟩ := adds out row known
          simp only [added,get_insert]; split
          · rename_i same; exact absurd (same ▸ known) recorded
          · exact before other recorded
    by_contra recorded
    have found := mem_rows.mp planned
    exact absurd ((kept _ (fun out row manifest known => by simp only [known])
      (fun out row known => by simp only [known]; exact ⟨_,rfl⟩) c.links.toList ∅ (fun _ _ => by simp) x
      recorded).symm.trans found) (by simp)

theorem plan_single (a b : Digest × Bool) (here : a ∈ c.objectRows ++ c.objectsBackfillPlan)
    (there : b ∈ c.objectRows ++ c.objectsBackfillPlan) (same : a.1 = b.1) : a = b := by
  obtain ⟨x,left⟩ := a
  obtain ⟨y,right⟩ := b
  obtain rfl : x = y := same
  rcases mem_append.mp here with first | first <;> rcases mem_append.mp there with second | second
  · rw [Option.some.inj ((mem_rows.mp first).symm.trans (mem_rows.mp second))]
  · exact absurd ((plan_absent second).symm.trans (mem_rows.mp first)) (by simp)
  · exact absurd ((plan_absent first).symm.trans (mem_rows.mp second)) (by simp)
  · unfold objectsBackfillPlan at first second
    split at first
    · cases first
    · rename_i flag
      rw [if_neg flag] at second
      rw [Option.some.inj ((mem_rows.mp first).symm.trans (mem_rows.mp second))]

theorem digests_sorted (rows : List (Digest × Bool)) (single : ∀ a ∈ rows,∀ b ∈ rows,a.1 = b.1 → a = b) :
    ((sortDedup rows).map (·.1)).Pairwise fun a b => compare a b = .lt := by
  refine firsts_sorted ExtTreeSet.ordered_toList fun a here b there => ?_
  exact single a (mem_sortDedup.mp here) b (mem_sortDedup.mp there)

theorem same_objects (s : OciStore) (deleteUntagged : Bool) :
    s.gcObjects ⟨true,deleteUntagged⟩ = s.gcObjects ⟨false,deleteUntagged⟩ := by
  unfold gcObjects
  simp only [if_true,Bool.false_eq_true,if_false]
  refine sorted_ext (digests_sorted _ fun a here b there => plan_single s.toContent a b here there) (digests_sorted _ fun a here b there same => ?_) fun x => ?_
  · obtain ⟨x,left⟩ := a
    obtain ⟨y,right⟩ := b
    obtain rfl : x = y := same
    rw [Option.some.inj ((mem_rows.mp here).symm.trans (mem_rows.mp there))]
  · simp only [mem_map,mem_sortDedup,Prod.exists,exists_and_right,exists_eq_right]
    rw [plan_objects]
    unfold Recorded objectRows
    simp only [mem_rows]

theorem mark_backfill (crates : Crates) (c : Content) (deleteUntagged : Bool) :
    c.objectsBackfill.gcMark crates deleteUntagged c.objectsBackfill.gcViews =
      c.gcMark crates deleteUntagged c.gcViews := by
  obtain ⟨objects,same⟩ := backfill_same c
  have found (candidates : List (RepoName × Digest)) (repo : RepoName) (first : Bool) (list : List Digest) (st : MarkState) :
      c.objectsBackfill.markFound candidates repo first list st = c.markFound candidates repo first list st := by
    rw [same]
    induction list generalizing first st with
    | nil => rfl
    | cons reference rest ih =>
      simp only [markFound]
      rw [ih]
      rfl
  have visit (candidates : List (RepoName × Digest)) :
      c.objectsBackfill.markVisit crates candidates = c.markVisit crates candidates := by
    funext item st
    have read : c.objectsBackfill.gcFound crates item.1 item.2 = c.gcFound crates item.1 item.2 := by
      rw [same]
      rfl
    unfold markVisit
    simp only [found,read]
  have views : c.objectsBackfill.gcViews = c.gcViews := by
    rw [same]
    rfl
  have roots : c.objectsBackfill.gcRoots deleteUntagged c.gcViews = c.gcRoots deleteUntagged c.gcViews := by
    rw [same]
    rfl
  unfold gcMark
  simp only [views,visit,roots]

theorem unmarked_backfill (marked : KeySet Digest) (blob : Bool) :
    c.objectsBackfill.unmarkedLinks marked c.objectsBackfill.gcViews blob = c.unmarkedLinks marked c.gcViews blob := by
  obtain ⟨objects,same⟩ := backfill_same c
  rw [same]
  rfl

variable {entries : List (RepoName × Digest)}

-- The real run deletes the unmarked manifests one by one. It gets through when
-- each still has its own link by the time it is reached.
theorem deletes_all (linked : ∀ entry ∈ entries,s.Candidate entry.1 entry.2)
    (apart : entries.Pairwise fun a b => ¬(a.1 = b.1 ∧ b.2 ∈ s.names a.2)) :
    ∃ t,deleteManifests entries s = (.ok (),t) := by
  induction entries generalizing s with
  | nil => exact ⟨s,rfl⟩
  | cons entry rest ih =>
    obtain ⟨repo,digest⟩ := entry
    obtain ⟨first,later⟩ := pairwise_cons.mp apart
    obtain ⟨link,own,kind⟩ := linked (repo,digest) mem_cons_self
    have found : s.manifestLink repo digest = some link := by
      have direct : s.linkGet repo digest = some link := own
      unfold manifestLink
      rw [direct]
    obtain ⟨-,aliases,-,-,-⟩ := s.deleted_rest repo digest
    have names (d : Digest) : (s.manifestDeleted repo digest).names d = s.names d := by
      unfold Content.names aliasOf
      rw [aliases]
    have rest := ih (s := {s.namespaceResolveOrCreate repo with toContent := s.manifestDeleted repo digest})
      (fun other member => by
        obtain ⟨row,present,manifest⟩ := linked other (mem_cons_of_mem _ member)
        refine ⟨row,?_,manifest⟩
        have kept := first other member
        rw [mem_names] at kept; rw [deleted_links,if_neg fun gone => kept ⟨gone.1.symm,gone.2⟩]
        exact present)
      (by simpa only [names] using later)
    unfold deleteManifests manifestDelete
    simp only [found,kind,if_false]
    exact rest

variable {s t : OciStore}

theorem deletes_linked (ran : deleteManifests entries s = (.ok (),t))
    (member : (repo,digest) ∈ entries) : s.LinkedUnder repo digest := by
  induction entries generalizing s with
  | nil => cases member
  | cons entry rest ih =>
    unfold deleteManifests at ran
    rcases s.manifestDelete_cases entry.1 entry.2 with ⟨⟨e,refused⟩,-⟩ | ⟨link,found,-,answered⟩
    · split at ran
      · cases ran
      · rename_i accepted; rw [accepted] at refused
        cases refused
    · rcases mem_cons.mp member with rfl | later
      · unfold manifestLink at found; split at found
        · rename_i row direct; exact .inl (by simp [Linked,direct])
        · split at found
          · rename_i other named; exact .inr ⟨other,named,by simp [Linked,found]⟩
          · cases found
      · rw [answered] at ran
        have linked (x : Digest) (still : (s.manifestDeleted entry.1 entry.2).Linked repo x) : s.Linked repo x := by
          obtain ⟨row,present⟩ := GcSafety.linked_iff.mp still
          exact GcSafety.linked_iff.mpr ⟨row,((s.deleted_trimmed entry.1 entry.2).links repo x row |>.mp present).1⟩
        obtain ⟨-,aliases,-,-,-⟩ := s.deleted_rest entry.1 entry.2
        rcases ih ran later with own | ⟨other,named,reached⟩
        · exact .inl (linked digest own)
        · refine .inr ⟨other,?_,linked other reached⟩
          have same : (s.manifestDeleted entry.1 entry.2).aliases[digest]? = some other := named
          rw [aliases] at same; exact same

theorem deletes_apart (ran : deleteManifests entries s = (.ok (),t)) :
    entries.Pairwise fun a b => ¬(a.1 = b.1 ∧ b.2 ∈ s.names a.2 ∧ ∀ other,s.aliasOf b.2 = some other → other ∈ s.names a.2) := by
  induction entries generalizing s with
  | nil => exact .nil
  | cons entry rest ih =>
    obtain ⟨repo,digest⟩ := entry
    have whole := ran
    unfold deleteManifests at ran
    rcases s.manifestDelete_cases repo digest with ⟨⟨e,refused⟩,-⟩ | ⟨link,-,-,answered⟩
    · split at ran
      · cases ran
      · rename_i accepted; rw [accepted] at refused
        cases refused
    · rw [answered] at ran
      obtain ⟨-,aliases,-,-,-⟩ := s.deleted_rest repo digest
      have named (d : Digest) : (s.manifestDeleted repo digest).aliasOf d = s.aliasOf d := congrArg (·[d]?) aliases
      have names (d : Digest) : (s.manifestDeleted repo digest).names d = s.names d := by
        unfold Content.names; rw [named]
      have gone (x : Digest) (among : x ∈ s.names digest) : ¬(s.manifestDeleted repo digest).Linked repo x := by
        intro still
        obtain ⟨row,present⟩ := GcSafety.linked_iff.mp still
        exact ((s.deleted_trimmed repo digest).links repo x row |>.mp present).2.1 ⟨rfl,among⟩
      refine pairwise_cons.mpr ⟨fun other member => ?_,by simpa only [names,named] using ih ran⟩
      obtain ⟨repo',other⟩ := other
      intro ⟨same,among,more⟩
      obtain rfl : repo = repo' := same
      rcases deletes_linked ran member with own | ⟨name,aliased,reached⟩
      · exact gone other among own
      · exact gone name (more name ((named other).symm.trans aliased)) reached

theorem blake_first {x y : Digest} (blake : x.algorithm = .blake3) (plain : y.algorithm ≠ .blake3) :
    compare x y = .lt := by
  change compare x.asStr y.asStr = .lt
  unfold Digest.asStr
  rw [blake]
  cases axis : y.algorithm with
  | blake3 => exact absurd axis plain
  | sha256 => rfl
  | sha512 => rfl

theorem unmarked_sorted (marked : KeySet Digest) (blob : Bool) :
    (c.unmarked marked blob).Pairwise fun a b => a.1 = b.1 → compare a.2 b.2 = .lt := by
  unfold unmarked unmarkedLinks
  rw [pairwise_map,pairwise_flatMap]
  constructor
  · intro view among
    obtain ⟨repo,-,rfl⟩ := mem_map.mp among
    rw [pairwise_map]
    refine List.Pairwise.filter _ (List.Pairwise.filter _ ?_)
    unfold gcView
    rw [pairwise_map]
    exact (rowsUnder_sorted c.links repo).imp fun ordered _ => by simpa using ordered
  · unfold gcViews
    rw [pairwise_map]
    refine ExtTreeSet.ordered_toList.imp fun {a b} ordered x here y there => ?_
    obtain ⟨_,-,rfl⟩ := mem_map.mp here
    obtain ⟨_,-,rfl⟩ := mem_map.mp there
    intro same
    have equal : a = b := same
    rw [equal] at ordered
    simp at ordered

theorem either_order {α : Type} {R : α → α → Prop} {list : List α} {a b : α} (ordered : list.Pairwise R) (here : a ∈ list)
    (there : b ∈ list) (distinct : a ≠ b) : R a b ∨ R b a := by
  have symmetric : Std.Symm fun a b => R a b ∨ R b a := ⟨fun _ _ => Or.symm⟩
  have weaker : list.Pairwise fun a b => R a b ∨ R b a := ordered.imp Or.inl
  exact weaker.forall here there distinct

def Doubled (crates : Crates) (c : Content) (deleteUntagged : Bool) : Prop :=
  ∃ repo x y,x.algorithm = .blake3 ∧ c.aliasOf x = some y ∧ c.Candidate repo x ∧ c.Candidate repo y ∧
    ¬Marked crates c deleteUntagged x ∧ ¬Marked crates c deleteUntagged y

variable {deleteUntagged : Bool}

theorem deletes_iff {crates : Crates} {held : Bytes → Prop} {marks : MarkState}
    (valid : Consistency.Consistent s.toContent) (hashed : Names.Hashed crates held s.toContent)
    (mem : ∀ name,name ∈ marks.marked ↔ Marked crates s.toContent deleteUntagged name)
    (content : t.toContent = s.objectsBackfill) : (∃ u,deleteManifests (s.unmarked marks.marked false) t = (.ok (),u)) ↔
      ¬Doubled crates s.toContent deleteUntagged := by
  obtain ⟨objects,same⟩ := backfill_same s.toContent
  have names (d : Digest) : t.names d = s.names d := by
    rw [content,same]
    rfl
  have aliased (d : Digest) : t.aliasOf d = s.aliasOf d := by
    rw [content,same]
    rfl
  have candidates (repo : RepoName) (d : Digest) : t.Candidate repo d ↔ s.Candidate repo d := by
    rw [content,same]
    exact .rfl
  constructor
  · rintro ⟨u,ran⟩ ⟨repo,x,y,blake,named,manifest,manifest',unmarked,unmarked'⟩
    have back := hashed.answered x y named blake
    have entry (z : Digest) (candidate : s.Candidate repo z) (only : ∀ name ∈ s.names z,name = x ∨ name = y) :
        (repo,z) ∈ s.unmarked marks.marked false := by
      obtain ⟨link,linked,kind⟩ := candidate
      refine mem_unmarked.mpr ⟨valid.linked_listed repo z link linked,link,linked,fun name among found => ?_,by simp [kind]⟩
      rcases only name among with rfl | rfl
      · exact unmarked ((mem _).mp found)
      · exact unmarked' ((mem _).mp found)
    have first := entry x manifest fun name among => (mem_names.mp among).imp_right fun found =>
      Option.some.inj (found.symm.trans named)
    have second := entry y manifest' fun name among => (mem_names.mp among).symm.imp_left fun found =>
      Option.some.inj (found.symm.trans back)
    have apart := deletes_apart ran
    obtain ⟨bytes,pair⟩ := hashed.paired x y named
    have distinct : (repo,x) ≠ (repo,y) := fun equal => pair.distinct (Prod.mk.inj equal).2
    simp only [names,aliased] at apart
    rcases either_order apart first second distinct with before | before
    · exact before ⟨rfl,mem_names.mpr (.inr named),fun other found => by
        obtain rfl := Option.some.inj (found.symm.trans back)
        exact mem_names_self⟩
    · exact before ⟨rfl,mem_names.mpr (.inr back),fun other found => by
        obtain rfl := Option.some.inj (found.symm.trans named)
        exact mem_names_self⟩
  · intro single
    refine deletes_all (fun entry member => ?_) ?_
    · obtain ⟨-,link,linked,-,kind⟩ := mem_unmarked.mp member
      exact (candidates _ _).mpr ⟨link,linked,by simp [kind]⟩
    · refine (unmarked_sorted s.toContent marks.marked false).imp_of_mem fun {a b} here there ordered => ?_
      rintro ⟨same,among⟩
      have before := ordered same
      rw [names] at among
      obtain ⟨-,link,linked,absent,kind⟩ := mem_unmarked.mp here
      obtain ⟨-,link',linked',absent',kind'⟩ := mem_unmarked.mp there
      rcases mem_names.mp among with equal | named
      · rw [equal] at before; simp at before
      · obtain ⟨bytes,pair⟩ := hashed.paired a.2 b.2 named
        by_cases blake : a.2.algorithm = .blake3
        · refine single ⟨a.1,a.2,b.2,blake,named,⟨link,linked,by simp [kind]⟩,⟨link',same ▸ linked',by simp [kind']⟩,?_,?_⟩
          · exact fun marked => absent a.2 mem_names_self ((mem _).mpr marked)
          · exact fun marked => absent' b.2 mem_names_self ((mem _).mpr marked)
        · have first : b.2.algorithm = .blake3 := by have := pair.mixed; tauto
          have after := blake_first first blake
          rw [OrientedCmp.gt_of_lt after] at before; cases before

def SameAnswer : Except OciStoreError GcReport → Except OciStoreError GcReport → Prop
  | .ok dry,.ok real => dry.marked = real.marked ∧ dry.sweptBlobs = real.sweptBlobs ∧
      dry.sweptManifests = real.sweptManifests
  | .error dry,.error real => dry = real
  | _,_ => False

-- What a dry run promises: it changes nothing, and answers and emits what the
-- real run from the same state does.
def Predicts (crates : Crates) (s : OciStore) (deleteUntagged : Bool) : Prop :=
  (collect crates s ⟨true,deleteUntagged⟩).store = s ∧
  (collect crates s ⟨true,deleteUntagged⟩).lines = (collect crates s ⟨false,deleteUntagged⟩).lines ∧
  SameAnswer (collect crates s ⟨true,deleteUntagged⟩).answer (collect crates s ⟨false,deleteUntagged⟩).answer

theorem dry_store (crates : Crates) (s : OciStore) (deleteUntagged : Bool) :
    (collect crates s ⟨true,deleteUntagged⟩).store = s.gcReady ⟨true,deleteUntagged⟩ := by
  rw [collect_eq]
  unfold markAndSweep gcSweep
  split <;> rfl

theorem dry_unchanged (s : OciStore) (deleteUntagged : Bool) :
    s.gcReady ⟨true,deleteUntagged⟩ = s ↔ ∀ repo ∈ s.repos,repo ∈ s.namespaces := by
  constructor
  · intro same repo listed
    have named := s.ready_named ⟨true,deleteUntagged⟩ repo listed
    rw [same] at named
    exact named
  · intro named
    exact named_already _ s fun repo member => named repo (ExtTreeSet.mem_toList.mp member)

theorem marks_read {crates : Crates} {c : Content} :
    (∃ marks,c.gcMark crates deleteUntagged c.gcViews = .ok marks) ↔ GcIdempotence.Reads crates c deleteUntagged := by
  constructor
  · rintro ⟨marks,ran⟩
    exact (gcMark_ok ran).2
  · intro reads
    cases ran : c.gcMark crates deleteUntagged c.gcViews with
    | ok marks => exact ⟨marks,rfl⟩
    | error failure =>
      obtain ⟨e,lines⟩ := failure
      obtain ⟨repo,digest,walked,failed⟩ := gcMark_error ran
      obtain ⟨found,answered⟩ := reads repo digest walked
      rw [failed] at answered
      cases answered

-- A dry run keeps its promise exactly when every repository has its namespace
-- and, where mark ends at all, no two unmarked manifest links of one repository
-- go in one delete.
theorem dry_predicts_iff {crates : Crates} {held : Bytes → Prop} {s : OciStore} (distinguishes : crates.Distinguishes held)
    (reached : OciStore.Reachable crates held s) (deleteUntagged : Bool) :
    Predicts crates s deleteUntagged ↔ (∀ repo ∈ s.repos,repo ∈ s.namespaces) ∧
      (GcIdempotence.Reads crates s.toContent deleteUntagged → ¬Doubled crates s.toContent deleteUntagged) := by
  have valid := Consistency.reached_consistent reached
  obtain ⟨hashed,-⟩ := Names.reached_hashed distinguishes reached
  have dry : (s.gcReady ⟨true,deleteUntagged⟩).toContent = s.toContent := gcReady_content s ⟨true,deleteUntagged⟩
  have real : (s.gcReady ⟨false,deleteUntagged⟩).toContent = s.objectsBackfill :=
    gcReady_content s ⟨false,deleteUntagged⟩
  unfold Predicts
  rw [dry_store,dry_unchanged]
  refine and_congr_right fun _ => ?_
  rw [collect_eq,collect_eq,←marks_read,same_objects]
  unfold markAndSweep
  rw [dry,real]
  simp only [mark_backfill]
  cases marked : s.gcMark crates deleteUntagged s.gcViews with
  | error failure => simp [SameAnswer]
  | ok marks =>
    have mem := (gcMark_ok marked).1
    have deletes := deletes_iff valid hashed mem real
    simp only [Except.ok.injEq,exists_eq',true_implies]
    rw [←deletes]
    unfold gcSweep
    rw [dry,real]
    simp only [unmarked_backfill,if_true,Bool.false_eq_true,if_false]
    unfold unmarked
    split
    · rename_i e t failed
      simp [SameAnswer,failed]
    · rename_i t finished
      simp [SameAnswer,finished]

section Runs
open Sample

def unnamed : List Op := [.manifestPut app (.digest (name .sha256 plainManifest)) defaultMediaType plainManifest plain]

theorem unnamed_reachable : OciStore.Reachable crates Held (after unnamed) := .run (.start rfl) (by decide)

theorem unnamed_not_predicted : ¬Predicts crates (after unnamed) true := by
  intro predicts
  have before : (after unnamed).namespaces.contains app = false := by decide
  have made : (collect crates (after unnamed) ⟨true,true⟩).store.namespaces.contains app = true := by
    decide
  rw [predicts.1,before] at made
  cases made

-- One manifest put by sha256 and by blake3, and no tag left. The real run deletes
-- both names at once and then cannot find the second.
def doubled : List Op :=
  [.manifestPut app (.tag latest) defaultMediaType plainManifest plain,
    .manifestPut app (.digest (name .blake3 plainManifest)) defaultMediaType plainManifest plain,.tagDelete app latest]

theorem doubled_answers : (collect crates (after doubled) ⟨true,true⟩).answer = .ok ⟨0,2,2,0⟩ ∧
    (collect crates (after doubled) ⟨false,true⟩).answer =
      .error (Content.notHere app (name .sha256 plainManifest)) := by decide

theorem dry_run_differs : (OciStore.Reachable crates Held (after unnamed) ∧ ¬Predicts crates (after unnamed) true) ∧
    OciStore.Reachable crates Held (after doubled) ∧ ¬Predicts crates (after doubled) true := by
  refine ⟨⟨unnamed_reachable,unnamed_not_predicted⟩,.run (.start rfl) (by decide),fun predicts => ?_⟩
  obtain ⟨-,-,same⟩ := predicts
  rw [doubled_answers.1,doubled_answers.2] at same
  exact same

theorem unnamed_condition_fails : ¬((∀ repo ∈ (after unnamed).repos,repo ∈ (after unnamed).namespaces) ∧
    (GcIdempotence.Reads crates (after unnamed).toContent true → ¬Doubled crates (after unnamed).toContent true)) :=
  fun condition => unnamed_not_predicted ((dry_predicts_iff distinguishes unnamed_reachable true).mpr condition)

end Runs
end GcDryRun
end HologramLive
