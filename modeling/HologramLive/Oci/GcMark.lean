import HologramLive.Oci.GcRead
namespace HologramLive
open Tables Std List
namespace Content

def Candidate (c : Content) (repo : RepoName) (digest : Digest) : Prop :=
  ∃ link : Link,c.links[(repo,digest)]? = some link ∧ link.kind ≠ .blob
def TagNames (c : Content) (repo : RepoName) (digest : Digest) : Prop :=
  ∃ (tag : Tag) (entry : TagEntry),c.tags[(repo,tag)]? = some entry ∧ entry.kappa = digest

-- What a run must walk: every manifest, or with `deleteUntagged` every tagged
-- one, and then whatever a marked name finds in any repository.
inductive Walked (crates : Crates) (c : Content) (deleteUntagged : Bool) : RepoName → Digest → Prop
  | root (listed : repo ∈ c.repos) (manifest : c.Candidate repo digest)
      (rooted : deleteUntagged = false ∨ ∃ name ∈ c.names digest,c.TagNames repo name) :
      Walked crates c deleteUntagged repo digest
  | spread (walked : Walked crates c deleteUntagged repo digest) (found : c.gcFound crates repo digest = .ok references)
      (member : reference ∈ references) (named : name ∈ c.names reference) (listed : repo' ∈ c.repos)
      (manifest : c.Candidate repo' digest') (shared : name ∈ c.names digest') :
      Walked crates c deleteUntagged repo' digest'

def Marked (crates : Crates) (c : Content) (deleteUntagged : Bool) (name : Digest) : Prop :=
  ∃ repo digest references reference,Walked crates c deleteUntagged repo digest ∧
    c.gcFound crates repo digest = .ok references ∧ reference ∈ references ∧ name ∈ c.names reference

variable {c : Content} {item : RepoName × Digest}

theorem mem_gcCandidates : item ∈ gcCandidates c.gcViews ↔ item.1 ∈ c.repos ∧ c.Candidate item.1 item.2 := by
  obtain ⟨repo,digest⟩ := item
  unfold gcCandidates gcViews Candidate
  simp only [mem_flatMap,mem_map,mem_filter,ExtTreeSet.mem_toList]
  constructor
  · rintro ⟨view,⟨name,listed,rfl⟩,link,⟨among,manifest⟩,shape⟩
    obtain ⟨rfl,rfl⟩ := Prod.mk.inj shape
    obtain ⟨row,member,rfl⟩ := mem_map.mp among
    exact ⟨listed,row.2,mem_rowsUnder.mp member,by simpa using manifest⟩
  · rintro ⟨listed,link,linked,manifest⟩
    have among : (digest,link.kind) ∈ (c.gcView repo).links :=
      mem_map.mpr ⟨(digest,link),mem_rowsUnder.mpr linked,rfl⟩
    exact ⟨_,⟨repo,listed,rfl⟩,(digest,link.kind),⟨among,by simpa using manifest⟩,rfl⟩

theorem tagged_view (c : Content) (repo : RepoName) (name : Digest) :
    name ∈ (c.gcView repo).tagged ↔ c.TagNames repo name := by
  have folded (rows : List (Tag × TagEntry)) (set : KeySet Digest) :
      name ∈ rows.foldl (fun tagged row => tagged.insert row.2.kappa) set ↔
        name ∈ set ∨ ∃ row ∈ rows,row.2.kappa = name := by
    induction rows generalizing set with
    | nil => simp
    | cons row rest ih =>
      rw [foldl_cons,ih]
      simp only [ExtTreeSet.mem_insert,Std.compare_eq_iff_eq,mem_cons,exists_eq_or_imp]
      grind
  rw [gcView,folded]
  simp only [ExtTreeSet.not_mem_empty,false_or,TagNames]
  constructor
  · rintro ⟨⟨tag,entry⟩,member,rfl⟩
    exact ⟨tag,entry,mem_rowsUnder.mp member,rfl⟩
  · rintro ⟨tag,entry,found,rfl⟩
    exact ⟨(tag,entry),mem_rowsUnder.mpr found,rfl⟩

variable {deleteUntagged : Bool}

theorem mem_gcRoots : item ∈ c.gcRoots deleteUntagged c.gcViews ↔ item.1 ∈ c.repos ∧ c.Candidate item.1 item.2 ∧
      (deleteUntagged = false ∨ ∃ name ∈ c.names item.2,c.TagNames item.1 name) := by
  obtain ⟨repo,digest⟩ := item
  unfold gcRoots gcViews Candidate
  simp only [mem_flatMap,mem_map,mem_filter,ExtTreeSet.mem_toList,Bool.or_eq_true,any_eq_true,
    ExtTreeSet.contains_iff_mem]
  constructor
  · rintro ⟨view,⟨name,listed,rfl⟩,link,⟨⟨among,manifest⟩,rooted⟩,shape⟩
    obtain ⟨rfl,rfl⟩ := Prod.mk.inj shape
    obtain ⟨row,member,rfl⟩ := mem_map.mp among
    refine ⟨listed,⟨row.2,mem_rowsUnder.mp member,by simpa using manifest⟩,?_⟩
    rcases rooted with off | ⟨other,named,tagged⟩
    · exact .inl (by simpa using off)
    · exact .inr ⟨other,named,(tagged_view c name other).mp tagged⟩
  · rintro ⟨listed,⟨link,linked,manifest⟩,rooted⟩
    refine ⟨_,⟨repo,listed,rfl⟩,(digest,link.kind),⟨⟨mem_map.mpr ⟨(digest,link),mem_rowsUnder.mpr linked,rfl⟩,
      by simpa using manifest⟩,?_⟩,rfl⟩
    rcases rooted with off | ⟨other,named,tagged⟩
    · exact .inl (by simpa using off)
    · exact .inr ⟨other,named,(tagged_view c repo other).mpr tagged⟩

variable {candidates : List (RepoName × Digest)}

theorem mem_linkedAsManifest :
    item ∈ c.linkedAsManifest candidates name ↔ item ∈ candidates ∧ name ∈ c.names item.2 := by
  unfold linkedAsManifest
  simp only [mem_flatMap,mem_map,mem_filter,decide_eq_true_eq]
  constructor
  · rintro ⟨other,member,found,⟨named,rfl⟩,rfl⟩
    exact ⟨member,named⟩
  · rintro ⟨member,named⟩
    exact ⟨item,member,name,⟨named,rfl⟩,rfl⟩

theorem mem_foldl_insert (names : List Digest) (set : KeySet Digest) (name : Digest) :
    name ∈ names.foldl (fun marked other => marked.insert other) set ↔ name ∈ set ∨ name ∈ names := by
  induction names generalizing set with
  | nil => simp
  | cons other rest ih =>
    rw [foldl_cons,ih]
    simp only [ExtTreeSet.mem_insert,Std.compare_eq_iff_eq,mem_cons]
    grind

theorem markFound_pushes (c : Content) (candidates : List (RepoName × Digest)) (repo : RepoName) (first : Bool)
    (found : List Digest) (st : MarkState) : (c.markFound candidates repo first found st).1 =
      found.flatMap fun reference => (c.names reference).flatMap (c.linkedAsManifest candidates) := by
  induction found generalizing first st with
  | nil => rfl
  | cons reference rest ih => simp only [markFound,flatMap_cons]; rw [ih]

theorem markFound_marked (c : Content) (candidates : List (RepoName × Digest)) (repo : RepoName) (first : Bool)
    (found : List Digest) (st : MarkState) (name : Digest) :
    name ∈ (c.markFound candidates repo first found st).2.marked ↔
      name ∈ st.marked ∨ ∃ reference ∈ found,name ∈ c.names reference := by
  induction found generalizing first st with
  | nil => simp [markFound]
  | cons reference rest ih =>
    have told (b : Bool) (other : MarkState) (lines : List Str) :
        (if b = true then {other with lines := lines} else other).marked = other.marked := by cases b <;> rfl
    simp only [markFound]
    rw [ih,told]
    simp only [markDigest,mem_foldl_insert,mem_cons,exists_eq_or_imp,or_assoc]

def gcNext (crates : Crates) (c : Content) (candidates : List (RepoName × Digest)) (item : RepoName × Digest) :
    List (RepoName × Digest) :=
  match c.gcFound crates item.1 item.2 with
  | .error _ => []
  | .ok found => found.flatMap fun reference => (c.names reference).flatMap (c.linkedAsManifest candidates)

variable {crates : Crates}

theorem reach_walked :
    Worklist.Reach (c.gcNext crates (gcCandidates c.gcViews)) (c.gcRoots deleteUntagged c.gcViews) item ↔
      Walked crates c deleteUntagged item.1 item.2 := by
  constructor
  · intro reached
    induction reached with
    | root member =>
      obtain ⟨listed,manifest,rooted⟩ := mem_gcRoots.mp member
      exact .root listed manifest rooted
    | step _ member ih =>
      unfold gcNext at member
      split at member
      · cases member
      · rename_i found answered
        obtain ⟨reference,among,pushed⟩ := mem_flatMap.mp member
        obtain ⟨name,named,linked⟩ := mem_flatMap.mp pushed
        obtain ⟨candidate,shared⟩ := mem_linkedAsManifest.mp linked
        obtain ⟨listed,manifest⟩ := mem_gcCandidates.mp candidate
        exact .spread ih answered among named listed manifest shared
  · intro walked
    obtain ⟨repo,digest⟩ := item
    simp only at walked
    induction walked with
    | root listed manifest rooted => exact .root (mem_gcRoots.mpr ⟨listed,manifest,rooted⟩)
    | spread _ found member named listed manifest shared ih =>
      refine .step ih ?_
      unfold gcNext
      rw [found]
      exact mem_flatMap.mpr ⟨_,member,mem_flatMap.mpr ⟨_,named,
        mem_linkedAsManifest.mpr ⟨mem_gcCandidates.mpr ⟨listed,manifest⟩,shared⟩⟩⟩

theorem markVisit_ok {st after : MarkState} (visited : c.markVisit crates candidates item st = .ok (pushed,after)) :
    ∃ found,c.gcFound crates item.1 item.2 = .ok found ∧ pushed = c.gcNext crates candidates item ∧
      ∀ name,name ∈ after.marked ↔ name ∈ st.marked ∨ ∃ reference ∈ found,name ∈ c.names reference := by
  unfold markVisit at visited
  cases answered : c.gcFound crates item.1 item.2 with
  | error e => simp [answered] at visited
  | ok found =>
    simp only [answered,Except.ok.injEq] at visited
    refine ⟨found,rfl,?_,fun name => ?_⟩
    · obtain rfl := congrArg Prod.fst visited
      rw [gcNext,answered,markFound_pushes]
    · obtain rfl := congrArg Prod.snd visited
      exact markFound_marked ..

variable {digest : Digest}

theorem walked_candidate
    (walked : Walked crates c deleteUntagged repo digest) : repo ∈ c.repos ∧ c.Candidate repo digest := by
  cases walked with
  | root listed manifest => exact ⟨listed,manifest⟩
  | spread _ _ _ _ listed manifest => exact ⟨listed,manifest⟩

-- Mark is the closure: a run that ends has marked exactly the marked names, and
-- could read every manifest it walked.
theorem gcMark_ok {marks : MarkState} (ran : c.gcMark crates deleteUntagged c.gcViews = .ok marks) :
    (∀ name,name ∈ marks.marked ↔ Marked crates c deleteUntagged name) ∧
      ∀ repo digest,Walked crates c deleteUntagged repo digest → ∃ found,c.gcFound crates repo digest = .ok found := by
  unfold gcMark at ran
  simp only at ran
  generalize walk : Worklist.walk (c.markVisit crates (gcCandidates c.gcViews)) _ _ _ _ = result at ran
  cases result with
  | error e => cases ran
  | ok final =>
    obtain ⟨walked,st⟩ := final
    cases Except.ok.inj ran
    let inv (walked : List (RepoName × Digest)) (st : MarkState) : Prop :=
      (∀ name,name ∈ st.marked ↔ ∃ item ∈ walked,∃ found reference,c.gcFound crates item.1 item.2 = .ok found ∧
        reference ∈ found ∧ name ∈ c.names reference) ∧
      ∀ item ∈ walked,∃ found,c.gcFound crates item.1 item.2 = .ok found
    have closed := Worklist.walk_reach (c.gcNext crates (gcCandidates c.gcViews)) (gcCandidates c.gcViews) inv
      (fun item state pushed after visited => by
        obtain ⟨found,_,pushes,_⟩ := markVisit_ok visited
        exact pushes)
      (fun item reached => mem_gcCandidates.mpr (walked_candidate (reach_walked.mp reached)))
      (Nat.le_refl _) ⟨by simp,by simp⟩
      (fun item before state pushed after held _ visited => by
        obtain ⟨found,answered,_,marked⟩ := markVisit_ok visited
        constructor
        · intro name; rw [marked,held.1]
          simp only [mem_cons,exists_eq_or_imp,answered,Except.ok.injEq]; grind
        · intro other member
          rcases mem_cons.mp member with rfl | earlier
          · exact ⟨found,answered⟩
          · exact held.2 other earlier)
      walk
    obtain ⟨reached,marked,read⟩ := closed
    constructor
    · intro name
      rw [marked]
      constructor
      · rintro ⟨item,member,found,reference,answered,among,named⟩
        exact ⟨item.1,item.2,found,reference,reach_walked.mp ((reached item).mp member),answered,among,named⟩
      · rintro ⟨repo,digest,found,reference,went,answered,among,named⟩
        exact ⟨(repo,digest),(reached (repo,digest)).mpr (reach_walked.mpr went),found,reference,answered,among,named⟩
    · intro repo digest went
      exact read (repo,digest) ((reached (repo,digest)).mpr (reach_walked.mpr went))

theorem gcFound_self (answered : c.gcFound crates repo digest = .ok found) : digest ∈ found := by
  unfold gcFound at answered
  split at answered
  · cases answered
  · cases answered
    exact mem_cons_self

theorem walked_marked
    (ran : c.gcMark crates deleteUntagged c.gcViews = .ok marks) (walked : Walked crates c deleteUntagged repo digest)
    (named : name ∈ c.names digest) : name ∈ marks.marked := by
  obtain ⟨marked,read⟩ := gcMark_ok ran
  obtain ⟨found,answered⟩ := read repo digest walked
  exact (marked name).mpr ⟨repo,digest,found,digest,walked,answered,gcFound_self answered,named⟩

variable {marked : KeySet Digest}

theorem mem_unmarkedLinks : entry ∈ c.unmarkedLinks marked c.gcViews blob ↔
      ∃ repo ∈ c.repos,entry.1 = c.gcView repo ∧ ∃ link : Link,c.links[(repo,entry.2)]? = some link ∧
        c.isMarked marked entry.2 = false ∧ (link.kind = .blob ↔ blob = true) := by
  obtain ⟨view,digest⟩ := entry
  unfold unmarkedLinks gcViews
  simp only [mem_flatMap,mem_map,mem_filter,ExtTreeSet.mem_toList]
  constructor
  · rintro ⟨view',⟨repo,listed,rfl⟩,link,⟨⟨among,unmarked⟩,kind⟩,shape⟩
    obtain ⟨rfl,rfl⟩ := Prod.mk.inj shape
    obtain ⟨row,member,rfl⟩ := mem_map.mp among
    refine ⟨repo,listed,rfl,row.2,mem_rowsUnder.mp member,by simpa using unmarked,?_⟩
    cases blob <;> simpa using kind
  · rintro ⟨repo,listed,rfl,link,linked,unmarked,kind⟩
    have among : (digest,link.kind) ∈ (c.gcView repo).links :=
      mem_map.mpr ⟨(digest,link),mem_rowsUnder.mpr linked,rfl⟩
    refine ⟨_,⟨repo,listed,rfl⟩,(digest,link.kind),⟨⟨among,by simpa using unmarked⟩,?_⟩,rfl⟩
    cases blob <;> simpa using kind

theorem isMarked_iff : c.isMarked marked digest = true ↔ ∃ name ∈ c.names digest,name ∈ marked := by
  unfold isMarked
  simp only [any_eq_true,ExtTreeSet.contains_iff_mem]

-- A run that stops in mark stops at a walked manifest it cannot read.
theorem gcMark_error {e : OciStoreError} (ran : c.gcMark crates deleteUntagged c.gcViews = .error (e,lines)) :
    ∃ repo digest,Walked crates c deleteUntagged repo digest ∧ c.gcFound crates repo digest = .error e := by
  unfold gcMark at ran
  simp only at ran
  generalize walk : Worklist.walk (c.markVisit crates (gcCandidates c.gcViews)) _ _ _ _ = result at ran
  cases result with
  | ok final => cases ran
  | error failure =>
    cases Except.error.inj ran
    obtain ⟨item,rest,walked,state,tracks,failed⟩ := Worklist.walk_error
      (motive := fun pending walked _ => Worklist.Tracks (c.gcNext crates (gcCandidates c.gcViews))
        (c.gcRoots deleteUntagged c.gcViews) pending walked)
      (fun _ _ _ _ tracks seen => tracks.skip seen)
      (fun item rest walked state pushed next tracks fresh visited => by
        obtain ⟨_,_,rfl,_⟩ := markVisit_ok visited
        exact tracks.push fresh)
      _ _ _ _ _ .start walk
    refine ⟨item.1,item.2,reach_walked.mp (tracks.pending_reached item mem_cons_self),?_⟩
    unfold markVisit at failed
    cases answered : c.gcFound crates item.1 item.2 with
    | ok found => simp [answered] at failed
    | error e' => simp only [answered,Except.error.injEq,Prod.mk.injEq] at failed; rw [failed.1]

end Content
end HologramLive
