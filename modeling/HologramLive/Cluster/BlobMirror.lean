import HologramLive.Objects.Providers
import HologramLive.Inference.Completion
import HologramLive.Repo.Canonical
import HologramLive.Cluster.Convergence
namespace HologramLive.Cluster.BlobMirror
open Tables Std Rpc Objects Inference List

structure ReconcileOutcome where
  imported : Nat
  kept : Nat
  removed : Nat
  failed : Nat
deriving DecidableEq

-- What fails in one pass: the listing of the tags, the import of a digest's file, the
-- deletion of a tag.
structure Faults where
  list : Option Str
  addPath : Str → Option Str
  delete : Bytes → Option Str

def tagPrefix : Str := "hologram:".toList
def tagName (digest : Str) : Str := tagPrefix ++ digest
def tagBytes (digest : Str) : Bytes := toUtf8 (tagName digest)
def Mirrored (name : Bytes) : Prop := toUtf8 tagPrefix <+: name
instance (name : Bytes) : Decidable (Mirrored name) := inferInstanceAs (Decidable (_ <+: _))

-- The tags of the blob store by their names, each with the hash it stands for.
abbrev Tags := Table Bytes Str

section Reconcile
variable (blake3 : Blake3) (store : Objects.ObjectStore) (faults : Faults)

def expected : KeySet Str := ExtTreeSet.ofList ((store.list none).filterMap fun metadata => (digestOf metadata.id).toOption) compare
def current (tags : Tags) : KeySet Str := ExtTreeSet.ofList ((tags.keys.filter (Mirrored ·)).map fromUtf8Lossy) compare

def mirrorObject (current : KeySet Str) (pass : Tags × ReconcileOutcome) (digest : Str) : Tags × ReconcileOutcome :=
  let (tags,outcome) := pass
  if current.contains (tagName digest) then (tags,{outcome with kept := outcome.kept+1})
  else
    let failed := {outcome with failed := outcome.failed+1}
    match store.blobs[digest]?,faults.addPath digest with
    | none,_ | some _,some _ => (tags,failed)
    | some bytes,none =>
      let added := tags.insert (tagBytes digest) (blake3.toHex bytes)
      if blake3.toHex bytes = digest then (added,{outcome with imported := outcome.imported+1})
      else (if (faults.delete (tagBytes digest)).isSome then added else added.erase (tagBytes digest),failed)

def removeStale (pass : Tags × ReconcileOutcome) (tag : Str) : Tags × ReconcileOutcome :=
  match faults.delete (toUtf8 tag) with
  | some _ => pass
  | none => (pass.1.erase (toUtf8 tag),{pass.2 with removed := pass.2.removed+1})

def mirror (tags : Tags) : Tags × ReconcileOutcome :=
  (expected store).toList.foldl (mirrorObject blake3 store faults (current tags)) (tags,⟨0,0,0,0⟩)

def stale (tags : Tags) : List Str := (current tags).toList.filter fun tag => tag ∉ (expected store).toList.map tagName

-- Only the local provider's objects are files that can be imported.
def reconcile (localRegistry : Option Objects.ObjectStore) (tags : Tags) : Except LiveError ReconcileOutcome × Tags :=
  match localRegistry,faults.list with
  | none,_ => (.ok ⟨0,0,0,0⟩,tags)
  | some _,some e => (.error (.io ("list blob mirror tags: ".toList ++ e)),tags)
  | some store,none =>
    let (tags,outcome) := (stale store tags).foldl (removeStale faults) (mirror blake3 store faults tags)
    (.ok outcome,tags)

def Imports (digest : Str) : Prop := ∃ bytes,store.blobs[digest]? = some bytes ∧ faults.addPath digest = none ∧
  blake3.toHex bytes = digest
def Misplaces (digest : Str) : Prop := ∃ bytes,store.blobs[digest]? = some bytes ∧ faults.addPath digest = none ∧
  blake3.toHex bytes ≠ digest ∧ (faults.delete (tagBytes digest)).isSome

-- A digest of the inventory has a tag where it had one or its import goes through, and
-- where other bytes were imported under it that no deletion took away. Another tag is
-- gone unless its deletion fails or its name is no text.
structure Reconciled (tags after : Tags) : Prop where
  outside : ∀ name,¬Mirrored name → after[name]? = tags[name]?
  listed : ∀ digest ∈ expected store,(after[tagBytes digest]?).isSome ↔
    (tags[tagBytes digest]?).isSome ∨ Imports blake3 store faults digest ∨ Misplaces blake3 store faults digest
  stale : ∀ name,Mirrored name → (∀ digest ∈ expected store,name ≠ tagBytes digest) → ((after[name]?).isSome ↔
    (tags[name]?).isSome ∧ ((faults.delete name).isSome ∨ ∀ text,name ≠ toUtf8 text))

end Reconcile

variable {blake3 : Blake3} {store : Objects.ObjectStore} {faults : Faults} {tags : Tags} {digest : Str} {name : Bytes}

theorem tagBytes_injective (same : tagBytes one = tagBytes other) : one = other :=
  append_cancel_left (Repo.RepoManifest.toUtf8_injective same)

theorem expected_hex (listed : digest ∈ expected store) : digest.all isHexDigit = true := by
  have member := ExtTreeSet.mem_ofList.mp listed
  simp only [contains_iff_mem,mem_filterMap] at member
  obtain ⟨metadata,-,read⟩ := member
  exact (digestOf_ok.mp (Fallible.ok_of_toOption read)).2.2

theorem mem_current : tag ∈ current tags ↔ ∃ name,(tags[name]?).isSome ∧ Mirrored name ∧ fromUtf8Lossy name = tag := by
  unfold current
  rw [ExtTreeSet.mem_ofList]
  simp [and_assoc]

theorem current_mirrored (listed : tag ∈ current tags) : Mirrored (toUtf8 tag) := by
  obtain ⟨name,-,⟨rest,rfl⟩,rfl⟩ := mem_current.mp listed
  obtain ⟨left,same⟩ := lossyFrom_append tagPrefix rest (toUtf8 tagPrefix ++ rest).length (by simp)
  rw [fromUtf8Lossy,same,toUtf8,flatMap_append]
  exact prefix_append _ _

theorem tagName_current (listed : digest ∈ expected store) : tagName digest ∈ current tags ↔ (tags[tagBytes digest]?).isSome := by
  rw [mem_current]
  constructor
  · rintro ⟨name,held,-,same⟩
    have plain : replacement ∉ fromUtf8Lossy name := by
      rw [same]
      intro among
      rcases mem_append.mp among with first | later
      · exact absurd first (by decide)
      · exact absurd (all_eq_true.mp (expected_hex listed) _ later) (by decide)
    rw [tagBytes,←same,lossy_plain plain]
    exact held
  · intro held
    refine ⟨tagBytes digest,held,?_,lossy_utf8 _⟩
    rw [tagBytes,tagName,toUtf8,flatMap_append]
    exact prefix_append _ _

theorem mirrorObject_tags (other : name ≠ tagBytes digest) :
    (mirrorObject blake3 store faults seen past digest).1[name]? = past.1[name]? := by
  have apart : tagBytes digest ≠ name := fun same => other same.symm
  obtain ⟨tags,outcome⟩ := past
  unfold mirrorObject
  dsimp only
  split
  · rfl
  · split
    · rfl
    · rfl
    · split
      · simp [get_insert,apart]
      · split <;> simp [get_insert,get_erase,apart]

theorem mirrorObject_own (listed : digest ∈ expected store)
    (before : past.1[tagBytes digest]? = tags[tagBytes digest]?) :
    ((mirrorObject blake3 store faults (current tags) past digest).1[tagBytes digest]?).isSome ↔
      (tags[tagBytes digest]?).isSome ∨ Imports blake3 store faults digest ∨ Misplaces blake3 store faults digest := by
  have known := @tagName_current store tags digest listed
  obtain ⟨met,outcome⟩ := past
  dsimp only at before
  unfold mirrorObject Imports Misplaces
  by_cases held : tagName digest ∈ current tags
  · simp [held,before,known.mp held]
  · have absent : tags[tagBytes digest]? = none := by simpa [known] using held
    cases blob : store.blobs[digest]? with
    | none => simp [held,before,absent]
    | some bytes =>
      cases added : faults.addPath digest with
      | some e => simp [held,before,absent]
      | none =>
        by_cases same : blake3.toHex bytes = digest
        · simp [held,same]
        · cases faults.delete (tagBytes digest) <;> simp [held,same,absent]

theorem removeStale_tags (names : List Str) (pass : Tags × ReconcileOutcome) :
    (names.foldl (removeStale faults) pass).1[name]? =
      if (∃ tag ∈ names,toUtf8 tag = name) ∧ faults.delete name = none then none else pass.1[name]? := by
  induction names generalizing pass with
  | nil => simp
  | cons tag rest ih =>
    rw [foldl_cons,ih]
    unfold removeStale
    by_cases same : toUtf8 tag = name
    · subst same
      cases faults.delete (toUtf8 tag) <;> simp
    · cases faults.delete (toUtf8 tag) <;> simp [get_erase,same]

theorem mirror_tags (digests : List Str) (listed : ∀ digest ∈ digests,digest ∈ expected store) (distinct : digests.Nodup)
    (pass : Tags × ReconcileOutcome) (before : ∀ digest ∈ digests,pass.1[tagBytes digest]? = tags[tagBytes digest]?) :
    let after := (digests.foldl (mirrorObject blake3 store faults (current tags)) pass).1
    (∀ name,(∀ digest ∈ digests,name ≠ tagBytes digest) → after[name]? = pass.1[name]?) ∧
    ∀ digest ∈ digests,(after[tagBytes digest]?).isSome ↔
      (tags[tagBytes digest]?).isSome ∨ Imports blake3 store faults digest ∨ Misplaces blake3 store faults digest := by
  induction digests generalizing pass with
  | nil => exact ⟨fun _ _ => rfl,fun _ never => by cases never⟩
  | cons first rest ih =>
    obtain ⟨here,others⟩ := forall_mem_cons.mp listed
    obtain ⟨fresh,distinct⟩ := nodup_cons.mp distinct
    have apart : ∀ digest ∈ rest,tagBytes digest ≠ tagBytes first :=
      fun digest among same => fresh (tagBytes_injective same ▸ among)
    obtain ⟨kept,own⟩ := ih others distinct (mirrorObject blake3 store faults (current tags) pass first) fun digest among =>
      (mirrorObject_tags (apart digest among)).trans (before digest (mem_cons_of_mem _ among))
    refine ⟨fun name outside => ?_,fun digest among => ?_⟩
    · obtain ⟨other,outside⟩ := forall_mem_cons.mp outside
      exact (kept name outside).trans (mirrorObject_tags other)
    · rcases mem_cons.mp among with rfl | later
      · rw [foldl_cons,kept _ fun digest among same => apart digest among same.symm]
        exact mirrorObject_own here (before _ mem_cons_self)
      · exact own digest later

theorem mem_stale : tag ∈ stale store tags ↔ tag ∈ current tags ∧ ∀ digest ∈ expected store,tagName digest ≠ tag := by
  simp [stale]

theorem reconcile_reconciled (faults : Faults) (listing : faults.list = none) :
    Reconciled blake3 store faults tags (reconcile blake3 faults (some store) tags).2 := by
  have after : (reconcile blake3 faults (some store) tags).2 =
      ((stale store tags).foldl (removeStale faults) (mirror blake3 store faults tags)).1 := by
    unfold reconcile
    rw [listing]
  obtain ⟨kept,own⟩ := @mirror_tags blake3 store faults tags (expected store).toList (fun digest => ExtTreeSet.mem_toList.mp)
    ((ExtTreeSet.distinct_toList).imp fun apart same => by simp [same] at apart) (tags,⟨0,0,0,0⟩) fun _ _ => rfl
  simp only [ExtTreeSet.mem_toList] at kept own
  have removed (name : Bytes) := @removeStale_tags faults name (stale store tags) (mirror blake3 store faults tags)
  rw [after]
  refine ⟨fun name outside => ?_,fun digest listed => ?_,fun name mirrored other => ?_⟩
  · rw [removed,if_neg]
    · exact kept name fun digest _ same => outside (same ▸ (by
        rw [tagBytes,tagName,toUtf8,flatMap_append]; exact prefix_append _ _))
    · rintro ⟨⟨tag,among,rfl⟩,-⟩
      exact outside (current_mirrored (mem_stale.mp among).1)
  · rw [removed,if_neg]
    · exact own digest listed
    · rintro ⟨⟨tag,among,same⟩,-⟩
      exact (mem_stale.mp among).2 digest listed (Repo.RepoManifest.toUtf8_injective same.symm)
  · rw [removed,show (mirror blake3 store faults tags).1[name]? = tags[name]? from kept name other]
    by_cases held : (tags[name]?).isSome
    · have named : (∃ tag ∈ stale store tags,toUtf8 tag = name) ↔ ∃ text,name = toUtf8 text := by
        constructor
        · rintro ⟨tag,-,same⟩
          exact ⟨tag,same.symm⟩
        · rintro ⟨text,rfl⟩
          refine ⟨text,mem_stale.mpr ⟨mem_current.mpr ⟨_,held,mirrored,lossy_utf8 text⟩,fun digest listed same => ?_⟩,rfl⟩
          exact other digest listed (congrArg toUtf8 same.symm)
      by_cases text : ∃ text,name = toUtf8 text
      · have gone := named.mpr text
        cases faults.delete name <;> simp_all
      · have left := mt named.mp text
        have noText : ∀ text,name ≠ toUtf8 text := fun word same => text ⟨word,same⟩
        rw [if_neg fun both => left both.1]; exact ⟨fun _ => ⟨held,.inr noText⟩,fun _ => held⟩
    · rw [Bool.not_eq_true,Option.isSome_eq_false_iff,Option.isNone_iff_eq_none] at held
      simp [held]

-- A pass does so where the local provider serves and the tags can be listed. It does
-- nothing otherwise.
theorem mirror_reconciled (blake3 : Blake3) (localRegistry : Option Objects.ObjectStore) (faults : Faults) (tags : Tags) :
    match localRegistry,faults.list with
    | some store,none => Reconciled blake3 store faults tags (reconcile blake3 faults localRegistry tags).2
    | _,_ => (reconcile blake3 faults localRegistry tags).2 = tags := by
  cases localRegistry with
  | none => rfl
  | some store =>
    cases listing : faults.list with
    | some e => simp [reconcile,listing]
    | none => exact reconcile_reconciled faults listing

-- A tag of no object stays when the blob store does not delete it.
theorem stale_tag_stays : ¬∀ (blake3 : Blake3) (faults : Faults) (tags : Tags),
    let after := (reconcile blake3 faults (some .empty) tags).2
    ∀ name,Mirrored name → ((after[name]?).isSome ↔
      ∃ digest ∈ expected .empty,name = tagBytes digest ∧ ((tags[name]?).isSome ∨ Imports blake3 .empty faults digest)) := by
  intro always
  let faults : Faults := ⟨none,fun _ => none,fun _ => some "busy".toList⟩
  let tags : Tags := (∅ : Tags).insert (tagBytes ['a']) []
  have none : ∀ digest,digest ∉ expected .empty := by simp [expected,ObjectStore.list,ObjectStore.empty]
  have after := @reconcile_reconciled Mirror.blake3 .empty tags faults rfl
  have mirrored : Mirrored (tagBytes ['a']) := by decide
  have kept := (after.stale _ mirrored fun digest listed => absurd listed (none digest)).mpr ⟨by simp [tags],.inl rfl⟩
  obtain ⟨digest,listed,-⟩ := (always Mirror.blake3 faults tags _ mirrored).mp kept
  exact none digest listed

end HologramLive.Cluster.BlobMirror
