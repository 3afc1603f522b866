import HologramLive.Holo.Compile
import HologramLive.Holo.PlanRules
namespace HologramLive
open Tables Fallible List

def Labelled (hologram : Hologram) (blobs : Table Kappa Bytes) : Prop :=
  ∀ kappa bytes,blobs[kappa]? = some bytes → hologram.addressBytes bytes = kappa

def Has (blobs : Table Kappa Bytes) (kappa : Kappa) : Prop := (blobs[kappa]?).isSome

theorem has_insert : Has (blobs.insert kappa bytes) other ↔ kappa = other ∨ Has blobs other := by
  unfold Has
  rw [get_insert]
  split
  · rename_i same; simp [same]
  · rename_i different; simp [different]

def insertRows (rows : List (Kappa × Bytes)) (blobs : Table Kappa Bytes) : Table Kappa Bytes :=
  rows.foldl (fun blobs row => blobs.insert row.1 row.2) blobs

variable {rows : List (Kappa × Bytes)} {kappa : Kappa}

theorem has_insertRows : Has (insertRows rows blobs) kappa ↔ (∃ row ∈ rows,row.1 = kappa) ∨ Has blobs kappa := by
  induction rows generalizing blobs with
  | nil => simp [insertRows]
  | cons row rest ih =>
    show Has (insertRows rest (blobs.insert row.1 row.2)) kappa ↔ _
    rw [ih,has_insert]
    simp only [mem_cons,exists_eq_or_imp]
    exact or_left_comm.trans or_assoc.symm

theorem has_rows : (∃ row ∈ blobs.toList,row.1 = kappa) ↔ Has blobs kappa := by
  unfold Has
  rw [Option.isSome_iff_exists]
  constructor
  · intro ⟨⟨other,bytes⟩,member,same⟩
    exact ⟨bytes,by rw [←same]; exact mem_rows.mp member⟩
  · intro ⟨bytes,found⟩
    exact ⟨(kappa,bytes),mem_rows.mpr found,rfl⟩

section Labels
variable {hologram : Hologram} {blobs : Table Kappa Bytes}

theorem Labelled.empty : Labelled hologram ∅ := by
  intro kappa bytes found
  simp at found

theorem Labelled.insert (so : Labelled hologram blobs)
    (mine : hologram.addressBytes bytes = kappa) : Labelled hologram (blobs.insert kappa bytes) := by
  intro other found
  rw [get_insert]
  split
  · rename_i same
    intro h
    cases h
    exact mine.trans same
  · exact so other found

theorem Labelled.insertRows (so : Labelled hologram blobs)
    (each : ∀ row ∈ rows,hologram.addressBytes row.2 = row.1) : Labelled hologram (insertRows rows blobs) := by
  induction rows generalizing blobs with
  | nil => exact so
  | cons row rest ih =>
    obtain ⟨first,others⟩ := forall_mem_cons.mp each
    exact ih (so.insert first) others

end Labels
namespace Compile
variable {hologram : Hologram} {workshop : Workshop}

theorem buildLayer_content (ok : buildLayer hologram workshop layer kappa = .ok built) : built.content = kappa := by
  unfold buildLayer at ok
  split at ok
  · unfold buildWasm at ok
    obtain ⟨_,_,ok⟩ := bind_ok ok
    obtain ⟨_,_,ok⟩ := bind_ok ok
    obtain ⟨_,_,ok⟩ := bind_ok ok
    split at ok
    · cases ok
    · obtain ⟨_,_,ok⟩ := bind_ok ok
      split at ok
      · cases ok
      · cases ok
      · obtain ⟨_,_,ok⟩ := bind_ok ok
        split at ok <;> cases ok
        rfl
  · unfold buildTensor at ok
    obtain ⟨_,_,ok⟩ := bind_ok ok
    obtain ⟨_,_,ok⟩ := bind_ok ok
    obtain ⟨_,_,ok⟩ := bind_ok ok
    obtain ⟨_,_,ok⟩ := bind_ok ok
    cases ok
    rfl
  · unfold buildRootfs at ok
    obtain ⟨_,_,ok⟩ := bind_ok ok
    obtain ⟨_,_,ok⟩ := bind_ok ok
    obtain ⟨_,_,ok⟩ := bind_ok ok
    obtain ⟨_,_,ok⟩ := bind_ok ok
    obtain ⟨_,_,ok⟩ := bind_ok ok
    cases ok
    rfl
  · unfold buildView at ok
    obtain ⟨_,_,ok⟩ := bind_ok ok
    obtain ⟨_,_,ok⟩ := bind_ok ok
    obtain ⟨_,_,ok⟩ := bind_ok ok
    split at ok
    · cases ok
    · obtain ⟨_,_,ok⟩ := bind_ok ok
      split at ok <;> cases ok
      rfl
  · unfold buildInferenceModel at ok
    obtain ⟨_,_,ok⟩ := bind_ok ok
    obtain ⟨_,_,ok⟩ := bind_ok ok
    obtain ⟨_,_,ok⟩ := bind_ok ok
    obtain ⟨_,_,ok⟩ := bind_ok ok
    obtain ⟨_,_,ok⟩ := bind_ok ok
    cases ok
    rfl

def Packs (hologram : Hologram) (workshop : Workshop) (root : Str) (child : CompileChild) (manifest : AppManifest) : Prop :=
  ∃ archiveBytes canonical blobs,readFile workshop (workshop.join root child.application) = .ok archiveBytes ∧
    openChild hologram (workshop.join root child.application) archiveBytes = .ok (manifest,canonical,blobs)

variable {path : Str}

theorem openChild_manifest (ok : openChild hologram path archiveBytes = .ok (manifest,canonical,blobs)) :
    hologram.decodeManifest canonical = .ok manifest := by
  unfold openChild at ok
  dsimp only at ok
  obtain ⟨_,_,ok⟩ := bind_ok ok
  obtain ⟨loader,_,ok⟩ := bind_ok ok
  obtain ⟨plan,_,ok⟩ := bind_ok ok
  split at ok
  · cases ok
  · obtain ⟨decoded,decodes,ok⟩ := bind_ok ok
    obtain ⟨_,_,ok⟩ := bind_ok ok
    split at ok
    · cases ok
    · obtain ⟨_,_,ok⟩ := bind_ok ok
      obtain ⟨_,_,ok⟩ := bind_ok ok
      obtain ⟨_,_,ok⟩ := bind_ok ok
      cases ok
      exact mapError_ok decodes

theorem childBlobs_labelled {contentBlobs : List (Bytes × Bytes)}
    (so : Labelled hologram blobs) (ok : contentBlobs.foldlM (childBlob hologram path) blobs = .ok out) :
    Labelled hologram out ∧ ∀ kappa,Has blobs kappa → Has out kappa := by
  have each : ∀ blob ∈ contentBlobs,∀ table next : Table Kappa Bytes,
      (Labelled hologram table ∧ ∀ kappa,Has blobs kappa → Has table kappa) → childBlob hologram path table blob = .ok next →
      Labelled hologram next ∧ ∀ kappa,Has blobs kappa → Has next kappa := by
    intro blob member table next ⟨labelled,kept⟩ step
    unfold childBlob at step
    dsimp only at step
    split at step
    · cases step
    · cases step
      exact ⟨labelled.insert rfl,fun kappa had => has_insert.mpr (.inr (kept kappa had))⟩
  exact foldlM_keeps each ⟨so,fun _ => id⟩ ok

theorem requireReferences_ok (ok : requireReferences workshop path canonical blobs = .ok done) :
    ∃ references,workshop.references canonical = .ok references ∧ ∀ kappa ∈ references,Has blobs kappa := by
  unfold requireReferences at ok
  obtain ⟨references,read,ok⟩ := bind_ok ok
  split at ok
  · cases ok
  · rename_i none
    refine ⟨references,mapError_ok read,fun kappa member => ?_⟩
    have present := find?_eq_none.mp none kappa member
    simpa [Has] using present

-- The upstream crate's references are those that its decoder gives.
def ReadsReferences (hologram : Hologram) (workshop : Workshop) : Prop :=
  ∀ bytes manifest references,hologram.decodeManifest bytes = .ok manifest → workshop.references bytes = .ok references →
    ∀ kappa ∈ manifest.references,kappa ∈ references

-- What compiling a child gives: its manifest, the objects that the manifest names,
-- and the set delegated to it.
structure ChildCompiled (hologram : Hologram) (workshop : Workshop) (root : Str) (child : CompileChild)
    (compiled : CompiledChild) : Prop where
  labelled : Labelled hologram compiled.blobs
  application : Has compiled.blobs compiled.application
  delegated : Has compiled.blobs compiled.capabilities
  references : ∀ manifest,Packs hologram workshop root child manifest →
    ∀ kappa ∈ manifest.references,Has compiled.blobs kappa

variable {root : Str}

theorem compileChild_ok (reads : ReadsReferences hologram workshop) {child : CompileChild} (ok : compileChild hologram workshop root child = .ok compiled) :
    ChildCompiled hologram workshop root child compiled := by
  unfold compileChild at ok
  dsimp only at ok
  obtain ⟨_,_,ok⟩ := bind_ok ok
  obtain ⟨archiveBytes,file,ok⟩ := bind_ok ok
  obtain ⟨⟨manifest,canonical,contentBlobs⟩,opened,ok⟩ := bind_ok ok
  obtain ⟨blobs,folded,ok⟩ := bind_ok ok
  obtain ⟨_,required,ok⟩ := bind_ok ok
  obtain ⟨delegatedBytes,_,ok⟩ := bind_ok ok
  cases ok
  have own : Labelled hologram ((∅ : Table Kappa Bytes).insert (hologram.addressBytes canonical) canonical) :=
    Labelled.empty.insert rfl
  obtain ⟨labelled,kept⟩ := childBlobs_labelled own folded
  obtain ⟨references,read,present⟩ := requireReferences_ok required
  refine ⟨labelled.insert rfl,?_,?_,?_⟩
  · exact has_insert.mpr (.inr (kept _ (has_insert.mpr (.inl rfl))))
  · exact has_insert.mpr (.inl rfl)
  · intro other ⟨archiveBytes',canonical',blobs',file',opened'⟩ kappa mine
    cases file.symm.trans file'
    cases opened.symm.trans opened'
    exact has_insert.mpr (.inr (present kappa (reads _ _ _ (openChild_manifest opened) read kappa mine)))

-- What has been gathered so far: the objects under their addresses, those of the
-- layers and the children among them, and whatever the children's manifests name.
structure Gathering (hologram : Hologram) (workshop : Workshop) (root : Str) (requiresKappa : Kappa)
    (sources : List CompileChild) (gathered : Gathered) : Prop where
  labelled : Labelled hologram gathered.blobs
  requires : Has gathered.blobs requiresKappa
  layers : ∀ layer ∈ gathered.layers,Has gathered.blobs layer.content
  children : ∀ child ∈ gathered.children,Has gathered.blobs child.1 ∧ Has gathered.blobs child.2
  packed : ∀ child ∈ sources,∀ manifest,Packs hologram workshop root child manifest →
    ∀ kappa ∈ manifest.references,Has gathered.blobs kappa

variable {options : CompileOptions} {children : List CompileChild} {gathered next : Gathered}

theorem addLayer_ok (so : Gathering hologram workshop root requires children gathered)
    (ok : addLayer hologram workshop root options gathered entry = .ok next) :
    Gathering hologram workshop root requires children next := by
  unfold addLayer at ok
  obtain ⟨⟨content,provenance⟩,_,ok⟩ := bind_ok ok
  dsimp only at ok
  obtain ⟨layer,built,ok⟩ := bind_ok ok
  cases ok
  have kept (kappa : Kappa) (had : Has gathered.blobs kappa) :
      Has (gathered.blobs.insert (hologram.addressBytes content) content) kappa := has_insert.mpr (.inr had)
  refine ⟨so.labelled.insert rfl,kept _ so.requires,?_,?_,?_⟩
  · refine forall_mem_append.mpr ⟨fun layer member => kept _ (so.layers layer member),?_⟩
    exact forall_mem_singleton.mpr (has_insert.mpr (.inl (buildLayer_content built).symm))
  · exact fun child member => (so.children child member).imp (kept _) (kept _)
  · exact fun child member manifest packs kappa mine => kept _ (so.packed child member manifest packs kappa mine)

theorem addChild_ok (reads : ReadsReferences hologram workshop)
    (so : Gathering hologram workshop root requires children gathered)
    (ok : addChild hologram workshop root gathered child = .ok next) :
    Gathering hologram workshop root requires (children ++ [child]) next := by
  unfold addChild at ok
  obtain ⟨compiled,compiles,ok⟩ := bind_ok ok
  cases ok
  have one := compileChild_ok reads compiles
  have kept (kappa : Kappa) (had : Has gathered.blobs kappa) :
      Has (insertRows compiled.blobs.toList gathered.blobs) kappa := has_insertRows.mpr (.inr had)
  have joined (kappa : Kappa) (had : Has compiled.blobs kappa) :
      Has (insertRows compiled.blobs.toList gathered.blobs) kappa := has_insertRows.mpr (.inl (has_rows.mpr had))
  refine ⟨so.labelled.insertRows ?_,kept _ so.requires,?_,?_,?_⟩
  · exact fun row member => one.labelled row.1 row.2 (mem_rows.mp member)
  · exact fun layer member => kept _ (so.layers layer member)
  · refine forall_mem_append.mpr ⟨fun child member => (so.children child member).imp (kept _) (kept _),?_⟩
    exact forall_mem_singleton.mpr ⟨joined _ one.application,joined _ one.delegated⟩
  · refine forall_mem_append.mpr ⟨fun child member manifest packs kappa mine =>
      kept _ (so.packed child member manifest packs kappa mine),?_⟩
    exact forall_mem_singleton.mpr fun manifest packs kappa mine => joined _ (one.references manifest packs kappa mine)

theorem gather_ok (reads : ReadsReferences hologram workshop)
    (ok : gather hologram workshop root specification requiresBytes options = .ok gathered) :
    Gathering hologram workshop root (hologram.addressBytes requiresBytes) specification.children gathered := by
  unfold gather at ok
  dsimp only at ok
  obtain ⟨layered,first,second⟩ := bind_ok ok
  have started : Gathering hologram workshop root (hologram.addressBytes requiresBytes) []
      ⟨(∅ : Table Kappa Bytes).insert (hologram.addressBytes requiresBytes) requiresBytes,[],[],[]⟩ := by
    refine ⟨Labelled.empty.insert rfl,has_insert.mpr (.inl rfl),?_,?_,?_⟩ <;> intro item member <;> cases member
  have layers := foldlM_keeps (fun entry _ _ _ so step => addLayer_ok so step) started first
  exact foldlM_invariant (fun before gathered child next so step => addChild_ok reads so step) layers second

-- A composed application has all that its own manifest names, and all that the
-- manifests packed in its child archives name.
theorem compose_ok (reads : ReadsReferences hologram workshop) (ok : compose hologram workshop path options = .ok composition) :
    Gathering hologram workshop composition.root composition.manifest.requires composition.specification.children
        composition.gathered ∧ composition.manifest.layers = composition.gathered.layers ∧
      composition.manifest.children = composition.gathered.children ∧
      hologram.validateManifest composition.manifest = .ok () := by
  unfold compose at ok
  dsimp only at ok
  obtain ⟨source,_,ok⟩ := bind_ok ok
  obtain ⟨specification,_,ok⟩ := bind_ok ok
  obtain ⟨_,_,ok⟩ := bind_ok ok
  obtain ⟨requiresBytes,_,ok⟩ := bind_ok ok
  obtain ⟨gathered,gathers,ok⟩ := bind_ok ok
  obtain ⟨_,valid,ok⟩ := bind_ok ok
  cases ok
  exact ⟨gather_ok reads gathers,rfl,rfl,mapError_ok valid⟩

end Compile
end HologramLive
