import HologramLive.Holo.Composition
import HologramLive.Holo.PlanUnlimited
import HologramLive.Holo.Opening
import HologramLive.Holo.Tabled
namespace HologramLive
open Tables Fallible List
variable {hologram : Hologram} {workshop : Workshop}

theorem get_insertRows (rows : List (Kappa × Bytes)) (blobs : Table Kappa Bytes) (kappa : Kappa) :
    (∃ row ∈ rows,row.1 = kappa ∧ (insertRows rows blobs)[kappa]? = some row.2) ∨
      (∀ row ∈ rows,row.1 ≠ kappa) ∧ (insertRows rows blobs)[kappa]? = blobs[kappa]? := by
  induction rows generalizing blobs with
  | nil => exact .inr ⟨by simp,rfl⟩
  | cons row rest ih =>
    obtain ⟨later,member,named,found⟩ | ⟨none,found⟩ := ih (blobs.insert row.1 row.2)
    · exact .inl ⟨later,mem_cons_of_mem _ member,named,found⟩
    · rw [get_insert] at found
      by_cases named : row.1 = kappa
      · rw [if_pos named] at found; exact .inl ⟨row,mem_cons_self,named,found⟩
      · rw [if_neg named] at found; exact .inr ⟨forall_mem_cons.mpr ⟨named,none⟩,found⟩

theorem embeddedTable_rows (blobs : Table Kappa Bytes) : embeddedTable blobs.toList = blobs := by
  refine table_ext fun kappa => ?_
  show (insertRows blobs.toList ∅)[kappa]? = blobs[kappa]?
  obtain ⟨row,member,rfl,found⟩ | ⟨none,found⟩ := get_insertRows blobs.toList ∅ kappa
  · rw [found,mem_rows.mp member]
  · cases absent : blobs[kappa]? with
    | none => rw [found]; simp
    | some bytes => exact absurd rfl (none (kappa,bytes) (mem_rows.mpr absent))

open Directory

-- What the upstream crate promises of its own formats: a finished archive opens
-- with the sections it was given, a valid manifest reads back from its canonical
-- bytes, and so does the directory of a finished archive from its JSON.
structure ReadsBack (hologram : Hologram) (workshop : Workshop) : Prop where
  opens : ∀ file bytes,workshop.finish file = .ok bytes → requireCurrent bytes = .ok () ∧
    ∃ loader,hologram.fromBytes bytes = .ok loader ∧
      loader.intoPlan = .ok ⟨some file.appManifest,.ok file.extensions,.ok file.contentBlobs⟩
  manifest : ∀ manifest,hologram.validateManifest manifest = .ok () →
    hologram.decodeManifest (hologram.canonicalizeManifest manifest) = .ok manifest
  directory : ∀ file bytes directory,workshop.finish file = .ok bytes →
    (extensionKey,hologram.directoryToVec directory) ∈ file.extensions →
    hologram.directoryFromSlice (hologram.directoryToVec directory) = .ok directory
  references : Compile.ReadsReferences hologram workshop

namespace Directory

theorem normalized_ok (ok : normalizeWasmContract hologram value = .ok normalized) :
    normalized = value ∧ normalizeWasmContract hologram normalized = .ok normalized := by
  unfold normalizeWasmContract at ok
  split at ok
  · rename_i known
    cases ok
    exact ⟨rfl,if_pos known⟩
  · cases ok

theorem layerKindName_wasm : layerKindName kind = "wasm".toList ↔ kind = .wasmCodemodule := by
  cases kind <;> decide

variable {row : HoloLayer}

theorem decodeLayer_wasm (wasm : row.kind = "wasm".toList)
    (given : row.contract = some contract) (known : normalizeWasmContract hologram contract = .ok contract) :
    decodeLayer hologram row = .ok row := by
  unfold decodeLayer
  rw [if_pos wasm,given]
  dsimp only
  rw [ok_bind (mapError_of_ok known),←given]
  rfl

theorem decodeLayer_plain (other : row.kind ≠ "wasm".toList) (silent : row.contract = none) :
    decodeLayer hologram row = .ok row := by
  unfold decodeLayer
  rw [if_neg other,silent]
  exact if_neg (by simp)

theorem decodeLayer_derived
    (ok : deriveLayer hologram position layer = .ok row) : decodeLayer hologram row = .ok row := by
  unfold deriveLayer at ok
  obtain ⟨place,_,ok⟩ := bind_ok ok
  dsimp only at ok
  have plain (kind : layer.kind ≠ .wasmCodemodule) : layerKindName layer.kind ≠ "wasm".toList :=
    fun same => kind (layerKindName_wasm.mp same)
  split at ok
  · rename_i kind
    obtain ⟨contract,known,ok⟩ := bind_ok ok
    cases ok
    exact decodeLayer_wasm (layerKindName_wasm.mpr kind) rfl (normalized_ok (mapError_ok known)).2
  all_goals
    rename_i kind
    cases ok
    exact decodeLayer_plain (plain (by rw [kind]; simp)) rfl

variable {manifest : AppManifest} {blobs : List (Bytes × Bytes)} {directory : HoloDirectory}

theorem decode_derived
    (derived : derive hologram manifest blobs = .ok directory) (reads : hologram.directoryFromSlice bytes = .ok directory) :
    decode hologram bytes = .ok directory := by
  unfold derive at derived
  obtain ⟨_,_,derived⟩ := bind_ok derived
  obtain ⟨indexed,_,derived⟩ := bind_ok derived
  obtain ⟨layers,rows,derived⟩ := bind_ok derived
  obtain ⟨children,_,derived⟩ := bind_ok derived
  cases derived
  have fixed : layers.mapM (decodeLayer hologram) = .ok layers := by
    refine mapM_fixed fun row member => ?_
    obtain ⟨i,at_⟩ := mem_iff_getElem?.mp member
    obtain ⟨entry,_,made⟩ := forall₂_at (mapM_ok_forall rows) at_
    exact decodeLayer_derived made
  unfold decode
  rw [ok_bind (mapError_of_ok reads)]
  dsimp only
  rw [if_neg (by simp),ok_bind fixed]
  rfl

theorem verify_derived
    (derived : derive hologram manifest blobs = .ok directory) (declared : decode hologram bytes = .ok directory) :
    verifyRequired hologram manifest [bytes] blobs = .ok directory := by
  unfold verifyRequired
  dsimp only
  rw [ok_bind declared,ok_bind derived]
  exact if_neg (not_not.mpr rfl)

end Directory
namespace Compile

variable (packaging : HoloPackaging)

theorem embeddedBlobs_rows (blobs : Table Kappa Bytes) : (embeddedBlobs packaging blobs).mapM embeddedBlob =
      .ok (match packaging with | .fat => blobs.toList | .thin => []) := by
  cases packaging with
  | thin => rfl
  | fat =>
    unfold embeddedBlobs
    dsimp only
    have each (row : Kappa × Bytes) : embeddedBlob (toUtf8 row.1,row.2) = .ok row := by
      unfold embeddedBlob
      rw [fromUtf8_iff.mpr rfl]
    induction blobs.toList with
    | nil => rfl
    | cons row rest ih => rw [map_cons,mapM_cons,ok_bind (each row),ok_bind ih]; rfl

def packed (blobs : Table Kappa Bytes) : Table Kappa Bytes :=
  match packaging with
  | .fat => blobs
  | .thin => ∅

theorem packed_table (blobs : Table Kappa Bytes) :
    embeddedTable (match packaging with | .fat => blobs.toList | .thin => []) = packed packaging blobs := by
  cases packaging with
  | fat => exact embeddedTable_rows blobs
  | thin => rfl

theorem pack_opens (reads : ReadsBack hologram workshop) {packaging : HoloPackaging} (valid : hologram.validateManifest composition.manifest = .ok ())
    (ok : pack hologram workshop composition packaging = .ok bytes) :
    ∃ archive,openArchive hologram bytes = .ok archive ∧ archive.manifest = composition.manifest ∧
      archive.rootPlanManifest = composition.manifest ∧ archive.embedded = packed packaging composition.gathered.blobs ∧
      archive.identity.applicationKappa = hologram.addressBytes (hologram.canonicalizeManifest composition.manifest) := by
  unfold pack at ok
  dsimp only at ok
  obtain ⟨directory,derived,ok⟩ := bind_ok ok
  have finished := mapError_ok ok
  obtain ⟨current,loader,loads,sections⟩ := reads.opens _ _ finished
  have decoded := decode_derived derived (reads.directory _ _ directory finished (mem_singleton.mpr rfl))
  have reread := reads.manifest _ valid
  refine ⟨⟨⟨hologram.addressBytes bytes,hex loader.fingerprint,
    hologram.addressBytes (hologram.canonicalizeManifest composition.manifest)⟩,composition.manifest,composition.manifest,
    packed packaging composition.gathered.blobs⟩,?_,rfl,rfl,rfl,rfl⟩
  have extensions : ([(extensionKey,hologram.directoryToVec directory)].filter fun extension =>
      extension.1 = extensionKey).map (·.2) = [hologram.directoryToVec directory] := by
    simp
  unfold openArchive
  rw [ok_bind current,ok_bind (mapError_of_ok loads),ok_bind (mapError_of_ok sections)]
  dsimp only
  rw [ok_bind (mapError_of_ok reread),ok_bind (mapError_of_ok valid)]
  rw [ok_bind (mapError_of_ok rfl),ok_bind (mapError_of_ok rfl),extensions]
  have verified := verify_derived derived decoded
  rw [ok_bind verified,ok_bind (embeddedBlobs_rows packaging composition.gathered.blobs),
    ok_bind (mapError_of_ok reread)]
  have table := packed_table packaging composition.gathered.blobs
  unfold embeddedTable at table
  rw [table]
  rfl

end Compile

-- The planner met no object that it could not find, and none that was another.
def ApplicationPlanReport.SelfContained (report : ApplicationPlanReport) : Prop :=
  ∀ blocker ∈ report.blockers,blocker.unresolved = false

namespace Compile

def Composition.occurrence (hologram : Hologram) (composition : Composition) : Occurrence :=
  ⟨composition.manifest,[hologram.addressBytes (hologram.canonicalizeManifest composition.manifest)]⟩

-- The applications below the children: those of the tree that are neither the
-- root nor packed in a child archive as its own. What they ask for was gathered.
def Composition.DescendantsSupplied (hologram : Hologram) (workshop : Workshop) (composition : Composition) : Prop :=
  ∀ application,ReachedFrom hologram ⟨composition.gathered.blobs,fun _ => .ok none⟩ (composition.occurrence hologram) application →
    application ≠ composition.occurrence hologram →
    (∀ child ∈ composition.specification.children,¬Packs hologram workshop composition.root child application.manifest) →
    ∀ kappa ∈ application.manifest.asks application.path,Has composition.gathered.blobs kappa

variable {kappa : Kappa}

theorem asks_references {manifest : AppManifest} (asked : kappa ∈ manifest.asks path) :
    kappa ∈ manifest.references := by
  obtain own | below := mem_append.mp asked
  · exact mem_append_left _ own
  · obtain ⟨child,kept,mine⟩ := mem_flatMap.mp below
    exact mem_append_right _ (mem_flatMap.mpr ⟨child,(mem_filter.mp kept).1,mine⟩)

theorem own_references (reads : ReadsBack hologram workshop) (composed : compose hologram workshop path options = .ok composition)
    (mine : kappa ∈ composition.manifest.references) : Has composition.gathered.blobs kappa := by
  obtain ⟨gathering,layers,children,_⟩ := compose_ok reads.references composed
  unfold AppManifest.references at mine
  rw [layers,children] at mine
  obtain own | below := mem_append.mp mine
  · obtain rfl | content := mem_cons.mp own
    · exact gathering.requires
    · obtain ⟨layer,member,rfl⟩ := mem_map.mp content
      exact gathering.layers layer member
  · obtain ⟨child,member,either⟩ := mem_flatMap.mp below
    obtain ⟨application,delegated⟩ := gathering.children child member
    obtain rfl | last := mem_cons.mp either
    · exact delegated
    · rw [mem_singleton.mp last]
      exact application

section Planned
variable {path : Str} {options : CompileOptions} {composition : Composition}

-- A gathered application has what is sought, but for what lies below its children.
theorem sought_supplied (reads : ReadsBack hologram workshop)
    (composed : compose hologram workshop path options = .ok composition)
    (supplied : composition.DescendantsSupplied hologram workshop)
    (sought : Sought hologram ⟨composition.gathered.blobs,fun _ => .ok none⟩ (composition.occurrence hologram) kappa) :
    Has composition.gathered.blobs kappa := by
  obtain ⟨application,reached,asked⟩ := sought
  by_cases own : application = composition.occurrence hologram
  · subst own
    exact own_references reads composed (asks_references asked)
  · by_cases packs : ∃ child ∈ composition.specification.children,
        Packs hologram workshop composition.root child application.manifest
    · obtain ⟨child,member,packs⟩ := packs
      obtain ⟨gathering,_⟩ := compose_ok reads.references composed
      exact gathering.packed child member _ packs kappa (asks_references asked)
    · exact supplied application reached own (fun child member packs' => packs ⟨child,member,packs'⟩) kappa asked

theorem lookup_gathered : Sources.lookup ⟨blobs,fun _ => .ok none⟩ kappa = .ok none ↔ ¬Has blobs kappa := by
  unfold Sources.lookup Has
  cases blobs[kappa]? with
  | none => simp [Except.map]
  | some bytes => simp

variable {packaging : HoloPackaging}

theorem compile_packs (composed : compose hologram workshop path options = .ok composition)
    {out : CompiledHolo} (compiled : compileManifestWithOptions hologram workshop path packaging options = .ok out) :
    pack hologram workshop composition packaging = .ok out.bytes ∧
      out.identity.applicationKappa = hologram.addressBytes (hologram.canonicalizeManifest composition.manifest) ∧
      out.capabilitiesKappa = composition.manifest.requires := by
  unfold compileManifestWithOptions at compiled
  rw [ok_bind composed] at compiled
  obtain ⟨bytes,packs,compiled⟩ := bind_ok compiled
  obtain ⟨loader,_,compiled⟩ := bind_ok compiled
  cases compiled
  exact ⟨packs,rfl,rfl⟩

theorem compile_opens (reads : ReadsBack hologram workshop)
    (composed : compose hologram workshop path options = .ok composition) {out : CompiledHolo}
    (compiled : compileManifestWithOptions hologram workshop path packaging options = .ok out) :
    ∃ archive,openArchive hologram out.bytes = .ok archive ∧ archive.manifest = composition.manifest ∧
      archive.rootOccurrence = composition.occurrence hologram ∧
      archive.embedded = packed packaging composition.gathered.blobs := by
  obtain ⟨packs,_,_⟩ := compile_packs composed compiled
  obtain ⟨_,_,_,valid⟩ := compose_ok reads.references composed
  obtain ⟨archive,opened,manifest,reread,embedded,application⟩ := pack_opens reads valid packs
  refine ⟨archive,opened,manifest,?_,embedded⟩
  unfold OpenedArchive.rootOccurrence Composition.occurrence
  rw [reread,application]

theorem unresolved_cases (unresolved : blocker.unresolved = true) :
    ∃ failure kappa edge,blocker = ResolutionFailure.blocker failure kappa edge := by
  cases blocker with
  | missingObject kappa edge => exact ⟨.missing,kappa,edge,rfl⟩
  | contentMismatch kappa edge source => exact ⟨.mismatch source,kappa,edge,rfl⟩
  | _ => cases unresolved

end Planned

-- A fat archive plans by itself exactly when what the applications below its
-- children ask for was gathered; and packaging changes neither the application
-- nor what it consists of.
theorem compileManifest_selfContained (reads : ReadsBack hologram workshop) {path : Str} {options : CompileOptions}
    {composition : Composition} (composed : compose hologram workshop path options = .ok composition) {fat : CompiledHolo}
    (compiled : compileManifestWithOptions hologram workshop path .fat options = .ok fat) :
    ((∀ limits,∃ report,explainApplication hologram fat.bytes limits (fun _ => .ok none) = .ok report ∧
        report.SelfContained) ↔ composition.DescendantsSupplied hologram workshop) ∧
    ∀ thin,compileManifestWithOptions hologram workshop path .thin options = .ok thin →
      fat.identity.applicationKappa = thin.identity.applicationKappa ∧ fat.capabilitiesKappa = thin.capabilitiesKappa ∧
      ∃ fatArchive thinArchive,openArchive hologram fat.bytes = .ok fatArchive ∧
        openArchive hologram thin.bytes = .ok thinArchive ∧ fatArchive.manifest = composition.manifest ∧
        thinArchive.manifest = composition.manifest := by
  obtain ⟨archive,opened,manifest,rootOf,embedded⟩ := compile_opens reads composed compiled
  replace embedded : archive.embedded = composition.gathered.blobs := embedded
  have explains (limits : PlanLimits) : explainApplication hologram fat.bytes limits (fun _ => .ok none) =
      explainOpened hologram archive limits fun _ => .ok none := by
    unfold explainApplication
    rw [ok_bind opened]
  have answers : Sources.Answers hologram ⟨archive.embedded,fun _ => .ok none⟩ archive.rootOccurrence :=
    embedded_answers archive.embedded archive.rootOccurrence
  refine ⟨⟨?_,?_⟩,?_⟩
  · intro contained application reached own packs kappa asked
    obtain ⟨limits,wide⟩ := explained_unlimited (embedded_among hologram archive.embedded)
    obtain ⟨report,ran,clean⟩ := contained limits
    rw [explains] at ran
    by_contra absent
    have sought : Sought hologram ⟨archive.embedded,fun _ => .ok none⟩ archive.rootOccurrence kappa := by
      rw [embedded,rootOf]
      exact ⟨application,reached,asked⟩
    obtain ⟨edge,told⟩ := explained_missing ran (wide report ran) sought (by rw [embedded]; exact lookup_gathered.mpr absent)
    cases clean _ told
  · intro supplied limits
    obtain ⟨report,ran⟩ := explainOpened_succeeds answers limits
    refine ⟨report,(explains limits).trans ran,fun blocker told => ?_⟩
    by_contra bad
    obtain ⟨failure,kappa,edge,rfl⟩ := unresolved_cases (Bool.not_eq_false _ ▸ bad)
    obtain ⟨happens,sought⟩ := explained_happens ran told
    rw [embedded,rootOf] at sought
    rw [embedded] at happens
    have has := sought_supplied reads composed supplied sought
    cases failure with
    | missing => exact lookup_gathered.mp happens has
    | mismatch source =>
      obtain ⟨bytes,found,other⟩ := happens
      obtain ⟨gathering,_⟩ := compose_ok reads.references composed
      unfold Sources.lookup at found
      split at found
      · rename_i bytes' inside; cases found
        exact other (gathering.labelled _ _ inside)
      · cases found
  · intro thin thinned
    obtain ⟨thinArchive,thinOpened,thinManifest,_,_⟩ := compile_opens reads composed thinned
    obtain ⟨_,application,capabilities⟩ := compile_packs composed compiled
    obtain ⟨_,application',capabilities'⟩ := compile_packs composed thinned
    exact ⟨application.trans application'.symm,capabilities.trans capabilities'.symm,archive,thinArchive,opened,thinOpened,
      manifest,thinManifest⟩

def deepGrandchild : AppManifest :=
  ⟨none,tableAddress [3],[⟨.view,tableAddress [9],"index.html".toList,"portable".toList⟩],[]⟩
def deepChild : AppManifest := ⟨none,tableAddress [3],[],[(tableAddress [2],tableAddress [3])]⟩
def deepRoot : AppManifest := ⟨none,tableAddress [3],[],[(tableAddress [1],tableAddress [3])]⟩
def deepTrial : AppManifest := ⟨none,tableAddress [],[],[(tableAddress [],tableAddress [])]⟩

def deepManifests : List (Bytes × AppManifest) := [([0],deepRoot),([1],deepChild),([2],deepGrandchild),([8],deepTrial)]

def deepDirectory (child : Kappa) (blobs : List Bytes) : HoloDirectory :=
  ⟨1,none,tableAddress [3],[],[⟨0,child,tableAddress [3],none,none,none,none,none⟩],
    blobs.map fun bytes => ⟨tableAddress bytes,1⟩⟩

def deepChildArchive : Bytes := [72,79,76,79,4,0,1]
def deepArchive : Bytes := [72,79,76,79,4,0,0]
def labelledBlobs (blobs : List Bytes) : List (Bytes × Bytes) := blobs.map fun bytes => (toUtf8 (tableAddress bytes),bytes)

def deepFile : HoloFile := ⟨[0],[7],[(extensionKey,[6])],labelledBlobs [[1],[2],[3]]⟩

def deepHologram : Hologram :=
  {Hologram.tabled deepManifests [([3],emptyCapabilities)]
      [([5],deepDirectory (tableAddress [2]) [[2],[3]]),([6],deepDirectory (tableAddress [1]) [[1],[2],[3]])]
      [(deepChildArchive,⟨[171],.ok ⟨some [1],.ok [(extensionKey,[5])],.ok (labelledBlobs [[2],[3]])⟩⟩),
        (deepArchive,⟨[172],.ok ⟨some [0],.ok [(extensionKey,[6])],.ok (labelledBlobs [[1],[2],[3]])⟩⟩)] with
    validateManifest := fun manifest =>
      if manifest ∈ deepManifests.map (·.2) then .ok () else .error "unknown manifest".toList}

def deepWorkshop : Workshop where
  parent _ := some []
  join _ path := path
  read path :=
    if path = "app.json".toList then .ok [7]
    else if path = "child.holo".toList then .ok deepChildArchive
    else if path = "child.json".toList then .ok [4]
    else .error "No such file or directory".toList
  parseManifest _ := .ok ⟨4,none,true,none,[],[⟨"child.holo".toList,"child.json".toList⟩]⟩
  compileSource _ _ := .ok [3]
  compileDirectory _ := .error (.io "no directory".toList)
  canonicalArch arch := .ok arch
  validateRootfs _ _ := .ok ()
  validateComponent _ := .ok ()
  compileRootfs _ _ _ _ := .error (.io "no docker".toList)
  compileComponent _ _ := .error (.io "no docker".toList)
  componentContracts := ["component".toList]
  viewEntry := "index.html".toList
  references bytes := (tableDecode deepManifests bytes).map (·.references)
  finish file := if file = deepFile then .ok deepArchive else .error "unknown file".toList

theorem tableEncode_known {α : Type} [DecidableEq α] {rows : List (Bytes × α)} {value : α} {byte : UInt8} {rest : Bytes}
    (encoded : tableEncode rows value = byte :: rest) : (byte :: rest,value) ∈ rows := by
  unfold tableEncode at encoded
  split at encoded
  · rename_i row found
    have same : row.2 = value := by simpa using find?_some found
    rw [←encoded,←same]
    exact mem_of_find?_eq_some found
  · cases encoded

theorem deep_readsBack : ReadsBack deepHologram deepWorkshop where
  opens file bytes finished := by
    by_cases known : file = deepFile
    · subst known
      cases finished
      exact ⟨rfl,_,rfl,rfl⟩
    · rw [show deepWorkshop.finish file = .error "unknown file".toList from if_neg known] at finished
      cases finished
  manifest manifest valid := by
    by_cases known : manifest ∈ deepManifests.map (·.2)
    · obtain ⟨row,member,rfl⟩ := mem_map.mp known
      exact tableDecode_of_mem (by decide) (tableEncode_mem member)
    · rw [show deepHologram.validateManifest manifest = .error "unknown manifest".toList from if_neg known] at valid
      cases valid
  directory file bytes directory finished member := by
    by_cases known : file = deepFile
    · subst known
      have encoded : deepHologram.directoryToVec directory = [6] := (Prod.mk.inj (mem_singleton.mp member)).2
      rw [encoded]
      exact tableDecode_of_mem (by decide) (tableEncode_known encoded)
    · rw [show deepWorkshop.finish file = .error "unknown file".toList from if_neg known] at finished
      cases finished
  references bytes manifest references decoded read kappa mine := by
    have known : tableDecode deepManifests bytes = .ok manifest := decoded
    rw [show deepWorkshop.references bytes = (tableDecode deepManifests bytes).map (·.references) from rfl,known] at read
    cases read
    exact mine

def deepBlockers : Option (List PlanBlocker) :=
  (compileManifestWithOptions deepHologram deepWorkshop "app.json".toList .fat ⟨false⟩).toOption.bind fun fat =>
    (explainApplication deepHologram fat.bytes .default fun _ => .ok none).toOption.map (·.blockers)

theorem deep_misses : ∃ fat report,
    compileManifestWithOptions deepHologram deepWorkshop "app.json".toList .fat ⟨false⟩ = .ok fat ∧
    explainApplication deepHologram fat.bytes .default (fun _ => .ok none) = .ok report ∧
    PlanBlocker.missingObject (tableAddress [9]) (.childLayer (tableAddress [2]) 0) ∈ report.blockers := by
  have blockers : deepBlockers = some [.missingObject (tableAddress [9]) (.childLayer (tableAddress [2]) 0),
      .libraryArchive] := by decide
  obtain ⟨fat,compiled,reported⟩ := Option.bind_eq_some_iff.mp blockers
  obtain ⟨report,explained,told⟩ := Option.map_eq_some_iff.mp reported
  exact ⟨fat,report,ok_of_toOption compiled,ok_of_toOption explained,by rw [told]; exact mem_cons_self⟩

theorem deep_not_supplied : ∃ composition fat,
    compose deepHologram deepWorkshop "app.json".toList ⟨false⟩ = .ok composition ∧
    compileManifestWithOptions deepHologram deepWorkshop "app.json".toList .fat ⟨false⟩ = .ok fat ∧
    ((∀ limits,∃ report,explainApplication deepHologram fat.bytes limits (fun _ => .ok none) = .ok report ∧
      report.SelfContained) ↔ composition.DescendantsSupplied deepHologram deepWorkshop) := by
  have compiles : (compileManifestWithOptions deepHologram deepWorkshop "app.json".toList .fat ⟨false⟩).toOption.isSome := by
    decide
  obtain ⟨fat,compiled⟩ := Option.isSome_iff_exists.mp compiles
  have packed := ok_of_toOption compiled
  obtain ⟨composition,composed,_⟩ := bind_ok packed
  exact ⟨composition,fat,composed,packed,(compileManifest_selfContained deep_readsBack composed packed).1⟩

end Compile
end HologramLive
