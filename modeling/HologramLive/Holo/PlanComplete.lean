import HologramLive.Holo.PlanRun
import HologramLive.Holo.Opening
import HologramLive.Holo.Tabled
namespace HologramLive
open Tables Fallible Forests Occurrence Walk List
variable {hologram : Hologram} {sources : Sources} {root : Occurrence} {limits : PlanLimits}

-- One child's admission: where it is in the tree, what its parent delegates to
-- it, and what it asks for.
structure Admits (hologram : Hologram) (sources : Sources) (index : Nat) (edge : ChildEdge)
    (admission : PendingChildAdmission) : Prop where
  position : admission.position = min edge.position u32Max
  parentIndex : admission.parentApplicationIndex = edge.parentIndex
  parentKappa : admission.parentApplicationKappa = edge.parent.kappa
  index : admission.applicationIndex = index+1
  kappa : admission.applicationKappa = edge.child.1
  delegated : sources.delegated hologram edge.child.2 = some admission.delegatedCapabilities
  requested : ∃ capabilities,
    sources.requested hologram (edge.kid hologram sources).manifest.requires = some capabilities ∧
    admission.requestedCapabilities = some capabilities
  primaryLayer : admission.primaryLayer = (edge.kid hologram sources).manifest.primary
  layers : admission.layers.map (fun layer => (layer.position,layer.kind,layer.contentKappa,layer.entry,layer.aux)) =
    (plannedLayers (edge.kid hologram sources).manifest).map fun layer =>
      (layer.position,layer.kind,layer.contentKappa,layer.entry,layer.aux)

-- A report that has the whole tree: its objects are the closure, and its
-- admissions are the tree's child edges, the applications numbered breadth first.
structure Complete (hologram : Hologram) (sources : Sources) (root : Occurrence) (tree : Forest Occurrence)
    (closure : Finset Kappa) (report : ApplicationPlanReport) : Prop where
  objects : ∀ kappa,report.objects[kappa]? = if kappa ∈ closure then sources.object hologram kappa else none
  requested : report.requestedCapabilities = sources.requested hologram root.manifest.requires
  admissions : ∃ order,order.Perm tree.values ∧ Ordered hologram sources root order ∧
    report.childAdmissions.length = (childEdges order).length ∧
    ∀ (i : Nat) edge,(childEdges order)[i]? = some edge →
      ∃ admission,report.childAdmissions[i]? = some admission ∧ Admits hologram sources i edge admission

variable {tree : Forest Occurrence}

theorem mem_askedBy (unfolds : Unfolds (expand hologram sources) [root] tree) (same : order.Perm tree.values) (kappa : Kappa) :
    kappa ∈ askedBy order ↔ InClosure hologram sources root kappa := by
  rw [askedBy,mem_flatMap]
  constructor
  · rintro ⟨application,member,mine⟩
    exact ⟨application,(occurs_iff unfolds application).mpr (same.mem_iff.mp member),mine⟩
  · rintro ⟨application,occurs,mine⟩
    exact ⟨application,same.mem_iff.mpr ((occurs_iff unfolds application).mp occurs),mine⟩

theorem layerTotal_perm (same : order.Perm values) :
    layerTotal order = (values.map fun application => application.manifest.layers.length).sum :=
  (same.map _).sum_eq

theorem plannable_of_drains (drains : Drains (expand hologram sources) [root] order)
    (ordered : Ordered hologram sources root order) (fits : Walk.Fits hologram sources limits order) :
    ∃ tree,order.Perm tree.values ∧ Plannable hologram sources limits root tree (askedBy order).toFinset := by
  obtain ⟨tree,unfolds,same⟩ := drains.unfolds
  refine ⟨tree,same,unfolds,?_,?_,?_,?_,?_,fits.within.count,fits.within.bytes⟩
  · intro kappa
    rw [mem_toFinset]
    exact mem_askedBy unfolds same kappa
  · intro kappa member
    exact fits.within.resolvable kappa (mem_toFinset.mp member)
  · intro application occurs
    exact fits.sound application (same.mem_iff.mpr ((occurs_iff unfolds application).mp occurs))
  · rw [←same.length_eq,ordered.listed,length_cons,length_map]
    exact fits.applications
  · rw [←layerTotal_perm same]
    exact fits.layers

theorem fits_of_plannable {closure : Finset Kappa}
    (plannable : Plannable hologram sources limits root tree closure) (same : order.Perm tree.values)
    (ordered : Ordered hologram sources root order) :
    Walk.Fits hologram sources limits order ∧ closure = (askedBy order).toFinset := by
  have closed : closure = (askedBy order).toFinset := by
    ext kappa
    rw [plannable.exactly,mem_toFinset,mem_askedBy plannable.unfolds same]
  refine ⟨⟨?_,?_,?_,?_,?_,?_⟩,closed⟩
  · intro application member
    exact plannable.sound application ((occurs_iff plannable.unfolds application).mpr (same.mem_iff.mp member))
  · have room := plannable.applications
    rw [←same.length_eq,ordered.listed,length_cons,length_map] at room
    exact room
  · rw [layerTotal_perm same]
    exact plannable.layers
  · intro kappa member
    exact plannable.resolvable kappa (by rw [closed]; exact mem_toFinset.mpr member)
  · rw [←closed]; exact plannable.objects
  · rw [←closed]; exact plannable.bytes

theorem ordered_drain (drains : Drains (expand hologram sources) [root] order) :
    Ordered hologram sources root order := by
  refine drain_ordered [] drains rfl ?_ ?_
  · exact nil_prefix
  · intro i edge at_
    cases at_

theorem start_settles (archive : OpenedArchive) :
    Settles ((start limits archive).run hologram sources limits limits.maxApplications) (fun out => Spoiled out.closure)
      (∃ tree closure,Plannable hologram sources limits archive.rootOccurrence tree closure)
      (fun out => ∃ order closure,Drains (expand hologram sources) [archive.rootOccurrence] order ∧
        Walk.Fits hologram sources limits order ∧ Collected hologram sources limits (askedBy order) closure ∧
        out = cleanWalk hologram sources archive.rootOccurrence order.length (childEdges order)
          (layerTotal order) closure) := by
  by_cases none : limits.maxApplications < 1
  · constructor
    · rintro ⟨tree,_,plannable⟩
      have here := plannable.unfolds.roots_subperm.length_le
      have room := plannable.applications
      rw [length_singleton] at here
      omega
    · intro _ out ran
      refine run_spoiled ?_ ran
      unfold start
      dsimp only
      rw [if_pos none]
      exact spoiled_block _ _
  · have begun : start limits archive =
        cleanWalk hologram sources archive.rootOccurrence 0 (childEdges []) (layerTotal []) .empty := by
      unfold start
      dsimp only
      rw [if_neg none]
      rfl
    have fits : Walk.Fits hologram sources limits [] :=
      ⟨by simp,Nat.le_of_not_lt none,by simp [layerTotal,saturated],collected_empty.within⟩
    rw [begun]
    refine (run_settles collected_empty fits rfl ?_ (Nat.le_add_right _ _)).congr ?_ ?_
    · intro edge member
      cases member
    · constructor
      · rintro ⟨order,drains,fits⟩
        obtain ⟨tree,_,plannable⟩ := plannable_of_drains drains (ordered_drain drains) fits
        exact ⟨tree,_,plannable⟩
      · rintro ⟨tree,_,plannable⟩
        obtain ⟨order,drains⟩ := plannable.unfolds.drains
        obtain ⟨tree',unfolds,same⟩ := drains.unfolds
        obtain rfl := plannable.unfolds.unique unfolds
        exact ⟨order,drains,(fits_of_plannable plannable same (ordered_drain drains)).1⟩
    · intro _ out holds
      obtain ⟨order,closure,drains,rest⟩ := holds
      exact ⟨order,closure,drains,rest⟩

variable {objects : Table Kappa ResolvedObject} {evaluate : ProviderContext → ProviderAvailability}
  {layers : List PlannedLayer} {applicationKappa : Kappa}

theorem evaluateLayerSet_available
    (available : ∀ layer ∈ (evaluateLayerSet applicationKappa objects evaluate layers).1,layer.provider.isAvailable) :
    (evaluateLayerSet applicationKappa objects evaluate layers).2 = [] := by
  unfold evaluateLayerSet at available ⊢
  dsimp only at available ⊢
  refine flatten_eq_nil_iff.mpr ?_
  intro blockers member
  obtain ⟨judged,among,rfl⟩ := mem_map.mp member
  have good := available judged.1 (mem_map.mpr ⟨judged,among,rfl⟩)
  obtain ⟨layer,_,rfl⟩ := mem_map.mp among
  cases found : objects[layer.contentKappa]? with
  | none => rfl
  | some object =>
    simp only [found] at good ⊢
    split
    · rename_i reason unavailable
      rw [unavailable] at good
      cases good
    · rfl

theorem evaluateLayerSet_held (held : ∀ layer ∈ layers,(objects[layer.contentKappa]?).isSome) :
    ∀ layer ∈ (evaluateLayerSet applicationKappa objects evaluate layers).1,(objects[layer.contentKappa]?).isSome := by
  unfold evaluateLayerSet
  intro layer member
  obtain ⟨judged,among,rfl⟩ := mem_map.mp member
  obtain ⟨layer,mine,rfl⟩ := mem_map.mp among
  have here := held layer mine
  cases found : objects[layer.contentKappa]? with
  | none => rw [found] at here; cases here
  | some object => simp [found]

namespace ApplicationPlanReport

structure Settled (report : ApplicationPlanReport) : Prop where
  clean : report.blockers = []
  requested : report.requestedCapabilities.isSome
  childrenRequested : ∀ child ∈ report.childAdmissions,child.requestedCapabilities.isSome
  held : ∀ layer ∈ report.layers,(report.objects[layer.contentKappa]?).isSome
  childrenHeld : ∀ child ∈ report.childAdmissions,∀ layer ∈ child.layers,
    (report.objects[layer.contentKappa]?).isSome

def ProvidersAvailable (report : ApplicationPlanReport) : Prop :=
  (∀ layer ∈ report.layers,layer.provider.isAvailable) ∧
    ∀ child ∈ report.childAdmissions,∀ layer ∈ child.layers,layer.provider.isAvailable

variable {report : ApplicationPlanReport}

theorem Settled.evaluated (settled : report.Settled) (evaluate : ProviderContext → ProviderAvailability)
    (available : (report.evaluateProviders evaluate).ProvidersAvailable) :
    (report.evaluateProviders evaluate).Settled := by
  obtain ⟨rootAvailable,childrenAvailable⟩ := available
  unfold evaluateProviders at rootAvailable childrenAvailable ⊢
  dsimp only at rootAvailable childrenAvailable ⊢
  refine ⟨?_,settled.requested,?_,evaluateLayerSet_held settled.held,?_⟩
  · rw [settled.clean,evaluateLayerSet_available rootAvailable]
    refine flatten_eq_nil_iff.mpr ?_
    intro blockers member
    obtain ⟨judged,among,rfl⟩ := mem_map.mp member
    have good := childrenAvailable judged.1 (mem_map.mpr ⟨judged,among,rfl⟩)
    obtain ⟨child,_,rfl⟩ := mem_map.mp among
    exact evaluateLayerSet_available good
  · intro child member
    obtain ⟨judged,among,rfl⟩ := mem_map.mp member
    obtain ⟨child,mine,rfl⟩ := mem_map.mp among
    exact settled.childrenRequested child mine
  · intro child member
    obtain ⟨judged,among,rfl⟩ := mem_map.mp member
    obtain ⟨child,mine,rfl⟩ := mem_map.mp among
    exact evaluateLayerSet_held (settled.childrenHeld child mine)

theorem strictLayer_ok (applicationKappa : Kappa)
    (held : (objects[layer.contentKappa]?).isSome) (available : layer.provider.isAvailable) :
    ∃ resolved,strictLayer applicationKappa objects layer = .ok resolved := by
  obtain ⟨object,found⟩ := Option.isSome_iff_exists.mp held
  unfold strictLayer
  rw [found]
  cases provided : layer.provider with
  | available provider => exact ⟨_,rfl⟩
  | unchecked => rw [provided] at available; cases available
  | unavailable reason => rw [provided] at available; cases available

theorem strictChild_ok
    (requested : child.requestedCapabilities.isSome) (held : ∀ layer ∈ child.layers,(objects[layer.contentKappa]?).isSome)
    (available : ∀ layer ∈ child.layers,layer.provider.isAvailable) :
    ∃ resolved,strictChild objects child = .ok resolved := by
  obtain ⟨layers,resolved⟩ := mapM_succeeds fun layer mine =>
    strictLayer_ok child.applicationKappa (held layer mine) (available layer mine)
  obtain ⟨capabilities,some⟩ := Option.isSome_iff_exists.mp requested
  unfold strictChild
  rw [ok_bind resolved,some]
  exact ⟨_,rfl⟩

theorem Settled.plan (settled : report.Settled)
    (available : report.ProvidersAvailable) : ∃ plan,report.intoApplicationPlan = .ok plan := by
  obtain ⟨capabilities,requested⟩ := Option.isSome_iff_exists.mp settled.requested
  obtain ⟨layers,rootResolved⟩ := mapM_succeeds fun layer mine =>
    strictLayer_ok report.identity.applicationKappa (settled.held layer mine)
      (available.1 layer mine)
  obtain ⟨children,childrenResolved⟩ := mapM_succeeds fun child mine =>
    strictChild_ok (settled.childrenRequested child mine) (settled.childrenHeld child mine) (available.2 child mine)
  unfold intoApplicationPlan
  rw [settled.clean,requested]
  dsimp only
  rw [ok_bind rootResolved,ok_bind childrenResolved]
  exact ⟨_,rfl⟩

end ApplicationPlanReport
theorem withSources_fields (objects : Table Kappa ResolvedObject) (layers : List PlannedLayer) :
    (withSources objects layers).map (fun layer => (layer.position,layer.kind,layer.contentKappa,layer.entry,layer.aux)) =
      layers.map fun layer => (layer.position,layer.kind,layer.contentKappa,layer.entry,layer.aux) := by
  simp [withSources]

theorem mem_withSources {manifest : AppManifest}
    (member : layer ∈ withSources objects (plannedLayers manifest)) : layer.contentKappa ∈ manifest.references := by
  obtain ⟨planned,among,rfl⟩ := mem_map.mp member
  obtain ⟨entry,mine,rfl⟩ := mem_map.mp among
  refine mem_append_left _ (mem_cons_of_mem _ (mem_map.mpr ⟨entry.1,?_,rfl⟩))
  exact fst_mem_of_mem_zipIdx mine

section Report
variable {archive : OpenedArchive} {order : List Occurrence} {closure : ClosureResolver}

def cleanReport (hologram : Hologram) (sources : Sources) (limits : PlanLimits) (archive : OpenedArchive)
    (order : List Occurrence) (closure : ClosureResolver) : ApplicationPlanReport :=
  (cleanWalk hologram sources archive.rootOccurrence order.length (childEdges order) (layerTotal order)
    closure).report limits archive

def listedAdmission (hologram : Hologram) (sources : Sources) (objects : Table Kappa ResolvedObject) (index : Nat)
    (edge : ChildEdge) : PendingChildAdmission :=
  let kid := edge.kid hologram sources
  ⟨min edge.position u32Max,edge.parentIndex,edge.parent.kappa,index+1,edge.child.1,
    (sources.delegated hologram edge.child.2).getD ⟨[],[],emptyCapabilities⟩,
    sources.requested hologram kid.manifest.requires,kid.manifest.primary,
    withSources objects (plannedLayers kid.manifest)⟩

theorem cleanReport_admissions (ordered : Ordered hologram sources archive.rootOccurrence order) :
    (cleanReport hologram sources limits archive order closure).childAdmissions =
      (childEdges order).zipIdx.map fun entry => listedAdmission hologram sources closure.objects entry.2 entry.1 := by
  show (((childEdges order).zipIdx.map (ChildEdge.admission hologram sources order.length)).map _) = _
  rw [map_map]
  refine map_congr_left fun entry member => ?_
  have short := snd_lt_of_mem_zipIdx member
  have visited : entry.2+1 < order.length := by
    rw [ordered.listed,length_cons,length_map]
    omega
  simp [ChildEdge.admission,listedAdmission,visited]
  rfl

theorem edge_parts (member : edge ∈ childEdges order) :
    order[edge.parentIndex]? = some edge.parent ∧ edge.child ∈ edge.parent.manifest.children := by
  obtain ⟨entry,among,mine⟩ := mem_flatMap.mp member
  obtain ⟨child,childMine,rfl⟩ := mem_map.mp mine
  exact ⟨mem_zipIdx_iff_getElem?.mp among,fst_mem_of_mem_zipIdx childMine⟩

theorem listedAdmission_admits (ordered : Ordered hologram sources archive.rootOccurrence order)
    (fits : Walk.Fits hologram sources limits order) (objects : Table Kappa ResolvedObject)
    (at_ : (childEdges order)[i]? = some edge) :
    Admits hologram sources i edge (listedAdmission hologram sources objects i edge) := by
  have member := mem_of_getElem? at_
  obtain ⟨parentAt,childMine⟩ := edge_parts member
  have parentSound := fits.sound edge.parent (mem_of_getElem? parentAt)
  have kidSound : (edge.kid hologram sources).Sound hologram sources limits := by
    refine fits.sound _ ?_
    rw [ordered.listed]
    exact mem_cons_of_mem _ (mem_map.mpr ⟨edge,member,rfl⟩)
  obtain ⟨delegated,decoded⟩ := Option.isSome_iff_exists.mp (parentSound.delegated edge.child childMine)
  obtain ⟨requested,named⟩ := Option.isSome_iff_exists.mp kidSound.requested
  refine ⟨rfl,rfl,rfl,rfl,rfl,?_,⟨requested,named,named⟩,rfl,withSources_fields _ _⟩
  rw [decoded]
  simp [listedAdmission,decoded]

theorem cleanReport_complete (plannable : Plannable hologram sources limits archive.rootOccurrence tree kappas)
    (drains : Drains (expand hologram sources) [archive.rootOccurrence] order)
    (fits : Walk.Fits hologram sources limits order)
    (collected : Collected hologram sources limits (askedBy order) closure) :
    Complete hologram sources archive.rootOccurrence tree kappas
      (cleanReport hologram sources limits archive order closure) := by
  have ordered := ordered_drain drains
  obtain ⟨tree',unfolds,same⟩ := drains.unfolds
  obtain rfl := plannable.unfolds.unique unfolds
  obtain ⟨_,closed⟩ := fits_of_plannable plannable same ordered
  refine ⟨?_,?_,order,same,ordered,?_,?_⟩
  · intro kappa
    rw [closed]
    simp only [mem_toFinset]
    exact collected.objects kappa
  · show (if order.length = 0 then none else sources.requested hologram archive.rootOccurrence.manifest.requires) = _
    rw [ordered.listed]
    rfl
  · rw [cleanReport_admissions ordered,length_map,length_zipIdx]
  · intro i edge at_
    refine ⟨listedAdmission hologram sources closure.objects i edge,?_,listedAdmission_admits ordered fits _ at_⟩
    rw [cleanReport_admissions ordered,getElem?_map,getElem?_zipIdx,at_]
    simp

theorem cleanReport_settled (drains : Drains (expand hologram sources) [archive.rootOccurrence] order)
    (fits : Walk.Fits hologram sources limits order)
    (collected : Collected hologram sources limits (askedBy order) closure)
    (primary : archive.manifest.primary.isSome) (same : archive.rootPlanManifest = archive.manifest) :
    (cleanReport hologram sources limits archive order closure).Settled := by
  have ordered := ordered_drain drains
  have rootMember : archive.rootOccurrence ∈ order := by
    rw [ordered.listed]
    exact mem_cons_self
  have held (application : Occurrence) (member : application ∈ order) (kappa : Kappa)
      (mine : kappa ∈ application.manifest.references) : (closure.objects[kappa]?).isSome := by
    have asked : kappa ∈ askedBy order := mem_flatMap.mpr ⟨application,member,mine⟩
    rw [collected.objects,if_pos asked]
    exact collected.within.resolvable kappa asked
  refine ⟨?_,?_,?_,?_,?_⟩
  · show closure.blockers ++ (if archive.manifest.primary.isNone then [PlanBlocker.libraryArchive] else []) = []
    rw [collected.blockers]
    simp [Option.isSome_iff_ne_none.mp primary]
  · show (if order.length = 0 then none else
      sources.requested hologram archive.rootOccurrence.manifest.requires).isSome
    rw [ordered.listed]
    exact (fits.sound _ rootMember).requested
  · intro child member
    rw [cleanReport_admissions ordered] at member
    obtain ⟨entry,among,rfl⟩ := mem_map.mp member
    obtain ⟨_,named,requested⟩ := (listedAdmission_admits ordered fits closure.objects
      (mem_zipIdx_iff_getElem?.mp among)).requested
    rw [requested]
    rfl
  · intro layer member
    refine held _ rootMember _ ?_
    show layer.contentKappa ∈ archive.rootPlanManifest.references
    rw [same]
    exact mem_withSources member
  · intro child member layer mine
    rw [cleanReport_admissions ordered] at member
    obtain ⟨entry,among,rfl⟩ := mem_map.mp member
    refine held (entry.1.kid hologram sources) ?_ _ (mem_withSources mine)
    rw [ordered.listed]
    exact mem_cons_of_mem _ (mem_map.mpr ⟨entry.1,fst_mem_of_mem_zipIdx among,rfl⟩)

end Report
theorem explainOpened_clean
    {report : ApplicationPlanReport} (explained : explainOpened hologram archive limits resolveLocal = .ok report)
    (clean : report.blockers = []) : archive.manifest.primary.isSome ∧ ∃ order closure,
      Drains (expand hologram ⟨archive.embedded,resolveLocal⟩) [archive.rootOccurrence] order ∧
      Walk.Fits hologram ⟨archive.embedded,resolveLocal⟩ limits order ∧
      Collected hologram ⟨archive.embedded,resolveLocal⟩ limits (askedBy order) closure ∧
      report = cleanReport hologram ⟨archive.embedded,resolveLocal⟩ limits archive order closure := by
  unfold explainOpened at explained
  cases ran : (start limits archive).run hologram ⟨archive.embedded,resolveLocal⟩ limits limits.maxApplications with
  | error e => rw [ran] at explained; cases explained
  | ok walk =>
    rw [ran] at explained
    cases explained
    obtain ⟨unblocked,runnable⟩ := append_eq_nil_iff.mp
      (show walk.closure.blockers ++ (if archive.manifest.primary.isNone then [PlanBlocker.libraryArchive] else []) = []
        from clean)
    refine ⟨?_,?_⟩
    · cases primary : archive.manifest.primary with
      | none => rw [primary] at runnable; cases runnable
      | some position => rfl
    · have settles := @start_settles hologram ⟨archive.embedded,resolveLocal⟩ limits archive
      by_cases plannable : ∃ tree closure,
          Plannable hologram ⟨archive.embedded,resolveLocal⟩ limits archive.rootOccurrence tree closure
      · obtain ⟨_,ran',order,closure,drains,fits,collected,rfl⟩ := settles.succeeds plannable
        cases ran.symm.trans ran'; exact ⟨order,closure,drains,fits,collected,rfl⟩
      · exact absurd unblocked (settles.fails plannable walk ran)

-- The planner finds no blocker exactly when the archive has a primary layer and its
-- application tree can be planned; the report then has the whole tree, and becomes
-- a plan as soon as every layer has a provider.
theorem explainApplication_clean_iff (reads : hologram.ManifestReadsBack) {archiveBytes : Bytes} (limits : PlanLimits)
    (resolveLocal : Kappa → Except LiveError (Option Bytes)) {archive : OpenedArchive}
    (opened : openArchive hologram archiveBytes = .ok archive) :
    ((∃ report,explainApplication hologram archiveBytes limits resolveLocal = .ok report ∧ report.blockers = []) ↔
      archive.manifest.primary.isSome ∧ ∃ tree closure,Plannable hologram ⟨archive.embedded,resolveLocal⟩ limits
        ⟨archive.manifest,[archive.identity.applicationKappa]⟩ tree closure) ∧
    ∀ report,explainApplication hologram archiveBytes limits resolveLocal = .ok report → report.blockers = [] →
      ∃ tree closure,
        Plannable hologram ⟨archive.embedded,resolveLocal⟩ limits ⟨archive.manifest,[archive.identity.applicationKappa]⟩
          tree closure ∧
        Complete hologram ⟨archive.embedded,resolveLocal⟩ ⟨archive.manifest,[archive.identity.applicationKappa]⟩ tree
          closure report ∧ ∀ evaluate,(report.evaluateProviders evaluate).ProvidersAvailable →
          ∃ plan,(report.evaluateProviders evaluate).intoApplicationPlan = .ok plan := by
  have same := openArchive_manifest reads opened
  have root : archive.rootOccurrence = ⟨archive.manifest,[archive.identity.applicationKappa]⟩ := by
    rw [←same]; rfl
  rw [←root]
  have explains (report : ApplicationPlanReport)
      (explained : explainApplication hologram archiveBytes limits resolveLocal = .ok report) :
      explainOpened hologram archive limits resolveLocal = .ok report := by
    unfold explainApplication at explained
    rwa [ok_bind opened] at explained
  refine ⟨⟨?_,?_⟩,?_⟩
  · intro ⟨report,explained,clean⟩
    obtain ⟨primary,order,closure,drains,fits,_,_⟩ := explainOpened_clean (explains report explained) clean
    obtain ⟨tree,_,plannable⟩ := plannable_of_drains drains (ordered_drain drains) fits
    exact ⟨primary,tree,_,plannable⟩
  · intro ⟨primary,plannable⟩
    obtain ⟨walk,ran,order,closure,drains,fits,collected,rfl⟩ := (start_settles archive).succeeds plannable
    refine ⟨cleanReport hologram ⟨archive.embedded,resolveLocal⟩ limits archive order closure,?_,
      (cleanReport_settled drains fits collected primary same).clean⟩
    unfold explainApplication explainOpened
    rw [ok_bind opened,ran]
    rfl
  · intro report explained clean
    obtain ⟨primary,order,closure,drains,fits,collected,rfl⟩ := explainOpened_clean (explains report explained) clean
    obtain ⟨tree,_,plannable⟩ := plannable_of_drains drains (ordered_drain drains) fits
    refine ⟨tree,_,plannable,cleanReport_complete plannable drains fits collected,?_⟩
    intro evaluate available
    exact ((cleanReport_settled drains fits collected primary same).evaluated evaluate available).plan available

def cleanAnswer (answer : Except LiveError ApplicationPlanReport) : Bool :=
  match answer with
  | .ok report => report.blockers.isEmpty
  | .error _ => false

theorem cleanAnswer_ok (clean : cleanAnswer answer = true) : ∃ report,answer = .ok report ∧ report.blockers = [] := by
  cases answer with
  | error e => cases clean
  | ok report => exact ⟨report,rfl,isEmpty_iff.mp clean⟩

theorem family_plannable : ∃ archive,openArchive family familyArchive = .ok archive ∧ archive.manifest.primary.isSome ∧
    ∃ tree closure,Plannable family ⟨archive.embedded,fun _ => .ok none⟩ .default
      ⟨archive.manifest,[archive.identity.applicationKappa]⟩ tree closure := by
  have clean := cleanAnswer_ok (show cleanAnswer
    (explainApplication family familyArchive .default fun _ => .ok none) = true by decide)
  have reads : family.ManifestReadsBack := tabled_readsBack (by decide) _ _ _
  obtain ⟨report,explained,unblocked⟩ := clean
  obtain ⟨archive,opened,_⟩ := bind_ok explained
  have planned := (explainApplication_clean_iff reads .default _ opened).1.mp ⟨report,explained,unblocked⟩
  exact ⟨archive,opened,planned⟩

end HologramLive
