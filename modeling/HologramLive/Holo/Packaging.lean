import HologramLive.Holo.PlanErase
import HologramLive.Holo.Opening
import HologramLive.Holo.Tabled
namespace HologramLive
open Tables Fallible List
variable {hologram : Hologram} {limits : PlanLimits}

def PlannedLayer.erased (layer : PlannedLayer) : PlannedLayer :=
  {layer with resolutionSource := erasedSource layer.resolutionSource}

def PendingChildAdmission.erased (admission : PendingChildAdmission) : PendingChildAdmission :=
  {admission with layers := admission.layers.map PlannedLayer.erased}

def ResolvedLayer.erased (layer : ResolvedLayer) : ResolvedLayer := {layer with resolutionSource := .localStore}

def ResolvedChild.erased (child : ResolvedChild) : ResolvedChild :=
  {child with layers := child.layers.map ResolvedLayer.erased}

def HoloIdentity.erased (identity : HoloIdentity) : HoloIdentity := ⟨[],[],identity.applicationKappa⟩

def ApplicationPlanReport.erased (report : ApplicationPlanReport) : ApplicationPlanReport :=
  {report with
    identity := report.identity.erased
    layers := report.layers.map PlannedLayer.erased
    children := report.children.map ChildReference.erased
    objects := report.objects.map fun _ object => object.erased
    blockers := report.blockers.map PlanBlocker.erased
    embeddedObjectCount := 0
    childAdmissions := report.childAdmissions.map PendingChildAdmission.erased}

def ApplicationPlan.erased (plan : ApplicationPlan) : ApplicationPlan :=
  {plan with
    identity := plan.identity.erased
    layers := plan.layers.map ResolvedLayer.erased
    children := plan.children.map ResolvedChild.erased
    objects := plan.objects.map fun _ object => object.erased}

def OpenedArchive.erased (archive : OpenedArchive) : OpenedArchive :=
  {archive with identity := archive.identity.erased,embedded := ∅}

variable (objects : Table Kappa ResolvedObject)

theorem withSources_erased (layers : List PlannedLayer) : (withSources objects layers).map PlannedLayer.erased =
      withSources (objects.map fun _ object => object.erased) layers := by
  unfold withSources
  rw [map_map]
  refine map_congr_left fun layer _ => ?_
  simp only [Function.comp,PlannedLayer.erased,erasedSource,Std.ExtTreeMap.getElem?_map]
  cases objects[layer.contentKappa]? <;> rfl

variable (archive : OpenedArchive)

theorem report_erased (walk : Walk) :
    (walk.report limits archive).erased = walk.erased.report limits archive.erased := by
  unfold Walk.report ApplicationPlanReport.erased
  simp only [withSources_erased]
  simp [Walk.erased,ClosureResolver.erased,OpenedArchive.erased,PendingChildAdmission.erased,withSources_erased]
  split <;> rfl

theorem start_erased : (Walk.start limits archive).erased = Walk.start limits archive.erased := by
  unfold Walk.start
  dsimp only
  split
  · rfl
  · simp [Walk.erased,ClosureResolver.erased,ClosureResolver.empty,OpenedArchive.erased,HoloIdentity.erased]

theorem explainOpened_erased (resolveLocal : Kappa → Except LiveError (Option Bytes)) :
    (explainOpened hologram archive limits resolveLocal).map ApplicationPlanReport.erased =
      explainOpened hologram archive.erased limits (Sources.mk archive.embedded resolveLocal).erased.resolveLocal := by
  have run := Walk.run_erased hologram ⟨archive.embedded,resolveLocal⟩ limits limits.maxApplications
    (Walk.start limits archive)
  rw [start_erased] at run
  unfold explainOpened
  rw [show (⟨archive.erased.embedded,(Sources.mk archive.embedded resolveLocal).erased.resolveLocal⟩ : Sources) =
    (Sources.mk archive.embedded resolveLocal).erased from rfl,run]
  cases (Walk.start limits archive).run hologram ⟨archive.embedded,resolveLocal⟩ limits limits.maxApplications with
  | error e => rfl
  | ok walk => exact congrArg Except.ok (report_erased archive walk)

namespace ApplicationPlanReport

theorem evaluateLayerSet_erased (applicationKappa : Kappa) (objects : Table Kappa ResolvedObject)
    (evaluate : ProviderContext → ProviderAvailability) (layers : List PlannedLayer) :
    evaluateLayerSet applicationKappa (objects.map fun _ object => object.erased) evaluate
        (layers.map PlannedLayer.erased) =
      ((evaluateLayerSet applicationKappa objects evaluate layers).1.map PlannedLayer.erased,
        (evaluateLayerSet applicationKappa objects evaluate layers).2.map PlanBlocker.erased) := by
  unfold evaluateLayerSet
  dsimp only
  simp only [map_map,map_flatten,length_map]
  refine Prod.ext (map_congr_left fun layer _ => ?_) (congrArg flatten (map_congr_left fun layer _ => ?_))
  · simp only [Function.comp,PlannedLayer.erased,Std.ExtTreeMap.getElem?_map]
    cases objects[layer.contentKappa]? <;> rfl
  · simp only [Function.comp,PlannedLayer.erased,Std.ExtTreeMap.getElem?_map]
    cases objects[layer.contentKappa]? with
    | none => rfl
    | some object =>
      dsimp only [Option.map_some,ResolvedObject.erased]
      split <;> rfl

theorem evaluateProviders_erased (report : ApplicationPlanReport) (evaluate : ProviderContext → ProviderAvailability) :
    (report.evaluateProviders evaluate).erased = report.erased.evaluateProviders evaluate := by
  unfold evaluateProviders erased
  dsimp only
  rw [evaluateLayerSet_erased]
  simp only [map_append,map_flatten,map_map]
  have each (child : PendingChildAdmission) :
      evaluateLayerSet child.erased.applicationKappa (report.objects.map fun _ object => object.erased) evaluate
        child.erased.layers =
      ((evaluateLayerSet child.applicationKappa report.objects evaluate child.layers).1.map PlannedLayer.erased,
        (evaluateLayerSet child.applicationKappa report.objects evaluate child.layers).2.map PlanBlocker.erased) :=
    evaluateLayerSet_erased child.applicationKappa report.objects evaluate child.layers
  simp only [Function.comp_def,each]
  rfl

theorem strictLayer_erased (applicationKappa : Kappa) (objects : Table Kappa ResolvedObject) (layer : PlannedLayer) :
    strictLayer applicationKappa (objects.map fun _ object => object.erased) layer.erased =
      (strictLayer applicationKappa objects layer).map ResolvedLayer.erased := by
  unfold strictLayer
  rw [show layer.erased.contentKappa = layer.contentKappa from rfl,Std.ExtTreeMap.getElem?_map]
  cases objects[layer.contentKappa]? with
  | none => rfl
  | some object =>
    dsimp only [Option.map_some]
    rw [show layer.erased.provider = layer.provider from rfl]
    cases layer.provider <;> rfl

theorem strictChild_erased (child : PendingChildAdmission) :
    strictChild (objects.map fun _ object => object.erased) child.erased =
      (strictChild objects child).map ResolvedChild.erased := by
  unfold strictChild
  refine bind_map (mapM_map (strictLayer_erased child.applicationKappa objects) child.layers) fun layers => ?_
  rw [show child.erased.requestedCapabilities = child.requestedCapabilities from rfl]
  cases child.requestedCapabilities <;> rfl

theorem intoApplicationPlan_erased {report : ApplicationPlanReport} (clean : report.blockers = []) :
    report.erased.intoApplicationPlan = report.intoApplicationPlan.map ApplicationPlan.erased := by
  unfold intoApplicationPlan
  rw [show report.erased.blockers = [] by simp [erased,clean],clean]
  dsimp only
  rw [show report.erased.requestedCapabilities = report.requestedCapabilities from rfl]
  cases report.requestedCapabilities with
  | none => rfl
  | some requested =>
    dsimp only
    refine bind_map (mapM_map (strictLayer_erased report.identity.applicationKappa report.objects) report.layers)
      fun layers => ?_
    exact bind_map (mapM_map (strictChild_erased report.objects) report.childAdmissions) fun children => rfl

end ApplicationPlanReport

namespace ApplicationPlan

theorem admitChildren_erased (grants : Table Nat EffectiveGrant) (children : List ResolvedChild) :
    admitChildren hologram grants (children.map ResolvedChild.erased) = admitChildren hologram grants children := by
  induction children generalizing grants with
  | nil => rfl
  | cons child rest ih =>
    rw [map_cons]
    unfold admitChildren
    rw [show child.erased.parentApplicationIndex = child.parentApplicationIndex from rfl]
    cases grants[child.parentApplicationIndex]? with
    | none => rfl
    | some parent =>
      dsimp only
      rw [show authorizeChildDelegation hologram child.erased.parentApplicationKappa parent.kappa parent.capabilities
          child.erased.applicationKappa child.erased.delegatedCapabilities child.erased.requestedCapabilities =
        authorizeChildDelegation hologram child.parentApplicationKappa parent.kappa parent.capabilities
          child.applicationKappa child.delegatedCapabilities child.requestedCapabilities from rfl]
      cases authorizeChildDelegation hologram child.parentApplicationKappa parent.kappa parent.capabilities
          child.applicationKappa child.delegatedCapabilities child.requestedCapabilities with
      | error e => rfl
      | ok _ =>
        dsimp only; rw [ih]
        rfl

theorem admittedGrantsWith_erased (plan : ApplicationPlan) (grant : EffectiveGrant) :
    plan.erased.admittedGrantsWith hologram grant = plan.admittedGrantsWith hologram grant := by
  unfold admittedGrantsWith
  rw [show plan.erased.children = plan.children.map ResolvedChild.erased from rfl,admitChildren_erased]
  rfl

end ApplicationPlan
-- A split of one set of objects: some of them embedded, the others had from the
-- local store.
structure Splits (object : Kappa → Option Bytes) (embedded : Table Kappa Bytes)
    (resolveLocal : Kappa → Except LiveError (Option Bytes)) : Prop where
  inside : ∀ kappa bytes,embedded[kappa]? = some bytes → object kappa = some bytes
  outside : ∀ kappa : Kappa,embedded[kappa]? = none → resolveLocal kappa = .ok (object kappa)

theorem splits_erased (splits : Splits object embedded resolveLocal) :
    (Sources.mk embedded resolveLocal).erased.resolveLocal = fun kappa => .ok (object kappa) := by
  funext kappa
  show (Sources.lookup ⟨embedded,resolveLocal⟩ kappa).map _ = _
  unfold Sources.lookup
  cases found : embedded[kappa]? with
  | some bytes => simp [splits.inside kappa bytes found,Except.map]
  | none =>
    simp only [splits.outside kappa found]
    cases object kappa <;> rfl

open ApplicationPlanReport

-- Two archives of one application, whose objects are split between archive and
-- local store in two ways, have one plan; only where its bytes were found, the
-- archive file's own identity and the count of embedded objects differ.
theorem packaging_independent {bytes₁ bytes₂ : Bytes} {archive₁ archive₂ : OpenedArchive}
    (opened₁ : openArchive hologram bytes₁ = .ok archive₁) (opened₂ : openArchive hologram bytes₂ = .ok archive₂)
    (same : archive₁.manifest = archive₂.manifest) {object : Kappa → Option Bytes}
    {local₁ local₂ : Kappa → Except LiveError (Option Bytes)} (splits₁ : Splits object archive₁.embedded local₁)
    (splits₂ : Splits object archive₂.embedded local₂) (limits : PlanLimits) :
    (explainApplication hologram bytes₁ limits local₁).map ApplicationPlanReport.erased =
      (explainApplication hologram bytes₂ limits local₂).map ApplicationPlanReport.erased ∧
    ∀ report₁ report₂,explainApplication hologram bytes₁ limits local₁ = .ok report₁ →
      explainApplication hologram bytes₂ limits local₂ = .ok report₂ →
      ∀ evaluate plan₁,(report₁.evaluateProviders evaluate).intoApplicationPlan = .ok plan₁ →
        ∃ plan₂,(report₂.evaluateProviders evaluate).intoApplicationPlan = .ok plan₂ ∧ plan₁.erased = plan₂.erased ∧
          ∀ grant,plan₁.admittedGrantsWith hologram grant = plan₂.admittedGrantsWith hologram grant := by
  have alike : archive₁.erased = archive₂.erased := by
    obtain ⟨_,_,_,_,first⟩ := openArchive_cases opened₁
    obtain ⟨_,_,_,_,second⟩ := openArchive_cases opened₂
    have rereads : archive₁.rootPlanManifest = archive₂.rootPlanManifest := by
      have reread := first.reread
      rw [same] at reread
      exact Except.ok.inj (reread.symm.trans second.reread)
    unfold OpenedArchive.erased HoloIdentity.erased
    rw [first.applicationKappa,second.applicationKappa,same,rereads]
  have explained : (explainApplication hologram bytes₁ limits local₁).map ApplicationPlanReport.erased =
      (explainApplication hologram bytes₂ limits local₂).map ApplicationPlanReport.erased := by
    unfold explainApplication
    rw [ok_bind opened₁,ok_bind opened₂,explainOpened_erased,explainOpened_erased,splits_erased splits₁,
      splits_erased splits₂,alike]
  refine ⟨explained,?_⟩
  intro report₁ report₂ ran₁ ran₂ evaluate plan₁ into₁
  rw [ran₁,ran₂] at explained
  have reports : report₁.erased = report₂.erased := Except.ok.inj explained
  have evaluated : (report₁.evaluateProviders evaluate).erased = (report₂.evaluateProviders evaluate).erased := by
    rw [evaluateProviders_erased,evaluateProviders_erased,reports]
  have clean₁ : (report₁.evaluateProviders evaluate).blockers = [] := by
    unfold ApplicationPlanReport.intoApplicationPlan at into₁
    split at into₁
    · cases into₁
    · assumption
  have clean₂ : (report₂.evaluateProviders evaluate).blockers = [] := by
    have blockers := congrArg ApplicationPlanReport.blockers evaluated
    rw [show (report₁.evaluateProviders evaluate).erased.blockers = [] by
      simp [ApplicationPlanReport.erased,clean₁]] at blockers
    exact map_eq_nil_iff.mp blockers.symm
  have plans : (report₁.evaluateProviders evaluate).intoApplicationPlan.map ApplicationPlan.erased =
      (report₂.evaluateProviders evaluate).intoApplicationPlan.map ApplicationPlan.erased := by
    rw [←intoApplicationPlan_erased clean₁,
      ←intoApplicationPlan_erased clean₂,evaluated]
  rw [into₁] at plans
  cases into₂ : (report₂.evaluateProviders evaluate).intoApplicationPlan with
  | error e => rw [into₂] at plans; cases plans
  | ok plan₂ =>
    rw [into₂] at plans
    have alike : plan₁.erased = plan₂.erased := Except.ok.inj plans
    refine ⟨plan₂,rfl,alike,fun grant => ?_⟩
    rw [←ApplicationPlan.admittedGrantsWith_erased plan₁,alike,ApplicationPlan.admittedGrantsWith_erased]

theorem family_opens : ∃ fat thin,openArchive family familyArchive = .ok fat ∧
    openArchive family thinArchive = .ok thin ∧ fat.manifest = thin.manifest ∧ thin.embedded.isEmpty := by
  have fat : (openArchive family familyArchive).toOption.map (·.manifest) = some familyParent := by decide
  have thin : (openArchive family thinArchive).toOption.map (fun archive => (archive.manifest,archive.embedded.isEmpty)) =
      some (familyParent,true) := by decide
  obtain ⟨archive₁,opened₁,manifest₁⟩ := Option.map_eq_some_iff.mp fat
  obtain ⟨archive₂,opened₂,both⟩ := Option.map_eq_some_iff.mp thin
  obtain ⟨manifest₂,none⟩ := Prod.mk.inj both
  exact ⟨archive₁,archive₂,ok_of_toOption opened₁,ok_of_toOption opened₂,manifest₁.trans manifest₂.symm,none⟩

theorem family_plans_alike : ∃ fat,openArchive family familyArchive = .ok fat ∧
    (explainApplication family familyArchive .default fun _ => .ok none).map ApplicationPlanReport.erased =
      (explainApplication family thinArchive .default fun kappa => .ok fat.embedded[kappa]?).map
        ApplicationPlanReport.erased := by
  obtain ⟨fat,thin,opened₁,opened₂,same,empty⟩ := family_opens
  have splits₁ : Splits (fun kappa => fat.embedded[kappa]?) fat.embedded fun _ => .ok none := by
    refine ⟨fun _ _ found => found,fun kappa absent => ?_⟩
    rw [absent]
  have splits₂ : Splits (fun kappa => fat.embedded[kappa]?) thin.embedded fun kappa => .ok fat.embedded[kappa]? := by
    refine ⟨fun kappa bytes found => ?_,fun _ _ => rfl⟩
    rw [Std.ExtTreeMap.isEmpty_iff.mp empty] at found
    simp at found
  exact ⟨fat,opened₁,(packaging_independent opened₁ opened₂ same splits₁ splits₂ .default).1⟩

end HologramLive
