import HologramLive.Holo.PlanRules
namespace HologramLive
open Tables Fallible Option
variable (hologram : Hologram) (sources : Sources) (limits : PlanLimits)

def ResolvedObject.erased (object : ResolvedObject) : ResolvedObject := {object with source := .localStore}

def ResolutionFailure.erased : ResolutionFailure → ResolutionFailure
  | .missing => .missing
  | .mismatch _ => .mismatch .localStore

def PlanBlocker.erased : PlanBlocker → PlanBlocker
  | .contentMismatch kappa edge _ => .contentMismatch kappa edge .localStore
  | blocker => blocker

def erasedSource (source : Option ResolutionSource) : Option ResolutionSource := source.map fun _ => .localStore

def ChildReference.erased (reference : ChildReference) : ChildReference :=
  {reference with
    applicationResolutionSource := erasedSource reference.applicationResolutionSource
    capabilitiesResolutionSource := erasedSource reference.capabilitiesResolutionSource}

def ClosureResolver.erased (closure : ClosureResolver) : ClosureResolver :=
  {closure with
    failures := closure.failures.map fun _ failure => failure.erased
    objects := closure.objects.map fun _ object => object.erased
    blockers := closure.blockers.map PlanBlocker.erased
    embeddedObjectCount := 0}

def Walk.erased (walk : Walk) : Walk :=
  {walk with closure := walk.closure.erased,children := walk.children.map ChildReference.erased}

def Sources.erased : Sources := ⟨∅,fun kappa => (sources.lookup kappa).map fun found => found.map (·.1)⟩

theorem lookup_erased (kappa : Kappa) : sources.erased.lookup kappa =
    (sources.lookup kappa).map fun found => found.map fun bytes => (bytes.1,.localStore) := by
  unfold Sources.erased
  rw [Sources.lookup]
  simp only [Std.ExtTreeMap.getElem?_empty]
  cases sources.lookup kappa with
  | error e => rfl
  | ok found => cases found <;> rfl

theorem blocker_erased (failure : ResolutionFailure) (kappa : Kappa) (edge : ManifestEdge) :
    (failure.blocker kappa edge).erased = failure.erased.blocker kappa edge := by cases failure <;> rfl

theorem map_insert {α β : Type} (table : Table Kappa α) (view : α → β) (kappa : Kappa) (value : α) :
    (table.insert kappa value).map (fun _ value => view value) =
      (table.map fun _ value => view value).insert kappa (view value) := by
  refine table_ext fun other => ?_
  rw [get_insert,Std.ExtTreeMap.getElem?_map,Std.ExtTreeMap.getElem?_map,get_insert]
  split <;> rfl

namespace ClosureResolver
variable (closure : ClosureResolver)

theorem block_erased (blocker : PlanBlocker) : (closure.block blocker).erased = closure.erased.block blocker.erased := by
  simp [block,erased]

theorem fail_erased (kappa : Kappa) (edge : ManifestEdge) (failure : ResolutionFailure) :
    (closure.fail kappa edge failure).erased = closure.erased.fail kappa edge failure.erased := by
  unfold fail
  rw [block_erased,blocker_erased]
  simp only [erased,map_insert]

theorem halt_erased (blocker : PlanBlocker) : (closure.halt blocker).erased = closure.erased.halt blocker.erased := by
  unfold halt
  rw [←block_erased]
  rfl

theorem refer_erased (kappa : Kappa) :
    closure.erased.refer sources.erased limits kappa = (closure.refer sources limits kappa).map erased := by
  unfold refer
  by_cases met : kappa ∈ closure.referenced
  · rw [if_pos met,if_pos (show kappa ∈ closure.erased.referenced from met)]
    rfl
  · rw [if_neg met,if_neg (show kappa ∉ closure.erased.referenced from met)]
    dsimp only
    by_cases beyond : limits.maxObjects < saturatingAdd closure.referenced.size 1
    · rw [if_pos beyond,if_pos (show limits.maxObjects < saturatingAdd closure.erased.referenced.size 1 from beyond)]
      rfl
    · rw [if_neg beyond,if_neg (show ¬limits.maxObjects < saturatingAdd closure.erased.referenced.size 1 from beyond)]
      have nowhere : (sources.erased.embedded[kappa]?).isSome = false := by simp [Sources.erased]
      rw [nowhere]
      rfl

theorem objects_erased (kappa : Kappa) :
    closure.erased.objects[kappa]? = (closure.objects[kappa]?).map ResolvedObject.erased := by
  simp [erased]

theorem failures_erased (kappa : Kappa) :
    closure.erased.failures[kappa]? = (closure.failures[kappa]?).map ResolutionFailure.erased := by
  simp [erased]

theorem resolve_erased (kappa : Kappa) (edge : ManifestEdge) :
    closure.erased.resolve hologram sources.erased limits kappa edge =
      (closure.resolve hologram sources limits kappa edge).map fun out => (out.1.map ResolvedObject.erased,out.2.erased) := by
  unfold resolve
  rw [objects_erased,failures_erased]
  cases closure.objects[kappa]? with
  | some object => rfl
  | none =>
    cases closure.failures[kappa]? with
    | some failure =>
      dsimp only [map_none,map_some]
      rw [←blocker_erased,←block_erased]
      rfl
    | none =>
      dsimp only [map_none]
      by_cases ended : closure.halted
      · rw [if_pos ended,if_pos (show closure.erased.halted from ended)]; rfl
      rw [if_neg ended,if_neg (show ¬closure.erased.halted from ended),refer_erased]
      cases closure.refer sources limits kappa with
      | error actual =>
        dsimp only [Except.map]; rw [halt_erased]
        rfl
      | ok counted =>
        dsimp only [Except.map]
        refine bind_map (lookup_erased sources kappa) ?_
        intro found
        cases found with
        | none =>
          exact congrArg (fun closure => Except.ok (none,closure)) (fail_erased counted kappa edge .missing).symm
        | some found =>
          obtain ⟨bytes,source⟩ := found
          dsimp only [map_some]
          by_cases other : hologram.addressBytes bytes ≠ kappa
          · rw [if_pos other,if_pos other]
            exact congrArg (fun closure => Except.ok (none,closure))
              (fail_erased counted kappa edge (.mismatch source)).symm
          rw [if_neg other,if_neg other]
          by_cases beyond : limits.maxResolvedBytes < saturatingAdd counted.resolvedBytes (saturated bytes.length)
          · rw [if_pos beyond,if_pos (show limits.maxResolvedBytes <
              saturatingAdd counted.erased.resolvedBytes (saturated bytes.length) from beyond)]
            exact congrArg (fun closure => Except.ok (none,closure)) (halt_erased counted (.limitExceeded .resolvedBytes
              limits.maxResolvedBytes (saturatingAdd counted.resolvedBytes (saturated bytes.length)) (some edge))).symm
          · rw [if_neg beyond,if_neg (show ¬limits.maxResolvedBytes <
              saturatingAdd counted.erased.resolvedBytes (saturated bytes.length) from beyond)]
            show Except.ok _ = Except.ok _
            simp only [erased,map_insert]; rfl

end ClosureResolver
namespace Walk
variable (walk : Walk) (application : PendingApplication)

theorem block_erased (blocker : PlanBlocker) : (walk.block blocker).erased = walk.erased.block blocker.erased := by
  unfold block
  simp only [erased,ClosureResolver.block_erased]

theorem admission_erased (change : PendingChildAdmission → PendingChildAdmission) :
    (walk.admission application change).erased = walk.erased.admission application change := by
  unfold admission
  cases application.admissionIndex <;> rfl

theorem enter_erased : walk.erased.enter application = (walk.enter application).erased := by
  unfold enter
  rw [←admission_erased]
  rfl

open ClosureResolver

theorem resolveRequires_erased : walk.erased.resolveRequires hologram sources.erased limits application =
    (walk.resolveRequires hologram sources limits application).map erased := by
  unfold resolveRequires
  have asked := resolve_erased hologram sources limits walk.closure application.manifest.requires
    (requiresEdge application)
  refine bind_map asked ?_
  rintro ⟨object,closure⟩
  cases object with
  | none => rfl
  | some object =>
    dsimp only [map_some]
    rw [show object.erased.kappa = object.kappa from rfl,show object.erased.bytes = object.bytes from rfl]
    cases RequestedCapabilities.decode hologram object.kappa object.bytes with
    | error e =>
      exact congrArg Except.ok
        (block_erased {walk with closure := closure} (.invalidCapabilitySet object.kappa e.message)).symm
    | ok capabilities =>
      dsimp only
      split
      · rfl
      · exact congrArg Except.ok (admission_erased {walk with closure := closure} application _).symm

theorem resolveLayer_erased (entry : Layer × Nat) :
    walk.erased.resolveLayer hologram sources.erased limits application entry =
      (walk.resolveLayer hologram sources limits application entry).map erased := by
  unfold resolveLayer
  have asked := resolve_erased hologram sources limits walk.closure entry.1.content
    (layerEdge application entry.2)
  refine bind_map asked ?_
  intro ⟨object,closure⟩
  rfl

theorem resolveDelegated_erased (kappa : Kappa) (edge : ManifestEdge) :
    walk.erased.resolveDelegated hologram sources.erased limits kappa edge =
      (walk.resolveDelegated hologram sources limits kappa edge).map fun out =>
        (out.1,erasedSource out.2.1,out.2.2.erased) := by
  unfold resolveDelegated
  have asked := resolve_erased hologram sources limits walk.closure kappa edge
  refine bind_map asked ?_
  rintro ⟨object,closure⟩
  cases object with
  | none => rfl
  | some object =>
    dsimp only [map_some]
    rw [show object.erased.kappa = object.kappa from rfl,show object.erased.bytes = object.bytes from rfl]
    cases DelegatedCapabilities.decode hologram object.kappa object.bytes with
    | ok capabilities => rfl
    | error e =>
      exact congrArg (fun walk => Except.ok (none,some ResolutionSource.localStore,walk))
        (block_erased {walk with closure := closure} (.invalidCapabilitySet object.kappa e.message)).symm

theorem listed_erased (reference : ChildReference) :
    ({walk with children := walk.children ++ [reference]} : Walk).erased =
      {walk.erased with children := walk.erased.children ++ [reference.erased]} := by
  simp [erased]

theorem queueChild_erased (reference : ChildReference) (index : Nat) (delegated : Option DelegatedCapabilities) :
    walk.erased.queueChild hologram sources.erased limits application reference.erased index delegated =
      (walk.queueChild hologram sources limits application reference index delegated).map erased := by
  unfold queueChild
  dsimp only
  have asked := resolve_erased hologram sources limits walk.closure reference.applicationKappa
    (.childApplication application.applicationKappa reference.position)
  refine bind_map asked ?_
  rintro ⟨object,closure⟩
  cases object with
  | none => exact congrArg Except.ok (listed_erased {walk with closure := closure} reference).symm
  | some object =>
    dsimp only [map_some]
    rw [show decodeChildManifest hologram object.erased = decodeChildManifest hologram object from rfl]
    cases decodeChildManifest hologram object with
    | error reason =>
      refine congrArg Except.ok ?_
      simp [erased,block,ClosureResolver.block_erased,PlanBlocker.erased,ChildReference.erased,erasedSource,
        ResolvedObject.erased]
    | ok manifest =>
      cases delegated with
      | none =>
        refine congrArg Except.ok ?_
        simp [erased,ChildReference.erased,erasedSource,ResolvedObject.erased]
      | some delegated =>
        refine congrArg Except.ok ?_
        simp [erased,ChildReference.erased,erasedSource,ResolvedObject.erased]

theorem admitChild_erased (reference : ChildReference) :
    walk.erased.admitChild hologram sources.erased limits application reference.erased =
      (walk.admitChild hologram sources limits application reference).map erased := by
  unfold admitChild
  dsimp only
  have resolved := resolveDelegated_erased hologram sources limits {walk with
    applicationCount := walk.applicationCount+1
    maxDepth := max walk.maxDepth (application.depth+1)} reference.capabilitiesKappa
    (.delegatedCapabilities application.applicationKappa reference.position)
  refine bind_map resolved ?_
  intro ⟨delegated,source,next⟩
  exact queueChild_erased hologram sources limits next application
    {reference with capabilitiesResolutionSource := source} walk.applicationCount delegated

theorem visitChild_erased (entry : (Kappa × Kappa) × Nat) :
    walk.erased.visitChild hologram sources.erased limits application entry =
      (walk.visitChild hologram sources limits application entry).map erased := by
  obtain ⟨⟨childKappa,capabilitiesKappa⟩,index⟩ := entry
  unfold visitChild
  dsimp only
  cases childCyclePath application.path childKappa with
  | some path =>
    refine congrArg Except.ok ?_
    simp [erased,block,ClosureResolver.block_erased,PlanBlocker.erased,ChildReference.erased,erasedSource]
  | none =>
    dsimp only
    by_cases deep : limits.maxDepth < application.depth+1
    · rw [if_pos deep,if_pos deep]
      refine congrArg Except.ok ?_
      simp [erased,block,ClosureResolver.block_erased,PlanBlocker.erased,ChildReference.erased,erasedSource]
    rw [if_neg deep,if_neg deep]
    by_cases limited : walk.applicationsLimited
    · rw [if_pos limited,if_pos (show walk.erased.applicationsLimited from limited)]
      refine congrArg Except.ok ?_
      simp [erased,ChildReference.erased,erasedSource]
    rw [if_neg limited,if_neg (show ¬walk.erased.applicationsLimited from limited)]
    by_cases full : limits.maxApplications ≤ walk.applicationCount
    · rw [if_pos full,if_pos (show limits.maxApplications ≤ walk.erased.applicationCount from full)]
      refine congrArg Except.ok ?_
      simp [erased,block,ClosureResolver.block_erased,PlanBlocker.erased,ChildReference.erased,erasedSource]
    rw [if_neg full,if_neg (show ¬limits.maxApplications ≤ walk.erased.applicationCount from full)]
    exact admitChild_erased hologram sources limits walk application ⟨min index u32Max,application.applicationKappa,
      childKappa,capabilitiesKappa,min (application.depth+1) u32Max,none,none,none,none⟩

theorem visit_erased : walk.erased.visit hologram sources.erased limits application =
    (walk.visit hologram sources limits application).map fun out => (out.1.erased,out.2) := by
  unfold visit
  dsimp only
  rw [enter_erased]
  by_cases beyond : limits.maxLayers < (walk.enter application).totalLayers
  · rw [if_pos beyond,if_pos (show limits.maxLayers < (walk.enter application).erased.totalLayers from beyond)]
    exact congrArg (fun walk => Except.ok (walk,true)) (block_erased (walk.enter application) (.limitExceeded .layers
      limits.maxLayers (walk.enter application).totalLayers none)).symm
  rw [if_neg beyond,if_neg (show ¬limits.maxLayers < (walk.enter application).erased.totalLayers from beyond)]
  have required := resolveRequires_erased hologram sources limits (walk.enter application) application
  refine bind_map required fun walk => ?_
  have layered := foldlM_map (fun walk => resolveLayer_erased hologram sources limits walk application)
    application.manifest.layers.zipIdx walk
  refine bind_map layered fun walk => ?_
  by_cases ended : walk.closure.halted
  · rw [if_pos ended,if_pos (show walk.erased.closure.halted from ended)]
    rfl
  rw [if_neg ended,if_neg (show ¬walk.erased.closure.halted from ended)]
  have visited := foldlM_map (fun walk => visitChild_erased hologram sources limits walk application)
    application.manifest.children.zipIdx walk
  exact bind_map visited fun walk => rfl

theorem run_erased (turns : Nat) (walk : Walk) : walk.erased.run hologram sources.erased limits turns =
    (walk.run hologram sources limits turns).map erased := by
  induction turns generalizing walk with
  | zero => rfl
  | succ turns ih =>
    unfold run
    rw [show walk.erased.pending = walk.pending from rfl]
    cases walk.pending with
    | nil => rfl
    | cons application rest =>
      have visited := visit_erased hologram sources limits {walk with pending := rest} application
      refine bind_map visited ?_
      rintro ⟨next,ended⟩
      cases ended with
      | true => rfl
      | false => exact ih next

end Walk
end HologramLive
