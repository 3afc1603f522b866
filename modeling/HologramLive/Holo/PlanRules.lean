import HologramLive.Holo.Plan
namespace HologramLive
open Tables Fallible List
variable {hologram : Hologram} {sources : Sources} {limits : PlanLimits}

inductive Resolution (hologram : Hologram) (sources : Sources) (limits : PlanLimits) (closure : ClosureResolver)
    (kappa : Kappa) (edge : ManifestEdge) : Option ResolvedObject → ClosureResolver → Prop where
  | known (object : ResolvedObject) (found : closure.objects[kappa]? = some object) :
      Resolution hologram sources limits closure kappa edge (some object) closure
  | failed (failure : ResolutionFailure) (absent : closure.objects[kappa]? = none)
      (before : closure.failures[kappa]? = some failure) :
      Resolution hologram sources limits closure kappa edge none (closure.block (failure.blocker kappa edge))
  | halted (absent : closure.objects[kappa]? = none) (unfailed : closure.failures[kappa]? = none)
      (ended : closure.halted = true) : Resolution hologram sources limits closure kappa edge none closure
  | overCount (actual : Nat) (absent : closure.objects[kappa]? = none) (unfailed : closure.failures[kappa]? = none)
      (going : closure.halted = false) (beyond : closure.refer sources limits kappa = .error actual) :
      Resolution hologram sources limits closure kappa edge none
        (closure.halt (.limitExceeded .resolvedObjects limits.maxObjects actual (some edge)))
  | missing (counted : ClosureResolver) (absent : closure.objects[kappa]? = none)
      (unfailed : closure.failures[kappa]? = none) (going : closure.halted = false)
      (refer : closure.refer sources limits kappa = .ok counted) (nowhere : sources.lookup kappa = .ok none) :
      Resolution hologram sources limits closure kappa edge none (counted.fail kappa edge .missing)
  | mismatch (counted : ClosureResolver) (bytes : Bytes) (source : ResolutionSource)
      (absent : closure.objects[kappa]? = none) (unfailed : closure.failures[kappa]? = none)
      (going : closure.halted = false) (refer : closure.refer sources limits kappa = .ok counted)
      (found : sources.lookup kappa = .ok (some (bytes,source))) (other : hologram.addressBytes bytes ≠ kappa) :
      Resolution hologram sources limits closure kappa edge none (counted.fail kappa edge (.mismatch source))
  | overBytes (counted : ClosureResolver) (bytes : Bytes) (source : ResolutionSource)
      (absent : closure.objects[kappa]? = none) (unfailed : closure.failures[kappa]? = none)
      (going : closure.halted = false) (refer : closure.refer sources limits kappa = .ok counted)
      (found : sources.lookup kappa = .ok (some (bytes,source))) (same : hologram.addressBytes bytes = kappa)
      (beyond : limits.maxResolvedBytes < saturatingAdd counted.resolvedBytes (saturated bytes.length)) :
      Resolution hologram sources limits closure kappa edge none (counted.halt (.limitExceeded .resolvedBytes
        limits.maxResolvedBytes (saturatingAdd counted.resolvedBytes (saturated bytes.length)) (some edge)))
  | resolved (counted : ClosureResolver) (bytes : Bytes) (source : ResolutionSource)
      (absent : closure.objects[kappa]? = none) (unfailed : closure.failures[kappa]? = none)
      (going : closure.halted = false) (refer : closure.refer sources limits kappa = .ok counted)
      (found : sources.lookup kappa = .ok (some (bytes,source))) (same : hologram.addressBytes bytes = kappa)
      (within : saturatingAdd counted.resolvedBytes (saturated bytes.length) ≤ limits.maxResolvedBytes) :
      Resolution hologram sources limits closure kappa edge (some ⟨kappa,bytes,source⟩) {counted with
        resolvedBytes := saturatingAdd counted.resolvedBytes (saturated bytes.length)
        objects := counted.objects.insert kappa ⟨kappa,bytes,source⟩}

theorem resolve_cases {closure next : ClosureResolver}
    (ran : closure.resolve hologram sources limits kappa edge = .ok (object,next)) :
    Resolution hologram sources limits closure kappa edge object next := by
  unfold ClosureResolver.resolve at ran
  split at ran
  · rename_i object found
    cases ran
    exact .known object found
  · rename_i absent
    split at ran
    · rename_i failure before
      cases ran
      exact .failed failure absent before
    · rename_i unfailed
      split at ran
      · rename_i ended; cases ran
        exact .halted absent unfailed ended
      · rename_i going
        have going : closure.halted = false := by simpa using going
        split at ran
        · rename_i actual beyond; cases ran
          exact .overCount actual absent unfailed going beyond
        · rename_i counted refer
          obtain ⟨answer,found,ran⟩ := bind_ok ran
          cases answer with
          | none => cases ran; exact .missing counted absent unfailed going refer found
          | some answer =>
            obtain ⟨bytes,source⟩ := answer
            dsimp only at ran; split at ran
            · rename_i other; cases ran
              exact .mismatch counted bytes source absent unfailed going refer found other
            · rename_i same; split at ran
              · rename_i beyond; cases ran
                exact .overBytes counted bytes source absent unfailed going refer found (not_not.mp same) beyond
              · rename_i within
                cases ran
                exact .resolved counted bytes source absent unfailed going refer found (not_not.mp same)
                  (Nat.le_of_not_lt within)

def AppManifest.references (manifest : AppManifest) : List Kappa :=
  manifest.requires :: manifest.layers.map (·.content) ++
    manifest.children.flatMap fun child => [child.2,child.1]

-- Those of them that it does ask for, when the application was reached on this
-- path: a child that is on the path already is not followed.
def AppManifest.asks (manifest : AppManifest) (path : List Kappa) : List Kappa :=
  manifest.requires :: manifest.layers.map (·.content) ++
    (manifest.children.filter fun child => child.1 ∉ path).flatMap fun child => [child.2,child.1]

variable {manifest : AppManifest}

theorem asks_layer (mine : layer ∈ manifest.layers) : layer.content ∈ manifest.asks path :=
  mem_append_left _ (mem_cons_of_mem _ (mem_map.mpr ⟨layer,mine,rfl⟩))

theorem asks_child (mine : child ∈ manifest.children) (fresh : child.1 ∉ path) :
    child.2 ∈ manifest.asks path ∧ child.1 ∈ manifest.asks path := by
  have kept : child ∈ manifest.children.filter fun child => child.1 ∉ path :=
    mem_filter.mpr ⟨mine,decide_eq_true fresh⟩
  exact ⟨mem_append_right _ (mem_flatMap.mpr ⟨child,kept,mem_cons_self⟩),
    mem_append_right _ (mem_flatMap.mpr ⟨child,kept,mem_cons_of_mem _ mem_cons_self⟩)⟩

def PlanBlocker.unresolved : PlanBlocker → Bool
  | .missingObject .. | .contentMismatch .. => true
  | _ => false

-- An invariant of the closure and of the queue: asking for a kappa that a queued
-- application asks for keeps it, so does every other blocker, and a child whose
-- manifest was resolved may be queued.
structure PlanRule (hologram : Hologram) (sources : Sources) (limits : PlanLimits) (queued : PendingApplication → Prop)
    (holds : ClosureResolver → Prop) : Prop where
  resolve : ∀ application closure kappa edge object next,queued application → holds closure →
    kappa ∈ application.manifest.asks application.path →
    closure.resolve hologram sources limits kappa edge = .ok (object,next) → holds next
  block : ∀ closure blocker,holds closure → blocker.unresolved = false → holds (closure.block blocker)
  child : ∀ application closure child edge object next manifest applicationIndex admissionIndex,
    queued application → holds closure → child ∈ application.manifest.children → child.1 ∉ application.path →
    closure.resolve hologram sources limits child.1 edge = .ok (some object,next) →
    decodeChildManifest hologram object = .ok manifest →
    queued ⟨applicationIndex,admissionIndex,object.kappa,manifest,application.depth+1,
      application.path ++ [object.kappa]⟩

namespace Walk

@[simp] theorem block_closure (walk : Walk) (blocker : PlanBlocker) :
    (walk.block blocker).closure = walk.closure.block blocker := rfl
@[simp] theorem block_pending (walk : Walk) (blocker : PlanBlocker) : (walk.block blocker).pending = walk.pending := rfl

@[simp] theorem admission_closure (walk : Walk) (application : PendingApplication)
    (change : PendingChildAdmission → PendingChildAdmission) :
    (walk.admission application change).closure = walk.closure := by
  unfold admission
  split <;> rfl

@[simp] theorem admission_pending (walk : Walk) (application : PendingApplication)
    (change : PendingChildAdmission → PendingChildAdmission) :
    (walk.admission application change).pending = walk.pending := by
  unfold admission
  split <;> rfl

variable {queued : PendingApplication → Prop} {holds : ClosureResolver → Prop}

def Keeps (queued : PendingApplication → Prop) (holds : ClosureResolver → Prop) (walk : Walk) : Prop :=
  holds walk.closure ∧ ∀ application ∈ walk.pending,queued application

variable {application : PendingApplication} {walk next : Walk}

theorem resolveRequires_keeps (rule : PlanRule hologram sources limits queued holds)
    (so : queued application) (before : walk.Keeps queued holds)
    (ran : walk.resolveRequires hologram sources limits application = .ok next) : next.Keeps queued holds := by
  unfold resolveRequires at ran
  obtain ⟨⟨object,closure⟩,resolved,ran⟩ := bind_ok ran
  have kept := rule.resolve _ _ _ _ _ _ so before.1 mem_cons_self resolved
  cases object with
  | none => cases ran; exact ⟨kept,before.2⟩
  | some object =>
    dsimp only at ran
    split at ran
    · cases ran; exact ⟨rule.block _ _ kept rfl,before.2⟩
    · split at ran
      · cases ran; exact ⟨kept,before.2⟩
      · cases ran
        refine ⟨?_,?_⟩
        · rw [admission_closure]; exact kept
        · rw [admission_pending]; exact before.2

theorem resolveLayer_keeps (rule : PlanRule hologram sources limits queued holds) (so : queued application) (mine : entry.1 ∈ application.manifest.layers)
    (before : walk.Keeps queued holds)
    (ran : walk.resolveLayer hologram sources limits application entry = .ok next) : next.Keeps queued holds := by
  unfold resolveLayer at ran
  obtain ⟨⟨object,closure⟩,resolved,ran⟩ := bind_ok ran
  cases ran
  exact ⟨rule.resolve _ _ _ _ _ _ so before.1 (asks_layer mine) resolved,before.2⟩

variable {delegated : Option DelegatedCapabilities}

theorem resolveDelegated_keeps (rule : PlanRule hologram sources limits queued holds) (so : queued application)
    (mine : kappa ∈ application.manifest.asks application.path) (before : walk.Keeps queued holds)
    (ran : walk.resolveDelegated hologram sources limits kappa edge = .ok (delegated,source,next)) :
    next.Keeps queued holds := by
  unfold resolveDelegated at ran
  obtain ⟨⟨object,closure⟩,resolved,ran⟩ := bind_ok ran
  have kept := rule.resolve _ _ _ _ _ _ so before.1 mine resolved
  cases object with
  | none => cases ran; exact ⟨kept,before.2⟩
  | some object =>
    dsimp only at ran
    split at ran
    · cases ran; exact ⟨kept,before.2⟩
    · cases ran; exact ⟨rule.block _ _ kept rfl,before.2⟩

variable {reference : ChildReference}

theorem queueChild_keeps (rule : PlanRule hologram sources limits queued holds) (so : queued application)
    (mine : (reference.applicationKappa,reference.capabilitiesKappa) ∈ application.manifest.children)
    (fresh : reference.applicationKappa ∉ application.path) (before : walk.Keeps queued holds)
    (ran : walk.queueChild hologram sources limits application reference index delegated = .ok next) :
    next.Keeps queued holds := by
  unfold queueChild at ran
  obtain ⟨⟨object,closure⟩,resolved,ran⟩ := bind_ok ran
  have kept := rule.resolve _ _ _ _ _ _ so before.1 (asks_child mine fresh).2 resolved
  cases object with
  | none => cases ran; exact ⟨kept,before.2⟩
  | some object =>
    dsimp only at ran
    split at ran
    · cases ran; exact ⟨rule.block _ _ kept rfl,before.2⟩
    · rename_i manifest decoded
      have pushed (admissionIndex : Option Nat) :=
        rule.child _ _ _ _ _ _ _ index admissionIndex so before.1 mine fresh resolved decoded
      split at ran
      · cases ran
        refine ⟨kept,?_⟩
        intro other member
        obtain old | new := mem_append.mp member
        · exact before.2 other old
        · rw [mem_singleton.mp new]; exact pushed _
      · cases ran
        refine ⟨kept,?_⟩
        intro other member
        obtain old | new := mem_append.mp member
        · exact before.2 other old
        · rw [mem_singleton.mp new]; exact pushed _

theorem admitChild_keeps (rule : PlanRule hologram sources limits queued holds) (so : queued application)
    (mine : (reference.applicationKappa,reference.capabilitiesKappa) ∈ application.manifest.children)
    (fresh : reference.applicationKappa ∉ application.path) (before : walk.Keeps queued holds)
    (ran : walk.admitChild hologram sources limits application reference = .ok next) : next.Keeps queued holds := by
  unfold admitChild at ran
  obtain ⟨⟨delegated,source,walk₁⟩,delegating,ran⟩ := bind_ok ran
  have kept₁ := resolveDelegated_keeps rule so (asks_child mine fresh).1
    (show Keeps queued holds {walk with
      applicationCount := walk.applicationCount+1
      maxDepth := max walk.maxDepth (application.depth+1)} from before) delegating
  dsimp only at ran
  refine queueChild_keeps rule so ?_ ?_ kept₁ ran
  · exact mine
  · exact fresh

theorem visitChild_keeps (rule : PlanRule hologram sources limits queued holds) (so : queued application)
    (mine : entry.1 ∈ application.manifest.children) (before : walk.Keeps queued holds)
    (ran : walk.visitChild hologram sources limits application entry = .ok next) : next.Keeps queued holds := by
  obtain ⟨⟨childKappa,capabilitiesKappa⟩,index⟩ := entry
  simp only [visitChild] at ran
  split at ran
  · cases ran; exact ⟨rule.block _ _ before.1 rfl,before.2⟩
  · rename_i acyclic
    have fresh : childKappa ∉ application.path := by
      intro member
      simp [childCyclePath,member] at acyclic
    split at ran
    · cases ran; exact ⟨rule.block _ _ before.1 rfl,before.2⟩
    · split at ran
      · cases ran; exact before
      · split at ran
        · cases ran; exact ⟨rule.block _ _ before.1 rfl,before.2⟩
        · exact admitChild_keeps rule so mine fresh before ran

theorem visit_keeps (rule : PlanRule hologram sources limits queued holds) (so : queued application) (before : walk.Keeps queued holds)
    (ran : walk.visit hologram sources limits application = .ok (next,ended)) : next.Keeps queued holds := by
  unfold visit at ran
  dsimp only at ran
  have entered : (walk.enter application).Keeps queued holds := by simpa [Keeps,enter] using before
  split at ran
  · cases ran
    exact ⟨rule.block _ _ entered.1 rfl,entered.2⟩
  · obtain ⟨walk₁,requires,ran⟩ := bind_ok ran
    have kept₁ := resolveRequires_keeps rule so entered requires
    obtain ⟨walk₂,layers,ran⟩ := bind_ok ran
    have kept₂ : walk₂.Keeps queued holds := by
      refine foldlM_keeps ?_ kept₁ layers
      intro entry member s next start step
      exact resolveLayer_keeps rule so (fst_mem_of_mem_zipIdx member) start step
    split at ran
    · cases ran; exact kept₂
    · obtain ⟨walk₃,children,ran⟩ := bind_ok ran
      cases ran
      refine foldlM_keeps ?_ kept₂ children
      intro entry member s next start step
      exact visitChild_keeps rule so (fst_mem_of_mem_zipIdx member) start step

theorem run_keeps (rule : PlanRule hologram sources limits queued holds)
    (before : walk.Keeps queued holds) (ran : walk.run hologram sources limits turns = .ok out) :
    out.Keeps queued holds := by
  induction turns generalizing walk with
  | zero => cases ran; exact before
  | succ turns ih =>
    unfold run at ran
    split at ran
    · cases ran; exact before
    · rename_i application rest waiting
      obtain ⟨⟨next,ended⟩,visited,ran⟩ := bind_ok ran
      have so := before.2 application (by rw [waiting]; exact mem_cons_self)
      have others : Keeps queued holds {walk with pending := rest} :=
        ⟨before.1,fun other member => before.2 other (by rw [waiting]; exact mem_cons_of_mem _ member)⟩
      have kept := visit_keeps rule so others visited
      cases ended with
      | true => cases ran; exact kept
      | false => exact ih kept ran

end Walk
end HologramLive
