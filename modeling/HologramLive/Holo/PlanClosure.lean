import HologramLive.Holo.PlanRules
namespace HologramLive
open Tables Fallible ClosureResolver List

def Sources.object (hologram : Hologram) (sources : Sources) (kappa : Kappa) : Option ResolvedObject :=
  match sources.lookup kappa with
  | .ok (some (bytes,source)) => if hologram.addressBytes bytes = kappa then some ⟨kappa,bytes,source⟩ else none
  | _ => none

def Sources.childManifest (hologram : Hologram) (sources : Sources) (kappa : Kappa) : Option AppManifest :=
  (sources.object hologram kappa).bind fun object => (decodeChildManifest hologram object).toOption

-- One application of the tree: its manifest, and the applications on the way to
-- it, itself the last.
structure Occurrence where
  manifest : AppManifest
  path : List Kappa

inductive Occurs (hologram : Hologram) (sources : Sources) (root : Occurrence) : Occurrence → Prop where
  | root : Occurs hologram sources root root
  | child {parent : Occurrence} {child : Kappa × Kappa} {manifest : AppManifest}
      (above : Occurs hologram sources root parent) (edge : child ∈ parent.manifest.children)
      (resolved : sources.childManifest hologram child.1 = some manifest) :
      Occurs hologram sources root ⟨manifest,parent.path ++ [child.1]⟩

def InClosure (hologram : Hologram) (sources : Sources) (root : Occurrence) (kappa : Kappa) : Prop :=
  ∃ application,Occurs hologram sources root application ∧ kappa ∈ application.manifest.references

-- The applications that the planner reaches, and what it asks for on the way: a
-- child that is on the path already is a cycle, which is not followed.
inductive ReachedFrom (hologram : Hologram) (sources : Sources) (root : Occurrence) : Occurrence → Prop where
  | root : ReachedFrom hologram sources root root
  | child {parent : Occurrence} {child : Kappa × Kappa} {manifest : AppManifest}
      (above : ReachedFrom hologram sources root parent) (edge : child ∈ parent.manifest.children)
      (fresh : child.1 ∉ parent.path) (resolved : sources.childManifest hologram child.1 = some manifest) :
      ReachedFrom hologram sources root ⟨manifest,parent.path ++ [child.1]⟩

def Sought (hologram : Hologram) (sources : Sources) (root : Occurrence) (kappa : Kappa) : Prop :=
  ∃ application,ReachedFrom hologram sources root application ∧ kappa ∈ application.manifest.asks application.path

variable {hologram : Hologram} {sources : Sources} {limits : PlanLimits} {root : Occurrence}

def ResolutionFailure.Happens (hologram : Hologram) (sources : Sources) (kappa : Kappa) : ResolutionFailure → Prop
  | .missing => sources.lookup kappa = .ok none
  | .mismatch source => ∃ bytes,sources.lookup kappa = .ok (some (bytes,source)) ∧ hologram.addressBytes bytes ≠ kappa

variable {kappa : Kappa}

theorem object_of_found
    (found : sources.lookup kappa = .ok (some (bytes,source))) (same : hologram.addressBytes bytes = kappa) :
    sources.object hologram kappa = some ⟨kappa,bytes,source⟩ := by
  simp only [Sources.object,found,same,if_true]

theorem found_of_object (named : sources.object hologram kappa = some object) :
    object.kappa = kappa ∧ sources.lookup kappa = .ok (some (object.bytes,object.source)) ∧
      hologram.addressBytes object.bytes = kappa := by
  unfold Sources.object at named
  split at named
  · rename_i bytes source found
    split at named
    · rename_i same; cases named; exact ⟨rfl,found,same⟩
    · cases named
  · cases named

theorem object_of_failure {kappa : Kappa} {failure : ResolutionFailure}
    (happens : failure.Happens hologram sources kappa) : sources.object hologram kappa = none := by
  cases failure with
  | missing => simp only [Sources.object,show sources.lookup kappa = .ok none from happens]
  | mismatch source =>
    obtain ⟨bytes,found,other⟩ := happens
    simp only [Sources.object,found,other,if_false]

-- What the closure records is true of the sources, whatever the order and
-- however far the loop has come.
structure Faithful (hologram : Hologram) (sources : Sources) (root : Occurrence) (closure : ClosureResolver) : Prop where
  objects : ∀ kappa object,closure.objects[kappa]? = some object →
    sources.object hologram kappa = some object ∧ Sought hologram sources root kappa
  failures : ∀ kappa failure,closure.failures[kappa]? = some failure →
    failure.Happens hologram sources kappa ∧ Sought hologram sources root kappa
  blockers : ∀ (failure : ResolutionFailure) kappa edge,failure.blocker kappa edge ∈ closure.blockers →
    failure.Happens hologram sources kappa ∧ Sought hologram sources root kappa
  referenced : ∀ kappa ∈ closure.referenced,Sought hologram sources root kappa ∧
    (sources.lookup kappa = .ok none → ∃ edge,.missingObject kappa edge ∈ closure.blockers)

theorem faithful_empty : Faithful hologram sources root .empty where
  objects kappa object found := by simp [empty] at found
  failures kappa failure found := by simp [empty] at found
  blockers failure kappa edge member := by cases member
  referenced kappa member := by simp [empty] at member

theorem blocker_unresolved (failure : ResolutionFailure) (kappa : Kappa) (edge : ManifestEdge) :
    (failure.blocker kappa edge).unresolved = true := by cases failure <;> rfl

variable {closure counted : ClosureResolver}

theorem refer_cases (refer : closure.refer sources limits kappa = .ok counted) :
    counted.objects = closure.objects ∧ counted.failures = closure.failures ∧ counted.blockers = closure.blockers ∧
      counted.resolvedBytes = closure.resolvedBytes ∧ counted.halted = closure.halted ∧
      (∀ other,other ∈ counted.referenced ↔ other = kappa ∨ other ∈ closure.referenced) := by
  unfold ClosureResolver.refer at refer
  split at refer
  · rename_i already
    cases refer
    refine ⟨rfl,rfl,rfl,rfl,rfl,fun other => ⟨.inr,?_⟩⟩
    intro either
    obtain rfl | before := either
    · exact already
    · exact before
  · dsimp only at refer
    split at refer
    · cases refer
    · cases refer
      refine ⟨rfl,rfl,rfl,rfl,rfl,fun other => ?_⟩
      rw [Std.ExtTreeSet.mem_insert,Std.compare_eq_iff_eq,eq_comm]

namespace Faithful

theorem block (so : Faithful hologram sources root closure) (blocker : PlanBlocker)
    (plain : blocker.unresolved = false) : Faithful hologram sources root (closure.block blocker) where
  objects := so.objects
  failures := so.failures
  blockers failure kappa edge member := by
    obtain old | new := mem_append.mp member
    · exact so.blockers failure kappa edge old
    · rw [←mem_singleton.mp new,blocker_unresolved] at plain
      cases plain
  referenced kappa member := by
    obtain ⟨inside,missed⟩ := so.referenced kappa member
    refine ⟨inside,fun nowhere => ?_⟩
    obtain ⟨edge,told⟩ := missed nowhere
    exact ⟨edge,mem_append_left _ told⟩

theorem refer (so : Faithful hologram sources root closure)
    (inside : Sought hologram sources root kappa) (found : sources.lookup kappa ≠ .ok none)
    (refer : closure.refer sources limits kappa = .ok counted) : Faithful hologram sources root counted := by
  obtain ⟨objects,failures,blockers,_,_,referenced⟩ := refer_cases refer
  refine ⟨?_,?_,?_,?_⟩
  · rw [objects]; exact so.objects
  · rw [failures]; exact so.failures
  · rw [blockers]; exact so.blockers
  · intro other member
    obtain rfl | before := (referenced other).mp member
    · exact ⟨inside,fun nowhere => absurd nowhere found⟩
    · rw [blockers]; exact so.referenced other before

theorem fail (so : Faithful hologram sources root closure) {failure : ResolutionFailure} (inside : Sought hologram sources root kappa)
    (happens : failure.Happens hologram sources kappa) (refer : closure.refer sources limits kappa = .ok counted) :
    Faithful hologram sources root (counted.fail kappa edge failure) := by
  obtain ⟨objects,failures,blockers,_,_,referenced⟩ := refer_cases refer
  refine ⟨?_,?_,?_,?_⟩
  · show ∀ other object,counted.objects[other]? = some object → _
    rw [objects]; exact so.objects
  · intro other found
    show (counted.failures.insert kappa failure)[other]? = some found → _
    rw [get_insert,failures]
    split
    · rename_i same
      intro recorded
      cases recorded
      rw [←same]
      exact ⟨happens,inside⟩
    · exact so.failures other found
  · intro found other edge' member
    rw [show (counted.fail kappa edge failure).blockers = closure.blockers ++ [failure.blocker kappa edge] by
      rw [←blockers]; rfl] at member
    obtain old | new := mem_append.mp member
    · exact so.blockers found other edge' old
    · have same := mem_singleton.mp new
      cases found <;> cases failure <;> cases same <;> exact ⟨happens,inside⟩
  · intro other member
    rw [show (counted.fail kappa edge failure).blockers = closure.blockers ++ [failure.blocker kappa edge] by
      rw [←blockers]; rfl]
    obtain rfl | before := (referenced other).mp member
    · refine ⟨inside,fun nowhere => ⟨edge,mem_append_right _ (mem_singleton.mpr ?_)⟩⟩
      cases failure with
      | missing => rfl
      | mismatch source =>
        obtain ⟨bytes,found,_⟩ := happens
        rw [found] at nowhere; cases nowhere
    · obtain ⟨was,missed⟩ := so.referenced other before
      refine ⟨was,fun nowhere => ?_⟩
      obtain ⟨edge',told⟩ := missed nowhere
      exact ⟨edge',mem_append_left _ told⟩

theorem resolve {closure next : ClosureResolver}
    (so : Faithful hologram sources root closure) {object : Option ResolvedObject} (inside : Sought hologram sources root kappa)
    (ran : closure.resolve hologram sources limits kappa edge = .ok (object,next)) :
    Faithful hologram sources root next := by
  cases resolve_cases ran with
  | known object found => exact so
  | halted absent unfailed ended => exact so
  | failed failure absent before =>
    obtain ⟨happens,_⟩ := so.failures kappa failure before
    refine ⟨so.objects,so.failures,?_,?_⟩
    · intro found other edge' member
      obtain old | new := mem_append.mp member
      · exact so.blockers found other edge' old
      · have same := mem_singleton.mp new
        cases found <;> cases failure <;> cases same <;> exact ⟨happens,inside⟩
    · intro other member
      obtain ⟨was,missed⟩ := so.referenced other member
      refine ⟨was,fun nowhere => ?_⟩
      obtain ⟨edge',told⟩ := missed nowhere
      exact ⟨edge',mem_append_left _ told⟩
  | overCount actual absent unfailed going beyond =>
    have told := so.block (.limitExceeded .resolvedObjects limits.maxObjects actual (some edge)) rfl
    exact ⟨told.objects,told.failures,told.blockers,told.referenced⟩
  | missing counted absent unfailed going refer nowhere => exact so.fail inside nowhere refer
  | mismatch counted bytes source absent unfailed going refer found other =>
    exact so.fail inside ⟨bytes,found,other⟩ refer
  | overBytes counted bytes source absent unfailed going refer found same beyond =>
    have kept := so.refer inside (by rw [found]; simp) refer
    have told := kept.block (.limitExceeded .resolvedBytes limits.maxResolvedBytes
      (saturatingAdd counted.resolvedBytes (saturated bytes.length)) (some edge)) rfl
    exact ⟨told.objects,told.failures,told.blockers,told.referenced⟩
  | resolved counted bytes source absent unfailed going refer found same within =>
    have kept := so.refer inside (by rw [found]; simp) refer
    refine ⟨?_,kept.failures,kept.blockers,kept.referenced⟩
    intro other object'
    show (counted.objects.insert kappa ⟨kappa,bytes,source⟩)[other]? = some object' → _
    rw [get_insert]
    split
    · rename_i equal
      intro recorded
      cases recorded
      rw [←equal]
      exact ⟨object_of_found found same,inside⟩
    · exact kept.objects other object'

end Faithful

def Queued (hologram : Hologram) (sources : Sources) (root : Occurrence) (application : PendingApplication) : Prop :=
  ReachedFrom hologram sources root ⟨application.manifest,application.path⟩

theorem faithful_rule : PlanRule hologram sources limits (Queued hologram sources root)
    (Faithful hologram sources root) where
  resolve application closure kappa edge object next so before mine ran := before.resolve ⟨_,so,mine⟩ ran
  block closure blocker before plain := before.block blocker plain
  child application closure child edge object next manifest applicationIndex admissionIndex so before edgeOf fresh ran
      decoded := by
    have named : sources.object hologram child.1 = some object := by
      cases resolve_cases ran with
      | known object found => exact (before.objects _ _ found).1
      | resolved counted bytes source absent unfailed going refer found same within => exact object_of_found found same
    have same := (found_of_object named).1
    have manifested : sources.childManifest hologram child.1 = some manifest := by
      rw [Sources.childManifest,named,Option.bind_some,decoded]
      rfl
    show ReachedFrom hologram sources root ⟨manifest,application.path ++ [object.kappa]⟩
    rw [same]
    exact .child so edgeOf fresh manifested

-- Whatever is explained: the report's objects and unresolved blockers are true of
-- the sources.
theorem run_faithful {walk out : Walk}
    (before : walk.Keeps (Queued hologram sources root) (Faithful hologram sources root))
    (ran : walk.run hologram sources limits turns = .ok out) : Faithful hologram sources root out.closure :=
  (Walk.run_keeps faithful_rule before ran).1

def OpenedArchive.rootOccurrence (archive : OpenedArchive) : Occurrence :=
  ⟨archive.rootPlanManifest,[archive.identity.applicationKappa]⟩

theorem start_keeps (archive : OpenedArchive) : (Walk.start limits archive).Keeps
    (Queued hologram sources archive.rootOccurrence) (Faithful hologram sources archive.rootOccurrence) := by
  unfold Walk.start
  dsimp only
  split
  · refine ⟨faithful_empty.block _ rfl,?_⟩
    intro application member
    cases member
  · refine ⟨faithful_empty,?_⟩
    intro application member
    rw [mem_singleton.mp member]
    exact .root

end HologramLive
