import HologramLive.Holo.PlanCoverage
namespace HologramLive
open Tables Fallible
variable {hologram : Hologram} {sources : Sources} {limits : PlanLimits} {root : Occurrence}

-- A resolver that errs on nothing that is sought, whatever it finds.
def Sources.Answers (hologram : Hologram) (sources : Sources) (root : Occurrence) : Prop :=
  ∀ kappa,Sought hologram sources root kappa → ∃ found,sources.lookup kappa = .ok found

theorem embedded_answers (embedded : Table Kappa Bytes) (root : Occurrence) :
    Sources.Answers hologram ⟨embedded,fun _ => .ok none⟩ root := by
  intro kappa _
  unfold Sources.lookup
  split
  · exact ⟨_,rfl⟩
  · exact ⟨none,rfl⟩

theorem resolve_succeeds (answer : ∃ found,sources.lookup kappa = .ok found) (closure : ClosureResolver)
    (edge : ManifestEdge) : ∃ out,closure.resolve hologram sources limits kappa edge = .ok out := by
  unfold ClosureResolver.resolve
  split
  · exact ⟨_,rfl⟩
  · split
    · exact ⟨_,rfl⟩
    · split
      · exact ⟨_,rfl⟩
      · split
        · exact ⟨_,rfl⟩
        · refine bind_succeeds answer fun found => ?_
          cases found with
          | none => exact ⟨_,rfl⟩
          | some found =>
            dsimp only; split
            · exact ⟨_,rfl⟩
            · split <;> exact ⟨_,rfl⟩

namespace Walk

variable (answers : sources.Answers hologram root) {application : PendingApplication}
  (so : Queued hologram sources root application)
include answers so

variable (walk : Walk)

theorem resolveRequires_succeeds : ∃ next,walk.resolveRequires hologram sources limits application = .ok next := by
  refine bind_succeeds (resolve_succeeds (answers _ ⟨_,so,List.mem_cons_self⟩) _ _) fun out => ?_
  obtain ⟨object,closure⟩ := out
  cases object with
  | none => exact ⟨_,rfl⟩
  | some object =>
    dsimp only
    split
    · exact ⟨_,rfl⟩
    · split <;> exact ⟨_,rfl⟩

theorem resolveLayer_succeeds (mine : entry.1 ∈ application.manifest.layers) :
    ∃ next,walk.resolveLayer hologram sources limits application entry = .ok next :=
  bind_succeeds (resolve_succeeds (answers _ ⟨_,so,asks_layer mine⟩) _ _) fun _ => ⟨_,rfl⟩

omit so in
theorem resolveDelegated_succeeds (inside : Sought hologram sources root kappa)
    (edge : ManifestEdge) : ∃ out,walk.resolveDelegated hologram sources limits kappa edge = .ok out := by
  refine bind_succeeds (resolve_succeeds (answers _ inside) _ _) fun out => ?_
  obtain ⟨object,closure⟩ := out
  cases object with
  | none => exact ⟨_,rfl⟩
  | some object =>
    dsimp only
    split <;> exact ⟨_,rfl⟩

omit so in
theorem queueChild_succeeds (inside : Sought hologram sources root reference.applicationKappa) (index : Nat)
    (delegated : Option DelegatedCapabilities) :
    ∃ next,walk.queueChild hologram sources limits application reference index delegated = .ok next := by
  refine bind_succeeds (resolve_succeeds (answers _ inside) _ _) fun out => ?_
  obtain ⟨object,closure⟩ := out
  cases object with
  | none => exact ⟨_,rfl⟩
  | some object =>
    dsimp only
    split
    · exact ⟨_,rfl⟩
    · split <;> exact ⟨_,rfl⟩

theorem visitChild_succeeds
    (mine : entry.1 ∈ application.manifest.children) : ∃ next,walk.visitChild hologram sources limits application entry = .ok next := by
  obtain ⟨⟨childKappa,capabilitiesKappa⟩,index⟩ := entry
  simp only [visitChild]
  split
  · exact ⟨_,rfl⟩
  · rename_i acyclic
    have fresh : childKappa ∉ application.path := by
      intro member
      simp [childCyclePath,member] at acyclic
    obtain ⟨delegated,child⟩ := asks_child mine fresh
    split
    · exact ⟨_,rfl⟩
    · split
      · exact ⟨_,rfl⟩
      · split
        · exact ⟨_,rfl⟩
        · refine bind_succeeds (resolveDelegated_succeeds answers _ ⟨_,so,delegated⟩ _) fun out => ?_
          refine queueChild_succeeds answers _ ?_ _ _
          exact ⟨_,so,child⟩

theorem visit_succeeds : ∃ out,walk.visit hologram sources limits application = .ok out := by
  unfold visit
  dsimp only
  split
  · exact ⟨_,rfl⟩
  · refine bind_succeeds (resolveRequires_succeeds answers so _) fun walk => ?_
    refine bind_succeeds (foldlM_succeeds (fun walk entry member =>
      resolveLayer_succeeds answers so walk (List.fst_mem_of_mem_zipIdx member)) walk) fun walk => ?_
    split
    · exact ⟨_,rfl⟩
    · refine bind_succeeds (foldlM_succeeds (fun walk entry member =>
        visitChild_succeeds answers so walk (List.fst_mem_of_mem_zipIdx member)) walk) fun walk => ⟨_,rfl⟩

omit so in
theorem run_succeeds (turns : Nat) {walk : Walk}
    (before : walk.Keeps (Queued hologram sources root) (Faithful hologram sources root)) :
    ∃ out,walk.run hologram sources limits turns = .ok out := by
  induction turns generalizing walk with
  | zero => exact ⟨walk,rfl⟩
  | succ turns ih =>
    unfold run
    split
    · exact ⟨_,rfl⟩
    · rename_i application rest waiting
      have so := before.2 application (by rw [waiting]; exact List.mem_cons_self)
      have others : Keeps (Queued hologram sources root) (Faithful hologram sources root) {walk with pending := rest} :=
        ⟨before.1,fun other member => before.2 other (by rw [waiting]; exact List.mem_cons_of_mem _ member)⟩
      obtain ⟨⟨next,ended⟩,visited⟩ := @visit_succeeds hologram sources limits root answers _ so {walk with pending := rest}
      rw [ok_bind visited]
      dsimp only
      split
      · exact ⟨next,rfl⟩
      · exact ih (visit_keeps faithful_rule so others visited)

end Walk

variable {resolveLocal : Kappa → Except LiveError (Option Bytes)} {archive : OpenedArchive}

theorem explainOpened_succeeds
    (answers : Sources.Answers hologram ⟨archive.embedded,resolveLocal⟩ archive.rootOccurrence) (limits : PlanLimits) :
    ∃ report,explainOpened hologram archive limits resolveLocal = .ok report := by
  obtain ⟨out,ran⟩ := Walk.run_succeeds answers limits.maxApplications (@start_keeps hologram _ limits archive)
  refine ⟨out.report limits archive,?_⟩
  unfold explainOpened
  rw [ran]
  rfl

theorem answered_rule : PlanRule hologram sources limits (fun _ => True)
    (fun closure => ∀ kappa ∈ closure.referenced,∃ found,sources.lookup kappa = .ok found) where
  resolve application closure kappa edge object next _ before _ ran := by
    have counts {counted : ClosureResolver} (refer : closure.refer sources limits kappa = .ok counted)
        (found : ∃ found,sources.lookup kappa = .ok found) :
        ∀ other ∈ counted.referenced,∃ found,sources.lookup other = .ok found := by
      intro other member
      obtain ⟨_,_,_,_,_,referenced⟩ := refer_cases refer
      obtain rfl | old := (referenced other).mp member
      · exact found
      · exact before other old
    cases resolve_cases ran with
    | known object found => exact before
    | failed failure absent told => exact before
    | halted absent unfailed ended => exact before
    | overCount actual absent unfailed going beyond => exact before
    | missing counted absent unfailed going refer nowhere =>
      have all := counts refer ⟨_,nowhere⟩
      exact all
    | mismatch counted bytes source absent unfailed going refer found other =>
      have all := counts refer ⟨_,found⟩
      exact all
    | overBytes counted bytes source absent unfailed going refer found same beyond =>
      have all := counts refer ⟨_,found⟩
      exact all
    | resolved counted bytes source absent unfailed going refer found same within =>
      have all := counts refer ⟨_,found⟩
      exact all
  block closure blocker before _ := before
  child _ _ _ _ _ _ _ _ _ _ _ _ _ _ _ := trivial

theorem explained_answered (ran : explainOpened hologram archive limits resolveLocal = .ok report)
    (unlimited : report.Unlimited) : Sources.Answers hologram ⟨archive.embedded,resolveLocal⟩ archive.rootOccurrence := by
  intro kappa inside
  obtain ⟨out,finished,rfl⟩ := explained_run ran
  obtain ⟨limit,maximum,actual,edge,told⟩ | covered := run_start_covers finished
  · exact absurd (List.mem_append_left _ told) (unlimited limit maximum actual edge)
  · have started : (Walk.start limits archive).Keeps (fun _ => True) (fun closure => ∀ kappa ∈ closure.referenced,
        ∃ found,Sources.lookup ⟨archive.embedded,resolveLocal⟩ kappa = .ok found) := by
      unfold Walk.start
      dsimp only
      split <;> exact ⟨fun kappa member => by simp [Walk.block,ClosureResolver.block,ClosureResolver.empty] at member,
        fun _ _ => trivial⟩
    exact (Walk.run_keeps answered_rule started finished).1 kappa (covered kappa inside)

end HologramLive

namespace HologramLive
open Tables Fallible
variable {hologram : Hologram} {sources : Sources} {limits : PlanLimits} {root : Occurrence}

-- Limits that the saturating counters cannot pass.
structure PlanLimits.Ample (limits : PlanLimits) : Prop where
  layers : u64Max ≤ limits.maxLayers
  objects : u64Max ≤ limits.maxObjects
  bytes : u64Max ≤ limits.maxResolvedBytes

structure ClosureResolver.Free (closure : ClosureResolver) : Prop where
  going : closure.halted = false
  unlimited : ¬Limited closure

theorem saturatingAdd_le (a b : Nat) : saturatingAdd a b ≤ u64Max := Nat.min_le_right _ _

variable {closure : ClosureResolver}

theorem ClosureResolver.Free.block (free : closure.Free)
    (plain : ∀ limit maximum actual edge,blocker ≠ .limitExceeded limit maximum actual edge) : (closure.block blocker).Free := by
  refine ⟨free.going,?_⟩
  intro ⟨limit,maximum,actual,edge,member⟩
  obtain before | told := List.mem_append.mp member
  · exact free.unlimited ⟨limit,maximum,actual,edge,before⟩
  · exact plain limit maximum actual edge (List.mem_singleton.mp told).symm

theorem refer_ample (ample : limits.Ample) (closure : ClosureResolver) (kappa : Kappa) (actual : Nat) :
    closure.refer sources limits kappa ≠ .error actual := by
  unfold ClosureResolver.refer
  split
  · intro h; cases h
  · dsimp only
    split
    · rename_i beyond
      have most := saturatingAdd_le closure.referenced.size 1
      have least := ample.objects
      omega
    · intro h; cases h

theorem refer_free {closure : ClosureResolver}
    (free : closure.Free) (refer : closure.refer sources limits kappa = .ok counted) : counted.Free := by
  obtain ⟨_,_,blockers,_,halted,_⟩ := refer_cases refer
  refine ⟨halted.trans free.going,?_⟩
  intro ⟨limit,maximum,actual,edge,member⟩
  rw [blockers] at member
  exact free.unlimited ⟨limit,maximum,actual,edge,member⟩

theorem failure_unlimited (failure : ResolutionFailure) (kappa : Kappa) (edge : ManifestEdge) (limit : PlanLimit)
    (maximum actual : Nat) (other : Option ManifestEdge) :
    failure.blocker kappa edge ≠ .limitExceeded limit maximum actual other := by
  cases failure <;> simp [ResolutionFailure.blocker]

theorem fail_free (free : closure.Free) (kappa : Kappa) (edge : ManifestEdge)
    (failure : ResolutionFailure) : (closure.fail kappa edge failure).Free := by
  have told := free.block (failure_unlimited failure kappa edge)
  exact ⟨told.going,told.unlimited⟩

theorem resolve_free {closure : ClosureResolver} (ample : limits.Ample) (free : closure.Free)
    (ran : closure.resolve hologram sources limits kappa edge = .ok (object,next)) : next.Free := by
  cases resolve_cases ran with
  | known object found => exact free
  | failed failure absent before => exact free.block (failure_unlimited failure kappa edge)
  | halted absent unfailed ended => exact free
  | overCount actual absent unfailed going beyond => exact absurd beyond (refer_ample ample closure kappa actual)
  | missing counted absent unfailed going refer nowhere =>
    exact fail_free (refer_free free refer) kappa edge .missing
  | mismatch counted bytes source absent unfailed going refer found other =>
    exact fail_free (refer_free free refer) kappa edge (.mismatch source)
  | overBytes counted bytes source absent unfailed going refer found same beyond =>
    have most := saturatingAdd_le counted.resolvedBytes (saturated bytes.length)
    have least := ample.bytes
    omega
  | resolved counted bytes source absent unfailed going refer found same within =>
    have counts := refer_free free refer
    exact ⟨counts.going,counts.unlimited⟩

-- The most applications that can lie in so many levels below one, when none has
-- more children than the breadth.
def subtree (breadth : Nat) : Nat → Nat
  | 0 => 0
  | levels+1 => breadth*(1+subtree breadth levels)

section Budget
variable (breadth levels : Nat)

def PendingApplication.weight (application : PendingApplication) : Nat := subtree breadth (levels-application.depth)

def Walk.total (walk : Walk) : Nat :=
  (walk.pending.map (PendingApplication.weight breadth levels)).sum+walk.applicationCount

end Budget
namespace Walk
variable {breadth levels : Nat}

structure Free (walk : Walk) : Prop where
  closure : walk.closure.Free
  applications : walk.applicationsLimited = false

-- A part of a visit that costs at most so many applications.
structure Spends (breadth levels cost : Nat) (walk next : Walk) : Prop where
  free : next.Free
  total : next.total breadth levels ≤ walk.total breadth levels+cost

theorem Spends.trans (first : Spends breadth levels one walk middle)
    (second : Spends breadth levels two middle next) : Spends breadth levels (one+two) walk next := by
  refine ⟨second.free,?_⟩
  have a := first.total
  have b := second.total
  omega

variable {walk next : Walk}

theorem Spends.aside (closure : next.closure.Free) (applications : next.applicationsLimited = false)
    (pending : next.pending = walk.pending) (count : next.applicationCount = walk.applicationCount) :
    Spends breadth levels 0 walk next := by
  refine ⟨⟨closure,applications⟩,Nat.le_of_eq ?_⟩
  unfold Walk.total
  rw [pending,count,Nat.add_zero]

theorem spends_foldlM {α : Type} {step : Walk → α → Except LiveError Walk} {items : List α}
    (each : ∀ item ∈ items,∀ walk next : Walk,walk.Free → walk.total breadth levels+cost ≤ budget →
      step walk item = .ok next → Spends breadth levels cost walk next) (free : walk.Free)
    (within : walk.total breadth levels+items.length*cost ≤ budget) (ran : items.foldlM step walk = .ok out) :
    Spends breadth levels (items.length*cost) walk out := by
  induction items generalizing walk with
  | nil => cases ran; exact ⟨free,Nat.le_add_right _ _⟩
  | cons item rest ih =>
    rw [List.foldlM_cons] at ran
    obtain ⟨middle,first,others⟩ := bind_ok ran
    rw [List.length_cons,Nat.succ_mul] at within ⊢
    have one := each item List.mem_cons_self walk middle free (by omega) first
    have bound := one.total
    have two := ih (fun item member => each item (List.mem_cons_of_mem _ member)) one.free (by omega) others
    rw [Nat.add_comm]
    exact one.trans two

variable (ample : limits.Ample)
include ample

theorem resolveRequires_spends {application : PendingApplication} {walk next : Walk} (free : walk.Free)
    (ran : walk.resolveRequires hologram sources limits application = .ok next) : Spends breadth levels 0 walk next := by
  unfold resolveRequires at ran
  obtain ⟨⟨object,closure⟩,resolved,ran⟩ := bind_ok ran
  have kept := resolve_free ample free.closure resolved
  cases object with
  | none => cases ran; exact .aside kept free.applications rfl rfl
  | some object =>
    dsimp only at ran
    split at ran
    · cases ran
      exact .aside (kept.block (by simp)) free.applications rfl rfl
    · split at ran
      · cases ran; exact .aside kept free.applications rfl rfl
      · cases ran
        refine .aside ?_ ?_ (admission_pending _ _ _) ?_
        · rw [admission_closure]; exact kept
        · unfold admission; split <;> exact free.applications
        · unfold admission; split <;> rfl

variable {application : PendingApplication}

theorem resolveLayer_spends (free : walk.Free)
    (ran : walk.resolveLayer hologram sources limits application entry = .ok next) :
    Spends breadth levels 0 walk next := by
  unfold resolveLayer at ran
  obtain ⟨⟨object,closure⟩,resolved,ran⟩ := bind_ok ran
  cases ran
  exact .aside (resolve_free ample free.closure resolved) free.applications rfl rfl

theorem resolveDelegated_spends {walk next : Walk} {kappa : Kappa} {edge : ManifestEdge}
    {delegated : Option DelegatedCapabilities} {source : Option ResolutionSource} (free : walk.Free)
    (ran : walk.resolveDelegated hologram sources limits kappa edge = .ok (delegated,source,next)) :
    Spends breadth levels 0 walk next := by
  unfold resolveDelegated at ran
  obtain ⟨⟨object,closure⟩,resolved,ran⟩ := bind_ok ran
  have kept := resolve_free ample free.closure resolved
  cases object with
  | none => cases ran; exact .aside kept free.applications rfl rfl
  | some object =>
    dsimp only at ran
    split at ran
    · cases ran; exact .aside kept free.applications rfl rfl
    · cases ran; exact .aside (kept.block (by simp)) free.applications rfl rfl

theorem queueChild_spends {application : PendingApplication} {walk next : Walk} {reference : ChildReference} {index : Nat}
    {delegated : Option DelegatedCapabilities} (free : walk.Free)
    (ran : walk.queueChild hologram sources limits application reference index delegated = .ok next) :
    Spends breadth levels (subtree breadth (levels-(application.depth+1))) walk next := by
  unfold queueChild at ran
  dsimp only at ran
  obtain ⟨⟨object,closure⟩,resolved,ran⟩ := bind_ok ran
  have kept := resolve_free ample free.closure resolved
  have lighter {next : Walk} (spends : Spends breadth levels 0 walk next) :
      Spends breadth levels (subtree breadth (levels-(application.depth+1))) walk next :=
    ⟨spends.free,Nat.le_trans spends.total (Nat.add_le_add_left (Nat.zero_le _) _)⟩
  cases object with
  | none => cases ran; exact lighter (.aside kept free.applications rfl rfl)
  | some object =>
    dsimp only at ran
    split at ran
    · cases ran
      exact lighter (.aside (kept.block (by simp)) free.applications rfl rfl)
    · split at ran
      · cases ran
        refine ⟨⟨kept,free.applications⟩,Nat.le_of_eq ?_⟩
        simp only [Walk.total,List.map_append,List.sum_append,List.map_singleton,List.sum_singleton,PendingApplication.weight]
        omega
      · cases ran
        refine ⟨⟨kept,free.applications⟩,Nat.le_of_eq ?_⟩
        simp only [Walk.total,List.map_append,List.sum_append,List.map_singleton,List.sum_singleton,PendingApplication.weight]
        omega

theorem visitChild_spends (shallow : application.depth+1 ≤ limits.maxDepth) (free : walk.Free)
    (within : walk.total breadth levels+(1+subtree breadth (levels-(application.depth+1))) ≤ limits.maxApplications)
    (ran : walk.visitChild hologram sources limits application entry = .ok next) :
    Spends breadth levels (1+subtree breadth (levels-(application.depth+1))) walk next := by
  obtain ⟨⟨childKappa,capabilitiesKappa⟩,index⟩ := entry
  simp only [visitChild] at ran
  split at ran
  · rename_i path _
    cases ran
    refine ⟨⟨?_,free.applications⟩,Nat.le_add_right _ _⟩
    exact ClosureResolver.Free.block free.closure (by simp)
  · rw [if_neg (Nat.not_lt.mpr shallow),free.applications] at ran
    have few : walk.applicationCount < limits.maxApplications := by
      have counted : walk.applicationCount ≤ walk.total breadth levels := Nat.le_add_left _ _
      omega
    simp only [Bool.false_eq_true,if_false,if_neg (Nat.not_le.mpr few)] at ran
    unfold admitChild at ran
    obtain ⟨⟨delegated,source,middle⟩,delegating,ran⟩ := bind_ok ran
    dsimp only at ran
    have started : Free {walk with
        applicationCount := walk.applicationCount+1
        maxDepth := max walk.maxDepth (application.depth+1)} := ⟨free.closure,free.applications⟩
    have one := @resolveDelegated_spends hologram sources limits breadth levels ample _ _ _ _ _ _ started delegating
    have two := @queueChild_spends hologram sources limits breadth levels ample _ _ _ _ _ _ one.free ran
    refine ⟨two.free,?_⟩
    have counted : Walk.total breadth levels {walk with
        applicationCount := walk.applicationCount+1
        maxDepth := max walk.maxDepth (application.depth+1)} = walk.total breadth levels+1 := rfl
    have a := one.total
    have b := two.total
    omega

theorem visit_spends {ended : Bool}
    (shallow : application.depth+1 ≤ limits.maxDepth) (deep : application.depth < levels)
    (narrow : application.manifest.children.length ≤ breadth) (free : walk.Free)
    (within : walk.total breadth levels+application.weight breadth levels ≤ limits.maxApplications)
    (ran : walk.visit hologram sources limits application = .ok (next,ended)) :
    Spends breadth levels (application.weight breadth levels) walk next ∧ ended = false := by
  have weighs : application.manifest.children.length*(1+subtree breadth (levels-(application.depth+1))) ≤
      application.weight breadth levels := by
    unfold PendingApplication.weight
    rw [show levels-application.depth = (levels-(application.depth+1))+1 by omega,subtree]
    exact Nat.mul_le_mul_right _ narrow
  unfold visit at ran
  dsimp only at ran
  have entered : Spends breadth levels 0 walk (walk.enter application) := by
    refine .aside ?_ ?_ ?_ ?_
    · simp only [enter,admission_closure]; exact free.closure
    · unfold enter admission; split <;> exact free.applications
    · simp only [enter,admission_pending]
    · unfold enter admission; split <;> rfl
  have few : ¬limits.maxLayers < (walk.enter application).totalLayers := by
    have most : (walk.enter application).totalLayers ≤ u64Max := saturatingAdd_le _ _
    have least := ample.layers
    omega
  rw [if_neg few] at ran
  obtain ⟨walk₁,requires,ran⟩ := bind_ok ran
  have one := entered.trans (@resolveRequires_spends hologram sources limits breadth levels ample _ _ _ entered.free requires)
  obtain ⟨walk₂,layers,ran⟩ := bind_ok ran
  have layer : ∀ entry ∈ application.manifest.layers.zipIdx,∀ walk next : Walk,walk.Free →
      walk.total breadth levels+0 ≤ limits.maxApplications →
      walk.resolveLayer hologram sources limits application entry = .ok next → Spends breadth levels 0 walk next :=
    fun entry _ walk next free _ step => resolveLayer_spends ample free step
  have two := one.trans (spends_foldlM layer one.free (by have := one.total; omega) layers)
  rw [two.free.closure.going] at ran
  simp only [Bool.false_eq_true,if_false] at ran
  obtain ⟨walk₃,children,ran⟩ := bind_ok ran
  cases ran
  have child : ∀ entry ∈ application.manifest.children.zipIdx,∀ walk next : Walk,walk.Free →
      walk.total breadth levels+(1+subtree breadth (levels-(application.depth+1))) ≤ limits.maxApplications →
      walk.visitChild hologram sources limits application entry = .ok next →
      Spends breadth levels (1+subtree breadth (levels-(application.depth+1))) walk next :=
    fun entry _ walk next free within step => visitChild_spends ample shallow free within step
  have bound := two.total
  rw [Nat.mul_zero] at bound
  have three := two.trans (spends_foldlM child two.free (by rw [List.length_zipIdx]; omega) children)
  refine ⟨⟨three.free,?_⟩,three.free.closure.going⟩
  have total := three.total
  simp only [List.length_zipIdx,Nat.mul_zero] at total
  omega

end Walk
def Sources.Among (hologram : Hologram) (sources : Sources) (keys : List Kappa) : Prop :=
  ∀ kappa object,sources.object hologram kappa = some object → kappa ∈ keys

theorem embedded_among (hologram : Hologram) (embedded : Table Kappa Bytes) :
    Sources.Among hologram ⟨embedded,fun _ => .ok none⟩ (embedded.toList.map (·.1)) := by
  intro kappa object named
  obtain ⟨_,found,_⟩ := found_of_object named
  unfold Sources.lookup at found
  split at found
  · rename_i bytes inside
    exact List.mem_map.mpr ⟨(kappa,bytes),mem_rows.mpr inside,rfl⟩
  · cases found

def breadthOf (hologram : Hologram) (sources : Sources) (keys : List Kappa) (root : Occurrence) : Nat :=
  (root.manifest.children.length :: keys.map fun kappa =>
    ((sources.childManifest hologram kappa).map fun manifest => manifest.children.length).getD 0).sum

theorem reached_narrow (among : sources.Among hologram keys) (reached : ReachedFrom hologram sources root application) :
    application.manifest.children.length ≤ breadthOf hologram sources keys root := by
  cases reached with
  | root => exact List.le_sum_of_mem List.mem_cons_self
  | child above edge fresh resolved =>
    rename_i parent child manifest
    refine List.le_sum_of_mem (List.mem_cons_of_mem _ (List.mem_map.mpr ⟨child.1,?_,?_⟩))
    · obtain ⟨object,named,_⟩ := Option.bind_eq_some_iff.mp resolved
      exact among _ _ named
    · rw [resolved]
      rfl

-- A path meets no application twice, so it is no longer than there are kappas.
theorem reached_path (among : sources.Among hologram keys) (from_ : root.path = [start]) (reached : ReachedFrom hologram sources root application) :
    application.path.Nodup ∧ application.path ⊆ start :: keys := by
  induction reached with
  | root =>
    rw [from_]
    exact ⟨List.nodup_singleton start,List.cons_subset_cons start (List.nil_subset keys)⟩
  | child above edge fresh resolved ih =>
    rename_i parent child manifest
    obtain ⟨object,named,_⟩ := Option.bind_eq_some_iff.mp resolved
    refine ⟨?_,?_⟩
    · exact List.nodup_append.mpr ⟨ih.1,List.nodup_singleton _,fun a member b last => by
        rw [List.mem_singleton.mp last]
        rintro rfl
        exact fresh member⟩
    · exact List.append_subset.mpr ⟨ih.2,List.cons_subset.mpr
        ⟨List.mem_cons_of_mem _ (among _ _ named),List.nil_subset _⟩⟩

theorem reached_depth (among : sources.Among hologram keys) (from_ : root.path = [start]) (reached : ReachedFrom hologram sources root application) :
    application.path.length ≤ keys.length+1 := by
  obtain ⟨nodup,inside⟩ := reached_path among from_ reached
  exact (List.subperm_of_subset nodup inside).length_le

def Placed (hologram : Hologram) (sources : Sources) (root : Occurrence) (application : PendingApplication) : Prop :=
  Queued hologram sources root application ∧ application.depth+1 = application.path.length

theorem placed_rule : PlanRule hologram sources limits (Placed hologram sources root) (Faithful hologram sources root) where
  resolve application closure kappa edge object next so := faithful_rule.resolve application closure kappa edge object next so.1
  block closure blocker before plain := before.block blocker plain
  child application closure child edge object next manifest applicationIndex admissionIndex so before edgeOf fresh ran
      decoded := by
    refine ⟨faithful_rule.child application closure child edge object next manifest applicationIndex admissionIndex so.1
      before edgeOf fresh ran decoded,?_⟩
    show application.depth+1+1 = (application.path ++ [object.kappa]).length
    rw [List.length_append,so.2]
    rfl

section Run
variable {keys : List Kappa} {start : Kappa}

theorem Walk.run_free (ample : limits.Ample) (among : sources.Among hologram keys) (from_ : root.path = [start])
    (deep : keys.length+1 ≤ limits.maxDepth) {walk out : Walk}
    (keeps : walk.Keeps (Placed hologram sources root) (Faithful hologram sources root)) (free : walk.Free)
    (within : walk.total (breadthOf hologram sources keys root) (keys.length+1) ≤ limits.maxApplications)
    (ran : walk.run hologram sources limits turns = .ok out) : out.Free := by
  induction turns generalizing walk with
  | zero => cases ran; exact free
  | succ turns ih =>
    unfold Walk.run at ran
    split at ran
    · cases ran; exact free
    · rename_i application rest waiting
      obtain ⟨⟨next,ended⟩,visited,ran⟩ := bind_ok ran
      obtain ⟨queued,placed⟩ := keeps.2 application (by rw [waiting]; exact List.mem_cons_self)
      have others : Walk.Keeps (Placed hologram sources root) (Faithful hologram sources root) {walk with pending := rest} :=
        ⟨keeps.1,fun other member => keeps.2 other (by rw [waiting]; exact List.mem_cons_of_mem _ member)⟩
      have depth := reached_depth among from_ queued
      have free' : Walk.Free {walk with pending := rest} := ⟨free.closure,free.applications⟩
      have popped : Walk.total (breadthOf hologram sources keys root) (keys.length+1) {walk with pending := rest} +
          application.weight (breadthOf hologram sources keys root) (keys.length+1) =
          walk.total (breadthOf hologram sources keys root) (keys.length+1) := by
        simp only [Walk.total,waiting,List.map_cons,List.sum_cons]; omega
      dsimp only at depth
      have shallow : application.depth+1 ≤ limits.maxDepth := by omega
      have below : application.depth < keys.length+1 := by omega
      obtain ⟨spends,going⟩ := Walk.visit_spends ample shallow below (reached_narrow among queued) free'
        (by omega) visited
      have kept := Walk.visit_keeps placed_rule ⟨queued,placed⟩ others visited
      rw [going] at ran
      exact ih kept spends.free (by have := spends.total; omega) ran

end Run

theorem explained_unlimited {keys : List Kappa} (among : Sources.Among hologram ⟨archive.embedded,resolveLocal⟩ keys) :
    ∃ limits,∀ report,explainOpened hologram archive limits resolveLocal = .ok report → report.Unlimited := by
  let breadth := breadthOf hologram ⟨archive.embedded,resolveLocal⟩ keys archive.rootOccurrence
  let limits : PlanLimits := ⟨u64Max,1+subtree breadth (keys.length+1),keys.length+1,u64Max,u64Max⟩
  refine ⟨limits,fun report explained => ?_⟩
  obtain ⟨out,ran,rfl⟩ := explained_run explained
  have ample : limits.Ample := ⟨Nat.le_refl _,Nat.le_refl _,Nat.le_refl _⟩
  have started : Walk.start limits archive = ⟨.empty,[],[],none,1,0,0,false,
      [⟨0,none,archive.identity.applicationKappa,archive.rootPlanManifest,0,[archive.identity.applicationKappa]⟩]⟩ := by
    unfold Walk.start
    exact if_neg (by show ¬1+subtree breadth (keys.length+1) < 1; omega)
  have keeps : (Walk.start limits archive).Keeps (Placed hologram ⟨archive.embedded,resolveLocal⟩ archive.rootOccurrence)
      (Faithful hologram ⟨archive.embedded,resolveLocal⟩ archive.rootOccurrence) := by
    rw [started]
    refine ⟨faithful_empty,fun application member => ?_⟩
    rw [List.mem_singleton.mp member]
    exact ⟨.root,rfl⟩
  have free : (Walk.start limits archive).Free := by
    rw [started]
    refine ⟨⟨rfl,?_⟩,rfl⟩
    intro ⟨limit,maximum,actual,edge,member⟩
    cases member
  have within : (Walk.start limits archive).total breadth (keys.length+1) ≤ limits.maxApplications := by
    rw [started]
    show subtree breadth (keys.length+1-0)+0+1 ≤ 1+subtree breadth (keys.length+1)
    rw [Nat.sub_zero]
    omega
  have done := Walk.run_free ample among rfl (Nat.le_refl _) keeps free within ran
  intro limit maximum actual edge told
  exact done.closure.unlimited ⟨limit,maximum,actual,edge,report_unresolved told (by simp)⟩

end HologramLive
