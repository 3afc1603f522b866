import HologramLive.Holo.PlanComplete
namespace HologramLive
open Tables Fallible Forests ApplicationPlanReport Option List

-- Times are counted in nanoseconds.
structure ComponentLimits where
  memoryMaxBytes : Nat
  fuelPerInput : Nat
  inputMaxBytes : Nat
  outputMaxBytes : Nat
  deadline : Nat
deriving DecidableEq, Repr

def nanosPerMilli : Nat := 1000000

def ComponentLimits.default : ComponentLimits :=
  ⟨64*1024*1024,100000000,1024*1024,1024*1024,2000*nanosPerMilli⟩

def tightenUsize (usizeMax host requested granted : Nat) : Nat :=
  ([requested,granted].filter (0 < ·)).foldl (fun limit value => min limit (min value usizeMax)) host

variable (host requested granted : Nat)

def tightenU64 : Nat := ([requested,granted].filter (0 < ·)).foldl min host

def ComponentLimits.tighten (usizeMax : Nat) (limits : ComponentLimits) (request grant : Capabilities) :
    ComponentLimits :=
  let cpuMs := tightenU64 (saturated (limits.deadline/nanosPerMilli)) request.cpuTimePerEventMs grant.cpuTimePerEventMs
  {limits with
    memoryMaxBytes := tightenUsize usizeMax limits.memoryMaxBytes request.memoryMaxBytes grant.memoryMaxBytes
    deadline := max cpuMs 1*nanosPerMilli}

def statedBound (requested granted : Nat) : Option Nat := ([requested,granted].filter (0 < ·)).min?

theorem tightenU64_eq :
    tightenU64 host requested granted = match statedBound requested granted with
      | none => host
      | some bound => min host bound := by
  unfold tightenU64 statedBound
  by_cases asked : 0 < requested <;> by_cases given : 0 < granted <;>
    simp [asked,given,List.min?_cons,Nat.min_assoc]

theorem tightenUsize_eq (usizeMax host requested granted : Nat) :
    tightenUsize usizeMax host requested granted = match statedBound requested granted with
      | none => host
      | some bound => min host (min bound usizeMax) := by
  unfold tightenUsize statedBound
  by_cases asked : 0 < requested <;> by_cases given : 0 < granted <;>
    simp [asked,given,List.min?_cons]

-- Whoever states no smaller bound than the host's, or one that the other's bound
-- is within.
def Follows (host : Nat) (parent child : Option Nat) : Prop :=
  ∀ p,parent = some p → host ≤ p ∨ ∃ c,child = some c ∧ c ≤ p

theorem min_le_iff_follows (host : Nat) (parent child : Option Nat) :
    (match child with | none => host | some bound => min host bound) ≤
      (match parent with | none => host | some bound => min host bound) ↔ Follows host parent child := by
  cases parent with
  | none =>
    refine ⟨fun _ p absent => (by cases absent),fun _ => ?_⟩
    cases child with
    | none => exact Nat.le_refl _
    | some c => exact Nat.min_le_left _ _
  | some p =>
    cases child with
    | none =>
      constructor
      · intro le q same; cases same
        exact .inl (le.trans (Nat.min_le_right _ _))
      · intro follows
        obtain small | ⟨c,absent,_⟩ := follows p rfl
        · exact Nat.le_min.mpr ⟨Nat.le_refl _,small⟩
        · cases absent
    | some c =>
      constructor
      · intro le q same; cases same
        dsimp only at le
        by_cases small : host ≤ p
        · exact .inl small
        · exact .inr ⟨c,rfl,by omega⟩
      · intro follows
        dsimp only
        obtain small | ⟨_,same,le⟩ := follows p rfl
        · omega
        · cases same; omega

namespace ComponentLimits
variable (usizeMax : Nat) (limits : ComponentLimits)

variable (parentRequest parentGrant childRequest childGrant : Capabilities)

-- When a child's limits are within its parent's, each taken from the same host's.
theorem tighten_memory_iff : (limits.tighten usizeMax childRequest childGrant).memoryMaxBytes ≤
      (limits.tighten usizeMax parentRequest parentGrant).memoryMaxBytes ↔ Follows limits.memoryMaxBytes
      ((statedBound parentRequest.memoryMaxBytes parentGrant.memoryMaxBytes).map (min · usizeMax))
      ((statedBound childRequest.memoryMaxBytes childGrant.memoryMaxBytes).map (min · usizeMax)) := by
  rw [←min_le_iff_follows]
  simp only [tighten,tightenUsize_eq]
  cases statedBound parentRequest.memoryMaxBytes parentGrant.memoryMaxBytes <;>
    cases statedBound childRequest.memoryMaxBytes childGrant.memoryMaxBytes <;> exact Iff.rfl

theorem stated_positive {requested granted bound : Nat} (stated : statedBound requested granted = some bound) :
    0 < bound := by
  have member := List.min?_mem stated
  simpa using (mem_filter.mp member).2

theorem tighten_deadline_iff : (limits.tighten usizeMax childRequest childGrant).deadline ≤
      (limits.tighten usizeMax parentRequest parentGrant).deadline ↔ Follows (saturated (limits.deadline/nanosPerMilli))
      (statedBound parentRequest.cpuTimePerEventMs parentGrant.cpuTimePerEventMs)
      (statedBound childRequest.cpuTimePerEventMs childGrant.cpuTimePerEventMs) := by
  rw [←min_le_iff_follows]
  simp only [tighten,tightenU64_eq]
  have floored (x y : Nat) : max x 1 ≤ max y 1 ↔ x ≤ y ∨ x ≤ 1 := by omega
  rw [Nat.mul_le_mul_right_iff (by decide),floored]
  generalize saturated (limits.deadline/nanosPerMilli) = host
  cases parent : statedBound parentRequest.cpuTimePerEventMs parentGrant.cpuTimePerEventMs with
  | none =>
    cases child : statedBound childRequest.cpuTimePerEventMs childGrant.cpuTimePerEventMs with
    | none => simp
    | some c => simp
  | some p =>
    have positive := stated_positive parent
    cases child : statedBound childRequest.cpuTimePerEventMs childGrant.cpuTimePerEventMs with
    | none =>
      dsimp only
      rw [Nat.min_def]
      split <;> omega
    | some c =>
      have positive' := stated_positive child
      dsimp only
      rw [Nat.min_def,Nat.min_def]
      split <;> split <;> omega

end ComponentLimits
-- A plan that the planner gives, whatever the archive, the limits, the local store
-- and the providers.
def Planned (hologram : Hologram) (plan : ApplicationPlan) : Prop :=
  ∃ archiveBytes limits resolveLocal report evaluate,
    explainApplication hologram archiveBytes limits resolveLocal = .ok report ∧
    (report.evaluateProviders evaluate).intoApplicationPlan = .ok plan

def Numbered (children : List ResolvedChild) : Prop :=
  ∀ (i : Nat) child,children[i]? = some child → child.applicationIndex = i+1 ∧ child.parentApplicationIndex ≤ i

variable {report : ApplicationPlanReport}

theorem explained_opened {limits : PlanLimits}
    (explained : explainApplication hologram archiveBytes limits resolveLocal = .ok report) :
    ∃ archive,openArchive hologram archiveBytes = .ok archive ∧
      explainOpened hologram archive limits resolveLocal = .ok report := bind_ok explained

variable {plan : ApplicationPlan}

theorem intoApplicationPlan_cases (into : report.intoApplicationPlan = .ok plan) :
    report.blockers = [] ∧ report.requestedCapabilities = some plan.requestedCapabilities ∧
      List.Forall₂ (fun child resolved => strictChild report.objects child = .ok resolved)
        report.childAdmissions plan.children := by
  unfold intoApplicationPlan at into
  split at into
  · cases into
  · rename_i clean
    split at into
    · cases into
    · rename_i requested named
      obtain ⟨layers,_,into⟩ := bind_ok into
      obtain ⟨children,resolved,into⟩ := bind_ok into
      cases into
      exact ⟨clean,named,mapM_ok_forall resolved⟩

theorem strictChild_fields {objects : Table Kappa ResolvedObject} (strict : strictChild objects child = .ok resolved) :
    resolved.applicationIndex = child.applicationIndex ∧
      resolved.parentApplicationIndex = child.parentApplicationIndex ∧
      resolved.delegatedCapabilities = child.delegatedCapabilities ∧
      some resolved.requestedCapabilities = child.requestedCapabilities := by
  unfold strictChild at strict
  obtain ⟨layers,_,strict⟩ := bind_ok strict
  split at strict
  · cases strict
  · rename_i requested named
    cases strict
    exact ⟨rfl,rfl,rfl,named.symm⟩

theorem planned_numbered (planned : Planned hologram plan) : Numbered plan.children := by
  obtain ⟨archiveBytes,limits,resolveLocal,report,evaluate,explained,into⟩ := planned
  obtain ⟨archive,_,explained⟩ := explained_opened explained
  obtain ⟨clean,_,children⟩ := intoApplicationPlan_cases into
  have unblocked : report.blockers = [] :=
    (append_eq_nil_iff.mp (append_eq_nil_iff.mp clean).1).1
  obtain ⟨_,order,closure,drains,_,_,rfl⟩ := explainOpened_clean explained unblocked
  have ordered := ordered_drain drains
  intro i child at_
  obtain ⟨judged,judgedAt,strict⟩ := forall₂_at children at_
  obtain ⟨index,parentIndex,_,_⟩ := strictChild_fields strict
  simp only [evaluateProviders,cleanReport_admissions ordered,List.getElem?_map,
    List.getElem?_zipIdx,Option.map_map,map_eq_some_iff] at judgedAt
  obtain ⟨edge,edgeAt,rfl⟩ := judgedAt
  rw [index,parentIndex]
  exact ⟨by simp [listedAdmission],ordered.parents i edge edgeAt⟩

-- Admission reads a table of grants that has one row for each application that was
-- admitted so far.
structure Admitted (hologram : Hologram) (rootGrant : EffectiveGrant) (done : List ResolvedChild)
    (grants : Table Nat EffectiveGrant) : Prop where
  covers : ∀ i : Nat,(grants[i]?).isSome ↔ i ≤ done.length
  root : grants[(0 : Nat)]? = some rootGrant
  within : ∀ (i : Nat) grant,grants[i]? = some grant → hologram.admits rootGrant.capabilities grant.capabilities
  attenuated : ∀ (i : Nat) child,done[i]? = some child → ∃ parent,grants[child.parentApplicationIndex]? = some parent ∧
    grants[i+1]? = some (EffectiveGrant.fromDelegation child.delegatedCapabilities) ∧
    hologram.admits parent.capabilities child.delegatedCapabilities.capabilities ∧
    hologram.admits child.delegatedCapabilities.capabilities child.requestedCapabilities.capabilities

structure Hologram.AdmitsOrder (hologram : Hologram) : Prop where
  refl : ∀ grant,hologram.admits grant grant
  trans : ∀ grant delegated request,hologram.admits grant delegated → hologram.admits delegated request →
    hologram.admits grant request
  memory : ∀ grant request,hologram.admits grant request → request.memoryMaxBytes ≤ grant.memoryMaxBytes
  cpu : ∀ grant request,hologram.admits grant request → request.cpuTimePerEventMs ≤ grant.cpuTimePerEventMs

theorem authorizeChildDelegation_cases (hologram : Hologram) (parentKappa parentGrantKappa : Kappa)
    (parentGrant : Capabilities) (childKappa : Kappa) (delegated : DelegatedCapabilities)
    (request : RequestedCapabilities) :
    (authorizeChildDelegation hologram parentKappa parentGrantKappa parentGrant childKappa delegated request = .ok () ∧
      hologram.admits parentGrant delegated.capabilities ∧
      hologram.admits delegated.capabilities request.capabilities) ∨
    ∃ message,authorizeChildDelegation hologram parentKappa parentGrantKappa parentGrant childKappa delegated request =
      .error (.authorization message) := by
  unfold authorizeChildDelegation
  cases delegable : hologram.admits parentGrant delegated.capabilities with
  | false => exact .inr ⟨_,rfl⟩
  | true =>
    cases admitted : hologram.admits delegated.capabilities request.capabilities with
    | false => exact .inr ⟨_,rfl⟩
    | true => exact .inl ⟨rfl,rfl,rfl⟩

namespace Admitted
variable {hologram : Hologram} {rootGrant : EffectiveGrant} {done : List ResolvedChild}
  {grants : Table Nat EffectiveGrant}

theorem child (so : Admitted hologram rootGrant done grants) (order : hologram.AdmitsOrder) {child : ResolvedChild}
    {parent : EffectiveGrant} (index : child.applicationIndex = done.length+1)
    (found : grants[child.parentApplicationIndex]? = some parent)
    (delegable : hologram.admits parent.capabilities child.delegatedCapabilities.capabilities)
    (admitted : hologram.admits child.delegatedCapabilities.capabilities child.requestedCapabilities.capabilities) :
    Admitted hologram rootGrant (done ++ [child])
      (grants.insert child.applicationIndex (.fromDelegation child.delegatedCapabilities)) := by
  have kept (i : Nat) (short : i ≤ done.length) :
      (grants.insert child.applicationIndex (.fromDelegation child.delegatedCapabilities))[i]? = grants[i]? := by
    rw [get_insert,if_neg (by omega)]
  have new : (grants.insert child.applicationIndex (.fromDelegation child.delegatedCapabilities))[done.length+1]? =
      some (.fromDelegation child.delegatedCapabilities) := by
    rw [get_insert,if_pos index]
  refine ⟨?_,?_,?_,?_⟩
  · intro i
    rw [get_insert,length_append,length_singleton,index]
    split
    · rename_i same
      simp [←same]
    · rw [so.covers]
      omega
  · rw [kept 0 (Nat.zero_le _)]
    exact so.root
  · intro i grant
    rw [get_insert]
    split
    · intro same
      cases same
      exact order.trans _ _ _ (so.within _ _ found) delegable
    · exact so.within i grant
  · intro i other at_
    by_cases old : i < done.length
    · rw [List.getElem?_append_left old] at at_
      obtain ⟨parent',parentAt,grantAt,rest⟩ := so.attenuated i other at_
      refine ⟨parent',?_,?_,rest⟩
      · rw [kept _ ((so.covers _).mp (by rw [parentAt]; rfl))]
        exact parentAt
      · rw [kept _ old]; exact grantAt
    · have here := List.getElem?_eq_some_iff.mp at_
      have last : i = done.length := by
        have short := here.1
        rw [length_append,length_singleton] at short; omega
      rw [last,List.getElem?_concat_length] at at_
      cases at_
      refine ⟨parent,?_,?_,delegable,admitted⟩
      · rw [kept _ ((so.covers _).mp (by rw [found]; rfl))]
        exact found
      · rw [last]; exact new

theorem children (order : hologram.AdmitsOrder) (numbered : Numbered (done ++ rest))
    (so : Admitted hologram rootGrant done grants) :
    (∃ out,(ApplicationPlan.admitChildren hologram grants rest).2 = .ok out ∧
      Admitted hologram rootGrant (done ++ rest) out) ∨
    ∃ message,(ApplicationPlan.admitChildren hologram grants rest).2 = .error (.authorization message) := by
  induction rest generalizing done grants with
  | nil => rw [append_nil]; exact .inl ⟨grants,rfl,so⟩
  | cons child rest ih =>
    obtain ⟨index,parentIndex⟩ := numbered done.length child (by simp)
    obtain ⟨parent,found⟩ := isSome_iff_exists.mp ((so.covers _).mpr parentIndex)
    unfold ApplicationPlan.admitChildren
    rw [found]
    dsimp only
    obtain ⟨allowed,delegable,admitted⟩ | ⟨message,denied⟩ := authorizeChildDelegation_cases hologram
      child.parentApplicationKappa parent.kappa parent.capabilities child.applicationKappa child.delegatedCapabilities
      child.requestedCapabilities
    · rw [allowed]
      rw [append_cons] at numbered ⊢
      exact ih numbered (so.child order index found delegable admitted)
    · rw [denied]
      exact .inr ⟨message,rfl⟩

end Admitted

def ApplicationPlan.requestOf (plan : ApplicationPlan) : Nat → Option RequestedCapabilities
  | 0 => some plan.requestedCapabilities
  | i+1 => (plan.children[i]?).map (·.requestedCapabilities)

-- How the limits of a child are to those of its parent and to the host's.
structure LimitsFollow (usizeMax : Nat) (host : ComponentLimits)
    (parentRequest parentGrant childRequest childGrant : Capabilities) : Prop where
  memory : (host.tighten usizeMax childRequest childGrant).memoryMaxBytes ≤
      (host.tighten usizeMax parentRequest parentGrant).memoryMaxBytes ↔
    Follows host.memoryMaxBytes
      ((statedBound parentRequest.memoryMaxBytes parentGrant.memoryMaxBytes).map (min · usizeMax))
      ((statedBound childRequest.memoryMaxBytes childGrant.memoryMaxBytes).map (min · usizeMax))
  deadline : (host.tighten usizeMax childRequest childGrant).deadline ≤
      (host.tighten usizeMax parentRequest parentGrant).deadline ↔
    Follows (saturated (host.deadline/nanosPerMilli))
      (statedBound parentRequest.cpuTimePerEventMs parentGrant.cpuTimePerEventMs)
      (statedBound childRequest.cpuTimePerEventMs childGrant.cpuTimePerEventMs)
  memoryGranted : 0 < childGrant.memoryMaxBytes →
    (host.tighten usizeMax childRequest childGrant).memoryMaxBytes ≤
      (host.tighten usizeMax emptyCapabilities parentGrant).memoryMaxBytes
  deadlineGranted : 0 < childGrant.cpuTimePerEventMs →
    (host.tighten usizeMax childRequest childGrant).deadline ≤
      (host.tighten usizeMax emptyCapabilities parentGrant).deadline
  memoryHost : (host.tighten usizeMax childRequest childGrant).memoryMaxBytes ≤ host.memoryMaxBytes
  deadlineHost : (host.tighten usizeMax childRequest childGrant).deadline ≤ max host.deadline nanosPerMilli

theorem stated_le {requested granted : Nat} (positive : 0 < granted) :
    ∃ bound,statedBound requested granted = some bound ∧ bound ≤ granted := by
  unfold statedBound
  by_cases asked : 0 < requested
  · exact ⟨min requested granted,by simp [asked,positive,List.min?_cons],Nat.min_le_right _ _⟩
  · exact ⟨granted,by simp [asked,positive,List.min?_cons],Nat.le_refl _⟩

theorem stated_grant {granted bound : Nat} (stated : statedBound 0 granted = some bound) : bound = granted := by
  unfold statedBound at stated
  by_cases given : 0 < granted
  · simpa [given,List.min?_cons,eq_comm] using stated
  · simp [given] at stated

theorem limits_follow (usizeMax : Nat) (host : ComponentLimits) {parentRequest parentGrant childRequest childGrant : Capabilities}
    (memory : childGrant.memoryMaxBytes ≤ parentGrant.memoryMaxBytes)
    (cpu : childGrant.cpuTimePerEventMs ≤ parentGrant.cpuTimePerEventMs) :
    LimitsFollow usizeMax host parentRequest parentGrant childRequest childGrant where
  memory := host.tighten_memory_iff usizeMax _ _ _ _
  deadline := host.tighten_deadline_iff usizeMax _ _ _ _
  memoryGranted positive := by
    refine (host.tighten_memory_iff usizeMax _ _ _ _).mpr ?_
    intro p stated
    obtain ⟨granted,whole,rfl⟩ := map_eq_some_iff.mp stated
    obtain ⟨bound,named,le⟩ := @stated_le childRequest.memoryMaxBytes _ positive
    refine .inr ⟨min bound usizeMax,by rw [named]; rfl,?_⟩
    rw [stated_grant whole]
    have := le.trans memory
    omega
  deadlineGranted positive := by
    refine (host.tighten_deadline_iff usizeMax _ _ _ _).mpr ?_
    intro p stated
    obtain ⟨bound,named,le⟩ := @stated_le childRequest.cpuTimePerEventMs _ positive
    rw [stated_grant stated]
    exact .inr ⟨bound,named,le.trans cpu⟩
  memoryHost := by
    simp only [ComponentLimits.tighten,tightenUsize_eq]
    cases statedBound childRequest.memoryMaxBytes childGrant.memoryMaxBytes with
    | none => exact Nat.le_refl _
    | some bound => exact Nat.min_le_left _ _
  deadlineHost := by
    have floor : saturated (host.deadline/nanosPerMilli)*nanosPerMilli ≤ host.deadline :=
      (Nat.mul_le_mul_right _ (Nat.min_le_left _ _)).trans (Nat.div_mul_le_self _ _)
    have scaled (ms : Nat) (within : ms ≤ saturated (host.deadline/nanosPerMilli)) :
        max ms 1*nanosPerMilli ≤ max host.deadline nanosPerMilli := by
      obtain large | small := Nat.le_total 1 ms
      · rw [Nat.max_eq_left large]
        exact ((Nat.mul_le_mul_right _ within).trans floor).trans (Nat.le_max_left _ _)
      · rw [Nat.max_eq_right small,Nat.one_mul]; exact Nat.le_max_right _ _
    simp only [ComponentLimits.tighten,tightenU64_eq]
    refine scaled _ ?_
    cases statedBound childRequest.cpuTimePerEventMs childGrant.cpuTimePerEventMs with
    | none => exact Nat.le_refl _
    | some bound => exact Nat.min_le_left _ _

theorem admittedGrants_confined {hologram : Hologram} (order : hologram.AdmitsOrder) {plan : ApplicationPlan}
    (planned : Planned hologram plan) (rootGrant : EffectiveGrant) :
    (∀ e,plan.admittedGrants hologram rootGrant = .error e → ∃ message,e = .authorization message) ∧
    ∀ grants,plan.admittedGrants hologram rootGrant = .ok grants →
      hologram.admits rootGrant.capabilities plan.requestedCapabilities.capabilities ∧ Numbered plan.children ∧
      Admitted hologram rootGrant plan.children grants ∧
      ∀ usizeMax host (i : Nat) child parentRequest parent,plan.children[i]? = some child →
        plan.requestOf child.parentApplicationIndex = some parentRequest →
        grants[child.parentApplicationIndex]? = some parent →
        LimitsFollow usizeMax host parentRequest.capabilities parent.capabilities
          child.requestedCapabilities.capabilities child.delegatedCapabilities.capabilities := by
  have numbered := planned_numbered planned
  have begun : Admitted hologram rootGrant [] ((∅ : Table Nat EffectiveGrant).insert 0 rootGrant) := by
    refine ⟨?_,?_,?_,?_⟩
    · intro i
      rw [get_insert]
      by_cases zero : 0 = i
      · simp [←zero]
      · have nonzero : ¬i ≤ 0 := by omega
        simp [zero,nonzero]
    · simp
    · intro i grant
      rw [get_insert]
      split
      · intro same; cases same
        exact order.refl _
      · intro found; simp at found
    · intro i child at_
      simp at at_
  unfold ApplicationPlan.admittedGrants ApplicationPlan.admittedGrantsWith EffectiveGrant.authorize
  cases allowed : hologram.admits rootGrant.capabilities plan.requestedCapabilities.capabilities with
  | false =>
    refine ⟨?_,?_⟩
    · intro e denied
      cases denied
      exact ⟨_,rfl⟩
    · intro grants granted
      cases granted
  | true =>
    rw [if_pos rfl]
    dsimp only
    obtain ⟨out,granted,admitted⟩ | ⟨message,denied⟩ :=
      begun.children order (show Numbered ([] ++ plan.children) from numbered)
    · rw [granted]
      refine ⟨?_,?_⟩
      · intro e absent; cases absent
      · intro grants same; cases same
        refine ⟨rfl,numbered,admitted,?_⟩
        intro usizeMax host i child parentRequest parent at_ _ found
        obtain ⟨parent',found',_,delegable,_⟩ := admitted.attenuated i child at_
        cases found.symm.trans found'
        exact limits_follow usizeMax host (order.memory _ _ delegable) (order.cpu _ _ delegable)
    · rw [denied]
      refine ⟨?_,?_⟩
      · intro e same; cases same
        exact ⟨message,rfl⟩
      · intro grants absent; cases absent

theorem tabled_admitsOrder (manifests : List (Bytes × AppManifest)) (capabilities : List (Bytes × Capabilities))
    (directories : List (Bytes × HoloDirectory)) (archives : List (Bytes × HoloLoader)) :
    (Hologram.tabled manifests capabilities directories archives).AdmitsOrder where
  refl := tableAdmits_refl
  trans _ _ _ := tableAdmits_trans
  memory grant request admitted := by
    simp only [Hologram.tabled,tableAdmits,Bool.and_eq_true,decide_eq_true_eq] at admitted
    exact admitted.1.1.2
  cpu grant request admitted := by
    simp only [Hologram.tabled,tableAdmits,Bool.and_eq_true,decide_eq_true_eq] at admitted
    exact admitted.1.2

def thriftySet : Capabilities := {emptyCapabilities with memoryMaxBytes := 65536,cpuTimePerEventMs := 5}

def thriftyBlobs : List Bytes := [[2],[3],[4],[6]]

def thriftyParent : AppManifest :=
  ⟨some 0,tableAddress [3],[⟨.tensorPlan,tableAddress [4],"plan".toList,[]⟩],[(tableAddress [2],tableAddress [6])]⟩

def thriftyChild : AppManifest :=
  ⟨none,tableAddress [6],[⟨.tensorPlan,tableAddress [4],"plan".toList,[]⟩],[]⟩

def thriftyDirectory : HoloDirectory :=
  ⟨1,some 0,tableAddress [3],[⟨0,"tensor".toList,tableAddress [4],"plan".toList,none,none,none,none⟩],
    [⟨0,tableAddress [2],tableAddress [6],none,none,none,none,none⟩],
    thriftyBlobs.map fun bytes => ⟨tableAddress bytes,1⟩⟩

def thriftyLoader : HoloLoader where
  fingerprint := [171]
  intoPlan := .ok ⟨some [1],.ok [(Directory.extensionKey,[5])],
    .ok (thriftyBlobs.map fun bytes => (toUtf8 (tableAddress bytes),bytes))⟩

def thrifty : Hologram :=
  .tabled [([1],thriftyParent),([2],thriftyChild)] [([3],thriftySet),([6],emptyCapabilities)] [([5],thriftyDirectory)]
    [(familyArchive,thriftyLoader)]

def thriftyGrant : EffectiveGrant := ⟨tableAddress [3],[3],thriftySet,.directDevelopmentFile⟩

def thriftyPlan : Option ApplicationPlan := do
  let report ← (explainApplication thrifty familyArchive .default fun _ => .ok none).toOption
  (report.evaluateProviders fun _ => .available "tensor".toList).intoApplicationPlan.toOption

theorem thrifty_planned (planned : thriftyPlan = some plan) : Planned thrifty plan := by
  unfold thriftyPlan at planned
  obtain ⟨report,explained,into⟩ := bind_eq_some_iff.mp planned
  exact ⟨familyArchive,.default,fun _ => .ok none,report,fun _ => .available "tensor".toList,
    ok_of_toOption explained,ok_of_toOption into⟩

open ComponentLimits

def thriftyLimits : Option (ComponentLimits × ComponentLimits) := do
  let plan ← thriftyPlan
  let grants ← (plan.admittedGrants thrifty thriftyGrant).toOption
  let child ← plan.children[0]?
  let request ← plan.requestOf child.parentApplicationIndex
  let parent ← grants[child.parentApplicationIndex]?
  return (default.tighten u64Max request.capabilities parent.capabilities,
    default.tighten u64Max child.requestedCapabilities.capabilities
      child.delegatedCapabilities.capabilities)

theorem thrifty_admitted {limits : ComponentLimits × ComponentLimits} (limited : thriftyLimits = some limits) :
    ∃ plan grants child request parent,Planned thrifty plan ∧ plan.admittedGrants thrifty thriftyGrant = .ok grants ∧
      plan.children[0]? = some child ∧ plan.requestOf child.parentApplicationIndex = some request ∧
      grants[child.parentApplicationIndex]? = some parent ∧
      limits = (default.tighten u64Max request.capabilities parent.capabilities,
        default.tighten u64Max child.requestedCapabilities.capabilities child.delegatedCapabilities.capabilities) := by
  unfold thriftyLimits at limited
  obtain ⟨plan,planned,limited⟩ := bind_eq_some_iff.mp limited
  obtain ⟨grants,granted,limited⟩ := bind_eq_some_iff.mp limited
  obtain ⟨child,first,limited⟩ := bind_eq_some_iff.mp limited
  obtain ⟨request,asked,limited⟩ := bind_eq_some_iff.mp limited
  obtain ⟨parent,found,limited⟩ := bind_eq_some_iff.mp limited
  exact ⟨plan,grants,child,request,parent,thrifty_planned planned,ok_of_toOption granted,first,asked,found,
    (Option.some.inj limited).symm⟩

theorem thrifty_limited : ∃ limits,thriftyLimits = some limits ∧
    limits.1.memoryMaxBytes < limits.2.memoryMaxBytes ∧ limits.1.deadline < limits.2.deadline := by
  have small : thriftyLimits.map (fun limits => decide (limits.1.memoryMaxBytes < limits.2.memoryMaxBytes ∧
      limits.1.deadline < limits.2.deadline)) = some true := by decide
  obtain ⟨limits,limited,less⟩ := map_eq_some_iff.mp small
  exact ⟨limits,limited,of_decide_eq_true less⟩

-- The child's limits are the host's, which are larger than its parent's.
theorem thrifty_child_exceeds_parent : thrifty.AdmitsOrder ∧ ∃ plan grants child request parent,
    Planned thrifty plan ∧ plan.admittedGrants thrifty thriftyGrant = .ok grants ∧ plan.children[0]? = some child ∧
    plan.requestOf child.parentApplicationIndex = some request ∧ grants[child.parentApplicationIndex]? = some parent ∧
    ¬((default.tighten u64Max child.requestedCapabilities.capabilities
        child.delegatedCapabilities.capabilities).memoryMaxBytes ≤
      (default.tighten u64Max request.capabilities parent.capabilities).memoryMaxBytes) ∧
    ¬((default.tighten u64Max child.requestedCapabilities.capabilities
        child.delegatedCapabilities.capabilities).deadline ≤
      (default.tighten u64Max request.capabilities parent.capabilities).deadline) := by
  obtain ⟨limits,limited,memory,deadline⟩ := thrifty_limited
  obtain ⟨plan,grants,child,request,parent,planned,granted,first,asked,found,rfl⟩ := thrifty_admitted limited
  exact ⟨tabled_admitsOrder _ _ _ _,plan,grants,child,request,parent,planned,granted,first,asked,found,
    Nat.not_le_of_lt memory,Nat.not_le_of_lt deadline⟩

theorem thrifty_confined : ∃ plan grants,Planned thrifty plan ∧
    plan.admittedGrants thrifty thriftyGrant = .ok grants ∧ Admitted thrifty thriftyGrant plan.children grants := by
  obtain ⟨limits,limited,_⟩ := thrifty_limited
  obtain ⟨plan,grants,child,request,parent,planned,granted,_⟩ := thrifty_admitted limited
  have confined := (admittedGrants_confined (tabled_admitsOrder _ _ _ _) planned thriftyGrant).2 grants granted
  exact ⟨plan,grants,planned,granted,confined.2.2.1⟩

end HologramLive
