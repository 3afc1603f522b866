import HologramLive.Holo.PlanClosure
import HologramLive.Lib.Asking
namespace HologramLive
open Tables Fallible

-- What can be seen of a planning besides the kappas it asks the local resolver for.
inductive PlanEvent where
  | visiting (application : PendingApplication)
  | accepting (object : ResolvedObject)
deriving DecidableEq, Repr

-- Planning against a local resolver that answers as it likes, each time anew.
abbrev Planning := Trying LiveError PlanEvent Kappa (Except LiveError (Option Bytes))

namespace Planning
variable (hologram : Hologram) (embedded : Table Kappa Bytes) (limits : PlanLimits)

def lookup (kappa : Kappa) : Planning (Option (Bytes × ResolutionSource)) :=
  match embedded[kappa]? with
  | some bytes => pure (some (bytes,.embedded))
  | none => do
    let found ← Trying.ask kappa
    return found.map fun bytes => (bytes,.localStore)

def resolve (closure : ClosureResolver) (kappa : Kappa) (edge : ManifestEdge) :
    Planning (Option ResolvedObject × ClosureResolver) :=
  match closure.objects[kappa]? with
  | some object => pure (some object,closure)
  | none => match closure.failures[kappa]? with
    | some failure => pure (none,closure.block (failure.blocker kappa edge))
    | none =>
      if closure.halted then pure (none,closure)
      else match closure.refer ⟨embedded,fun _ => .ok none⟩ limits kappa with
        | .error actual =>
          pure (none,closure.halt (.limitExceeded .resolvedObjects limits.maxObjects actual (some edge)))
        | .ok closure => do
          match ← lookup embedded kappa with
          | none => return (none,closure.fail kappa edge .missing)
          | some (bytes,source) =>
            if hologram.addressBytes bytes ≠ kappa then return (none,closure.fail kappa edge (.mismatch source))
            else
              let nextTotal := saturatingAdd closure.resolvedBytes (saturated bytes.length)
              if limits.maxResolvedBytes < nextTotal then
                return (none,closure.halt
                  (.limitExceeded .resolvedBytes limits.maxResolvedBytes nextTotal (some edge)))
              else do
                let object : ResolvedObject := ⟨kappa,bytes,source⟩
                Trying.note (.accepting object)
                return (some object,{closure with
                  resolvedBytes := nextTotal
                  objects := closure.objects.insert kappa object})

variable (application : PendingApplication)

variable (walk : Walk)

def resolveRequires : Planning Walk := do
  let requiresKappa := application.manifest.requires
  let (object,closure) ← resolve hologram embedded limits walk.closure requiresKappa (Walk.requiresEdge application)
  let walk := {walk with closure := closure}
  match object with
  | none => return walk
  | some object => match RequestedCapabilities.decode hologram object.kappa object.bytes with
    | .error e => return walk.block (.invalidCapabilitySet object.kappa e.message)
    | .ok capabilities =>
      if application.depth = 0 then return {walk with requestedCapabilities := some capabilities}
      else return walk.admission application fun admission =>
        {admission with requestedCapabilities := some capabilities}

def resolveLayer (entry : Layer × Nat) : Planning Walk := do
  let (_,closure) ← resolve hologram embedded limits walk.closure entry.1.content (Walk.layerEdge application entry.2)
  return {walk with closure := closure}

def resolveDelegated (kappa : Kappa) (edge : ManifestEdge) :
    Planning (Option DelegatedCapabilities × Option ResolutionSource × Walk) := do
  let (object,closure) ← resolve hologram embedded limits walk.closure kappa edge
  let walk := {walk with closure := closure}
  match object with
  | none => return (none,none,walk)
  | some object => match DelegatedCapabilities.decode hologram object.kappa object.bytes with
    | .ok capabilities => return (some capabilities,some object.source,walk)
    | .error e => return (none,some object.source,walk.block (.invalidCapabilitySet object.kappa e.message))

def queueChild (reference : ChildReference) (childApplicationIndex : Nat)
    (delegated : Option DelegatedCapabilities) (walk : Walk) : Planning Walk := do
  let position := reference.position
  let applicationEdge : ManifestEdge := .childApplication application.applicationKappa position
  let listed (reference : ChildReference) (walk : Walk) : Walk :=
    {walk with children := walk.children ++ [reference]}
  let (object,closure) ← resolve hologram embedded limits walk.closure reference.applicationKappa applicationEdge
  let walk := {walk with closure := closure}
  match object with
  | none => return listed reference walk
  | some childObject =>
    let reference := {reference with applicationResolutionSource := some childObject.source}
    match decodeChildManifest hologram childObject with
    | .error reason =>
      return listed reference (walk.block (.invalidChildManifest reference.applicationKappa applicationEdge reason))
    | .ok childManifest =>
      let reference := {reference with
        requiresKappa := some childManifest.requires
        layerCount := some childManifest.layers.length}
      let walk := listed reference walk
      let pendingChild (admissionIndex : Option Nat) : PendingApplication :=
        ⟨childApplicationIndex,admissionIndex,childObject.kappa,childManifest,application.depth+1,
          application.path ++ [childObject.kappa]⟩
      match delegated with
      | none => return {walk with pending := walk.pending ++ [pendingChild none]}
      | some delegatedCapabilities =>
        return {walk with
          childAdmissions := walk.childAdmissions ++
            [⟨position,application.applicationIndex,application.applicationKappa,childApplicationIndex,
              childObject.kappa,delegatedCapabilities,none,none,[]⟩]
          pending := walk.pending ++ [pendingChild (some walk.childAdmissions.length)]}

def admitChild (reference : ChildReference) (walk : Walk) : Planning Walk := do
  let childApplicationIndex := walk.applicationCount
  let walk := {walk with
    applicationCount := walk.applicationCount+1
    maxDepth := max walk.maxDepth (application.depth+1)}
  let (delegated,capabilitiesSource,walk) ← resolveDelegated hologram embedded limits walk
    reference.capabilitiesKappa (.delegatedCapabilities application.applicationKappa reference.position)
  queueChild hologram embedded limits application
    {reference with capabilitiesResolutionSource := capabilitiesSource} childApplicationIndex delegated walk

def visitChild (entry : (Kappa × Kappa) × Nat) : Planning Walk :=
  let ((childKappa,capabilitiesKappa),index) := entry
  let position := min index u32Max
  let childDepth := application.depth+1
  let applicationEdge : ManifestEdge := .childApplication application.applicationKappa position
  let reference : ChildReference :=
    ⟨position,application.applicationKappa,childKappa,capabilitiesKappa,min childDepth u32Max,none,none,none,none⟩
  let listed : Walk := {walk with children := walk.children ++ [reference]}
  match childCyclePath application.path childKappa with
  | some path => pure (listed.block (.childCycle path))
  | none =>
    if limits.maxDepth < childDepth then
      pure (listed.block (.limitExceeded .applicationDepth limits.maxDepth childDepth (some applicationEdge)))
    else if walk.applicationsLimited then pure listed
    else if limits.maxApplications ≤ walk.applicationCount then
      pure {listed.block (.limitExceeded .applications limits.maxApplications (walk.applicationCount+1)
        (some applicationEdge)) with applicationsLimited := true}
    else admitChild hologram embedded limits application reference walk

def visit : Planning (Walk × Bool) := do
  let manifest := application.manifest
  let walk := walk.enter application
  if limits.maxLayers < walk.totalLayers then
    return (walk.block (.limitExceeded .layers limits.maxLayers walk.totalLayers none),true)
  else
    let walk ← resolveRequires hologram embedded limits application walk
    let walk ← manifest.layers.zipIdx.foldlM (resolveLayer hologram embedded limits application) walk
    if walk.closure.halted then return (walk,true)
    else
      let walk ← manifest.children.zipIdx.foldlM (visitChild hologram embedded limits application) walk
      return (walk,walk.closure.halted)

def run : Nat → Walk → Planning (Option Walk)
  | 0,walk => pure (if walk.pending.isEmpty then some walk else none)
  | turns+1,walk => match walk.pending with
    | [] => pure (some walk)
    | application :: rest => do
      Trying.note (.visiting application)
      let (walk,ended) ← visit hologram embedded limits application {walk with pending := rest}
      if ended then return some walk else run turns walk

def explainOpened (archive : OpenedArchive) (turns : Nat) : Planning (Option ApplicationPlanReport) := do
  let walk ← run hologram archive.embedded limits turns (Walk.start limits archive)
  return walk.map (Walk.report limits archive)

def explainApplication (archiveBytes : Bytes) (turns : Nat) : Planning (Option ApplicationPlanReport) :=
  match openArchive hologram archiveBytes with
  | .error e => throw e
  | .ok archive => explainOpened hologram limits archive turns

end Planning
end HologramLive

namespace HologramLive
open Tables Fallible

namespace Planning
variable {hologram : Hologram} {embedded : Table Kappa Bytes} {limits : PlanLimits}

abbrev Log := List (PlanEvent ⊕ Kappa)

def asked (log : Log) : List Kappa := log.filterMap Sum.getRight?

def visited (log : Log) : List PendingApplication := log.filterMap fun entry => match entry with
  | .inl (.visiting application) => some application
  | _ => none

def heldBytes (log : Log) : Nat := (log.map fun entry => match entry with
  | .inl (.accepting object) => object.bytes.length
  | _ => 0).sum

-- What a planning may have done by some moment of it. Objects and bytes count as
-- the machine counts them: numbers that it cannot hold are its largest.
structure Bounded (limits : PlanLimits) (log : Log) : Prop where
  once : (asked log).Nodup
  objects : saturated (asked log).length ≤ limits.maxObjects
  applications : (visited log).length ≤ limits.maxApplications
  depth : ∀ application ∈ visited log,application.depth ≤ limits.maxDepth
  bytes : saturated (heldBytes log) ≤ limits.maxResolvedBytes

@[simp] theorem asked_note (log : Log) (event : PlanEvent) : asked (log ++ [.inl event]) = asked log := by
  simp [asked]

@[simp] theorem asked_ask (log : Log) (kappa : Kappa) : asked (log ++ [.inr kappa]) = asked log ++ [kappa] := by
  simp [asked]

@[simp] theorem visited_ask (log : Log) (kappa : Kappa) : visited (log ++ [.inr kappa]) = visited log := by
  simp [visited]

@[simp] theorem visited_accept (log : Log) (object : ResolvedObject) :
    visited (log ++ [.inl (.accepting object)]) = visited log := by
  simp [visited]

@[simp] theorem visited_visit (log : Log) (application : PendingApplication) :
    visited (log ++ [.inl (.visiting application)]) = visited log ++ [application] := by
  simp [visited]

@[simp] theorem held_ask (log : Log) (kappa : Kappa) : heldBytes (log ++ [.inr kappa]) = heldBytes log := by
  simp [heldBytes]

@[simp] theorem held_visit (log : Log) (application : PendingApplication) :
    heldBytes (log ++ [.inl (.visiting application)]) = heldBytes log := by
  simp [heldBytes]

@[simp] theorem held_accept (log : Log) (object : ResolvedObject) :
    heldBytes (log ++ [.inl (.accepting object)]) = heldBytes log + object.bytes.length := by
  simp [heldBytes]

-- What the resolver's state knows of the log. Every kappa that was asked for is
-- counted, and all but the one whose answer is awaited are settled, unless the
-- planning is halted.
structure Metered (limits : PlanLimits) (seen : List PendingApplication) (awaited : Option Kappa) (log : Log)
    (closure : ClosureResolver) : Prop where
  once : (asked log).Nodup
  settled : ∀ kappa ∈ asked log,kappa ∈ closure.referenced ∧ (awaited ≠ some kappa →
    closure.objects[kappa]? = none → closure.failures[kappa]? = none → closure.halted = true)
  counted : saturated closure.referenced.size ≤ limits.maxObjects
  visits : visited log = seen
  fewer : seen.length ≤ limits.maxApplications
  shallow : ∀ application ∈ seen,application.depth ≤ limits.maxDepth
  held : closure.resolvedBytes = saturated (heldBytes log)
  within : closure.resolvedBytes ≤ limits.maxResolvedBytes

theorem asked_fewer {asked : List Kappa} {referenced : KeySet Kappa} (once : asked.Nodup)
    (inside : ∀ kappa ∈ asked,kappa ∈ referenced) : asked.length ≤ referenced.size := by
  rw [←Std.ExtTreeSet.length_toList]
  exact (List.subperm_of_subset once fun kappa member => Std.ExtTreeSet.mem_toList.mpr (inside kappa member)).length_le

namespace Metered
variable {seen : List PendingApplication} {awaited : Option Kappa} {log : Log} {closure counted : ClosureResolver}
  {kappa : Kappa}

theorem bounded (metered : Metered limits seen awaited log closure) : Bounded limits log where
  once := metered.once
  objects := Nat.le_trans
    (saturated_mono (asked_fewer metered.once fun kappa member => (metered.settled kappa member).1)) metered.counted
  applications := by rw [metered.visits]; exact metered.fewer
  depth := by rw [metered.visits]; exact metered.shallow
  bytes := by rw [←metered.held]; exact metered.within

theorem block (metered : Metered limits seen awaited log closure) (blocker : PlanBlocker) :
    Metered limits seen awaited log (closure.block blocker) := {metered with}

theorem halt (metered : Metered limits seen awaited log closure) (blocker : PlanBlocker) :
    Metered limits seen none log (closure.halt blocker) := {metered with
  settled := fun kappa member => ⟨(metered.settled kappa member).1,fun _ _ _ => rfl⟩}

theorem refer (metered : Metered limits seen awaited log closure)
    (refer : closure.refer sources limits kappa = .ok counted) : Metered limits seen awaited log counted := by
  obtain ⟨objects,failures,_,bytes,halted,referenced⟩ := refer_cases refer
  refine {metered with settled := ?_, counted := ?_, held := bytes.trans metered.held, within := bytes ▸ metered.within}
  · intro other member
    obtain ⟨inside,settled⟩ := metered.settled other member
    rw [objects,failures,halted]
    exact ⟨(referenced other).mpr (.inr inside),settled⟩
  · unfold ClosureResolver.refer at refer
    split at refer
    · cases refer
      exact metered.counted
    · dsimp only at refer
      split at refer
      · cases refer
      · rename_i room; cases refer
        exact Nat.le_trans (saturated_mono Std.ExtTreeSet.size_insert_le) (Nat.le_of_not_lt room)

theorem unasked (metered : Metered limits seen none log closure) (absent : closure.objects[kappa]? = none)
    (unfailed : closure.failures[kappa]? = none) (going : closure.halted = false) : kappa ∉ asked log := by
  intro member
  have halted := (metered.settled kappa member).2 (Option.some_ne_none kappa).symm absent unfailed
  rw [going] at halted
  cases halted

theorem await (metered : Metered limits seen none log closure) (kappa : Kappa) :
    Metered limits seen (some kappa) log closure := {metered with
  settled := fun other member => ⟨(metered.settled other member).1,fun _ => (metered.settled other member).2
    (Option.some_ne_none other).symm⟩}

theorem ask (metered : Metered limits seen none log closure) (fresh : kappa ∉ asked log)
    (referenced : kappa ∈ closure.referenced) : Metered limits seen (some kappa) (log ++ [.inr kappa]) closure where
  once := by
    rw [asked_ask]
    exact List.nodup_append.mpr ⟨metered.once,List.pairwise_singleton _ _,fun a member b last same => fresh (by
      rw [←List.mem_singleton.mp last,←same]
      exact member)⟩
  settled := by
    rw [asked_ask]
    refine List.forall_mem_append.mpr ⟨(metered.await kappa).settled,fun other last => ?_⟩
    obtain rfl := List.mem_singleton.mp last
    exact ⟨referenced,fun other => absurd rfl other⟩
  counted := metered.counted
  visits := by rw [visited_ask]; exact metered.visits
  fewer := metered.fewer
  shallow := metered.shallow
  held := by rw [held_ask]; exact metered.held
  within := metered.within

theorem fail (metered : Metered limits seen (some kappa) log closure) (edge : ManifestEdge) (failure : ResolutionFailure) :
    Metered limits seen none log (closure.fail kappa edge failure) := {metered with
  settled := by
    intro other member
    obtain ⟨referenced,settled⟩ := metered.settled other member
    refine ⟨referenced,fun _ absent unfailed => ?_⟩
    change (closure.failures.insert kappa failure)[other]? = none at unfailed
    rw [get_insert] at unfailed
    split at unfailed
    · cases unfailed
    · rename_i differs
      exact settled (fun same => differs (Option.some.inj same)) absent unfailed}

theorem accept {object : ResolvedObject} (metered : Metered limits seen (some kappa) log closure)
    (room : ¬limits.maxResolvedBytes < saturatingAdd closure.resolvedBytes (saturated object.bytes.length)) :
    Metered limits seen none (log ++ [.inl (.accepting object)]) {closure with
      resolvedBytes := saturatingAdd closure.resolvedBytes (saturated object.bytes.length)
      objects := closure.objects.insert kappa object} where
  once := by rw [asked_note]; exact metered.once
  settled := by
    rw [asked_note]
    intro other member
    obtain ⟨referenced,settled⟩ := metered.settled other member
    refine ⟨referenced,fun _ absent unfailed => ?_⟩
    rw [get_insert] at absent
    split at absent
    · cases absent
    · rename_i differs
      exact settled (fun same => differs (Option.some.inj same)) absent unfailed
  counted := metered.counted
  visits := by rw [visited_accept]; exact metered.visits
  fewer := metered.fewer
  shallow := metered.shallow
  held := by
    rw [held_accept,metered.held]
    simp only [saturatingAdd,saturated]
    omega
  within := Nat.le_of_not_lt room

end Metered

-- What keeps the bounds, with what it leaves behind.
abbrev Bounds {β : Type} (limits : PlanLimits) (post : Log → β → Prop) (program : Planning β) (log : Log) : Prop :=
  Trying.Keeps (Bounded limits) post program log

variable {seen : List PendingApplication} {log : Log}

theorem resolve_bounds {closure : ClosureResolver} (metered : Metered limits seen none log closure) (kappa : Kappa)
    (edge : ManifestEdge) : Bounds limits (fun log out => Metered limits seen none log out.2)
      (resolve hologram embedded limits closure kappa edge) log := by
  unfold resolve
  cases absent : closure.objects[kappa]? with
  | some object => exact .pure metered
  | none => cases unfailed : closure.failures[kappa]? with
    | some failure => exact .pure (metered.block _)
    | none =>
      dsimp only
      by_cases halted : closure.halted = true
      · rw [if_pos halted]; exact .pure metered
      rw [if_neg halted]
      have going : closure.halted = false := by simpa using halted
      cases refer : closure.refer ⟨embedded,fun _ => .ok none⟩ limits kappa with
      | error actual => exact .pure (metered.halt _)
      | ok counted =>
        have fresh := metered.unasked absent unfailed going
        have counts := metered.refer refer
        have referenced := (refer_cases refer).2.2.2.2.2 kappa
        have looked : Bounds limits (fun log _ => Metered limits seen (some kappa) log counted)
            (lookup embedded kappa) log := by
          unfold lookup
          cases embedded[kappa]? with
          | some bytes => exact .pure (counts.await kappa)
          | none =>
            have after := counts.ask fresh (referenced.mpr (.inl rfl))
            exact Trying.Keeps.bind (.ask after.bounded fun _ => after) fun _ _ after => .pure after
        refine looked.bind fun log found awaiting => ?_
        cases found with
        | none => exact .pure (awaiting.fail _ _)
        | some found =>
          dsimp only
          by_cases other : hologram.addressBytes found.1 ≠ kappa
          · rw [if_pos other]; exact .pure (awaiting.fail _ _)
          rw [if_neg other]
          by_cases beyond : limits.maxResolvedBytes < saturatingAdd counted.resolvedBytes (saturated found.1.length)
          · rw [if_pos beyond]; exact .pure (awaiting.halt _)
          rw [if_neg beyond]
          have after := @Metered.accept _ _ _ _ _ ⟨kappa,found.1,found.2⟩ awaiting beyond
          exact Trying.Keeps.bind (.note after.bounded after) fun _ _ after => .pure after

-- A walk whose log keeps the bounds. Each application in the queue was counted
-- when it joined it.
structure Going (limits : PlanLimits) (seen : List PendingApplication) (log : Log) (walk : Walk) : Prop where
  metered : Metered limits seen none log walk.closure
  queued : seen.length+walk.pending.length ≤ walk.applicationCount
  counted : walk.applicationCount ≤ limits.maxApplications
  shallow : ∀ application ∈ walk.pending,application.depth ≤ limits.maxDepth

variable {walk : Walk} (application : PendingApplication)

theorem resolveRequires_bounds (going : Going limits seen log walk) :
    Bounds limits (Going limits seen) (resolveRequires hologram embedded limits application walk) log := by
  refine (resolve_bounds going.metered _ _).bind fun log (object,closure) metered => ?_
  have after : Going limits seen log {walk with closure := closure} := {going with metered := metered}
  cases object with
  | none => exact .pure after
  | some object =>
    dsimp only
    cases RequestedCapabilities.decode hologram object.kappa object.bytes with
    | error e => exact .pure {after with metered := metered.block _}
    | ok capabilities =>
      dsimp only
      by_cases top : application.depth = 0
      · rw [if_pos top]
        exact .pure {after with}
      · rw [if_neg top]
        unfold Walk.admission
        cases application.admissionIndex with
        | none => exact .pure after
        | some index => exact .pure {after with}

theorem resolveLayer_bounds (going : Going limits seen log walk) (entry : Layer × Nat) :
    Bounds limits (Going limits seen) (resolveLayer hologram embedded limits application walk entry) log :=
  (resolve_bounds going.metered _ _).bind fun _ _ metered => .pure {going with metered := metered}

theorem resolveDelegated_bounds {Waiting : Walk → Prop} (metered : Metered limits seen none log walk.closure)
    (waiting : ∀ closure,Waiting {walk with closure := closure}) (kappa : Kappa) (edge : ManifestEdge) :
    Bounds limits (fun log out => Metered limits seen none log out.2.2.closure ∧ Waiting out.2.2)
      (resolveDelegated hologram embedded limits walk kappa edge) log := by
  refine (resolve_bounds metered _ _).bind fun log (object,closure) after => ?_
  cases object with
  | none => exact .pure ⟨after,waiting closure⟩
  | some object =>
    dsimp only
    cases DelegatedCapabilities.decode hologram object.kappa object.bytes with
    | ok capabilities => exact .pure ⟨after,waiting closure⟩
    | error e => exact .pure ⟨after.block _,waiting _⟩

theorem queueChild_bounds (metered : Metered limits seen none log walk.closure)
    (queued : seen.length+walk.pending.length+1 ≤ walk.applicationCount) (counted : walk.applicationCount ≤ limits.maxApplications)
    (shallow : ∀ application ∈ walk.pending,application.depth ≤ limits.maxDepth) (deep : application.depth+1 ≤ limits.maxDepth)
    (reference : ChildReference) (index : Nat) (delegated : Option DelegatedCapabilities) :
    Bounds limits (Going limits seen)
      (queueChild hologram embedded limits application reference index delegated walk) log := by
  refine (resolve_bounds metered _ _).bind fun log (object,closure) after => ?_
  cases object with
  | none => exact .pure ⟨after,by dsimp only; omega,counted,shallow⟩
  | some object =>
    dsimp only
    cases decodeChildManifest hologram object with
    | error reason => exact .pure ⟨after.block _,by dsimp only [Walk.block]; omega,counted,shallow⟩
    | ok manifest =>
      have joined (admissionIndex : Option Nat) : ∀ other ∈ walk.pending ++ [(⟨index,admissionIndex,object.kappa,manifest,
          application.depth+1,application.path ++ [object.kappa]⟩ : PendingApplication)],other.depth ≤ limits.maxDepth :=
        List.forall_mem_append.mpr ⟨shallow,fun other last => by rw [List.mem_singleton.mp last]; exact deep⟩
      cases delegated with
      | none => exact .pure ⟨after,by dsimp only; rw [List.length_append,List.length_singleton]; omega,counted,joined none⟩
      | some delegated =>
        exact .pure ⟨after,by dsimp only; rw [List.length_append,List.length_singleton]; omega,counted,joined _⟩

theorem visitChild_bounds (going : Going limits seen log walk) (entry : (Kappa × Kappa) × Nat) :
    Bounds limits (Going limits seen) (visitChild hologram embedded limits application walk entry) log := by
  obtain ⟨⟨childKappa,capabilitiesKappa⟩,index⟩ := entry
  unfold visitChild
  dsimp only
  cases childCyclePath application.path childKappa with
  | some path => exact .pure ⟨going.metered.block _,going.queued,going.counted,going.shallow⟩
  | none =>
    dsimp only
    by_cases deep : limits.maxDepth < application.depth+1
    · rw [if_pos deep]
      exact .pure ⟨going.metered.block _,going.queued,going.counted,going.shallow⟩
    rw [if_neg deep]
    by_cases limited : walk.applicationsLimited = true
    · rw [if_pos limited]
      exact .pure {going with}
    rw [if_neg limited]
    by_cases full : limits.maxApplications ≤ walk.applicationCount
    · rw [if_pos full]
      exact .pure ⟨going.metered.block _,going.queued,going.counted,going.shallow⟩
    rw [if_neg full]
    have room := going.queued
    have delegates := @resolveDelegated_bounds hologram embedded limits seen log {walk with
        applicationCount := walk.applicationCount+1
        maxDepth := max walk.maxDepth (application.depth+1)}
      (fun next => next.pending = walk.pending ∧ next.applicationCount = walk.applicationCount+1)
      going.metered (fun _ => ⟨rfl,rfl⟩) capabilitiesKappa
      (.delegatedCapabilities application.applicationKappa (min index u32Max))
    refine delegates.bind fun log (delegated,source,next) ⟨metered,pending,count⟩ => ?_
    dsimp only at metered pending count
    exact queueChild_bounds application metered (by rw [pending,count]; omega) (by rw [count]; omega)
      (by rw [pending]; exact going.shallow) (Nat.le_of_not_lt deep) _ _ _

theorem visit_bounds (going : Going limits seen log walk) :
    Bounds limits (fun log out => Going limits seen log out.1) (visit hologram embedded limits application walk) log := by
  have entered : Going limits seen log (walk.enter application) := by
    unfold Walk.enter Walk.admission
    cases application.admissionIndex with
    | none => exact {going with}
    | some index => exact {going with}
  unfold visit
  dsimp only
  by_cases beyond : limits.maxLayers < (walk.enter application).totalLayers
  · rw [if_pos beyond]
    exact .pure ⟨entered.metered.block _,entered.queued,entered.counted,entered.shallow⟩
  rw [if_neg beyond]
  have required := @resolveRequires_bounds hologram embedded limits seen log _ application entered
  refine required.bind fun log walk going => ?_
  have layered : Bounds limits (Going limits seen)
      (application.manifest.layers.zipIdx.foldlM (resolveLayer hologram embedded limits application) walk) log :=
    Trying.Keeps.foldlM _ (fun entry _ log walk going => resolveLayer_bounds application going entry) going
  refine layered.bind fun log walk going => ?_
  by_cases halted : walk.closure.halted = true
  · rw [if_pos halted]
    exact .pure going
  rw [if_neg halted]
  have followed : Bounds limits (Going limits seen)
      (application.manifest.children.zipIdx.foldlM (visitChild hologram embedded limits application) walk) log :=
    Trying.Keeps.foldlM _ (fun entry _ log walk going => visitChild_bounds application going entry) going
  exact followed.bind fun log walk going => .pure going

-- By induction on the turns: each of them visits an application that was counted,
-- so they last as long as the limit leaves applications to count.
theorem run_bounds (going : Going limits seen log walk) (enough : limits.maxApplications ≤ seen.length+turns) :
    Bounds limits (fun _ out => out ≠ none) (run hologram embedded limits turns walk) log := by
  have queued := going.queued
  have counted := going.counted
  induction turns generalizing seen log walk with
  | zero =>
    have empty : walk.pending.isEmpty = true := by
      rw [List.isEmpty_iff_length_eq_zero]
      omega
    rw [run,if_pos empty]
    exact .pure (Option.some_ne_none walk)
  | succ turns ih =>
    rw [run]
    cases waiting : walk.pending with
    | nil => exact .pure (Option.some_ne_none walk)
    | cons application rest =>
      rw [waiting,List.length_cons] at queued
      have shallow := going.shallow
      rw [waiting] at shallow
      have metered := going.metered
      have visiting : Going limits (seen ++ [application]) (log ++ [.inl (.visiting application)])
          {walk with pending := rest} := {
        metered := {metered with
          once := by rw [asked_note]; exact metered.once
          settled := by rw [asked_note]; exact metered.settled
          visits := by rw [visited_visit,metered.visits]
          fewer := by rw [List.length_append,List.length_singleton]; omega
          shallow := List.forall_mem_append.mpr ⟨metered.shallow,fun other last => by
            rw [List.mem_singleton.mp last]; exact shallow application List.mem_cons_self⟩
          held := by rw [held_visit]; exact metered.held}
        queued := by
          rw [List.length_append,List.length_singleton]
          dsimp only; omega
        counted := counted
        shallow := fun other member => shallow other (List.mem_cons_of_mem _ member)}
      have noted : Bounds limits (fun log _ => Going limits (seen ++ [application]) log {walk with pending := rest})
          (Trying.note (.visiting application)) log := .note visiting.metered.bounded visiting
      refine noted.bind fun log _ visiting => ?_
      have visits := @visit_bounds hologram embedded limits _ log _ application visiting
      refine visits.bind fun log (next,ended) going => ?_
      cases ended with
      | true => exact .pure (Option.some_ne_none next)
      | false =>
        exact ih going (by rw [List.length_append,List.length_singleton]; omega) going.queued going.counted

theorem bounded_nil (limits : PlanLimits) : Bounded limits [] where
  once := List.nodup_nil
  objects := Nat.zero_le _
  applications := Nat.zero_le _
  depth _ member := by cases member
  bytes := Nat.zero_le _

theorem explainOpened_bounds (archive : OpenedArchive) (enough : limits.maxApplications ≤ turns) :
    Bounds limits (fun _ out => out ≠ none) (explainOpened hologram limits archive turns) [] := by
  have ran : Bounds limits (fun _ out => out ≠ none)
      (run hologram archive.embedded limits turns (Walk.start limits archive)) [] := by
    unfold Walk.start
    dsimp only
    split
    · cases turns with
      | zero => exact .pure (Option.some_ne_none _)
      | succ turns => exact .pure (Option.some_ne_none _)
    · rename_i room
      have metered : Metered limits [] none [] .empty :=
        ⟨List.nodup_nil,fun _ member => (by cases member),Nat.zero_le _,rfl,Nat.zero_le _,
          fun _ member => (by cases member),rfl,Nat.zero_le _⟩
      refine run_bounds ⟨metered,Nat.le_refl _,Nat.le_of_not_lt room,?_⟩ (by rw [List.length_nil]; omega)
      intro application member
      rw [List.mem_singleton.mp member]
      exact Nat.zero_le _
  refine ran.bind fun log out finished => .pure ?_
  cases out with
  | none => exact absurd rfl finished
  | some walk => exact Option.some_ne_none _

theorem explainApplication_bounds (archiveBytes : Bytes) {turns : Nat} (enough : limits.maxApplications ≤ turns) :
    Bounds limits (fun _ out => out ≠ none) (explainApplication hologram limits archiveBytes turns) [] := by
  unfold explainApplication
  cases openArchive hologram archiveBytes with
  | error e => exact .throw e
  | ok archive => exact explainOpened_bounds archive enough

-- Against any resolver, the planning of any bytes comes to its end within the
-- turns that the limits allow, and is within the limits at every moment until then.
theorem planning_bounded (hologram : Hologram) (limits : PlanLimits) (archiveBytes : Bytes) {σ : Type}
    (resolveLocal : σ → Kappa → Except LiveError (Option Bytes) × σ) (s : σ) (extra : Nat) :
    let out := Asking.play resolveLocal (explainApplication hologram limits archiveBytes (limits.maxApplications+extra)) s
    out.2 ≠ .ok none ∧ ∀ moment,Bounded limits (out.1.take moment) := by
  have bounds := @explainApplication_bounds hologram limits archiveBytes (limits.maxApplications+extra) (Nat.le_add_right _ _)
  obtain ⟨last,each⟩ := Asking.Along.played bounds (bounded_nil limits) resolveLocal s
  exact ⟨fun cut => last _ cut rfl,each⟩

end Planning
end HologramLive
