import HologramLive.Holo.PlanClean
namespace HologramLive
open Tables Fallible PlanBlocker List
variable {hologram : Hologram} {sources : Sources} {limits : PlanLimits} {root : Occurrence}

def Limited (closure : ClosureResolver) : Prop :=
  ∃ limit maximum actual edge,limitExceeded limit maximum actual edge ∈ closure.blockers

theorem Limited.mono {closure next : ClosureResolver}
    (limited : Limited closure) (same : next.blockers = closure.blockers ++ told) : Limited next := by
  obtain ⟨limit,maximum,actual,edge,member⟩ := limited
  exact ⟨limit,maximum,actual,edge,by rw [same]; exact mem_append_left _ member⟩

theorem limited_block (closure : ClosureResolver) (limit : PlanLimit) (maximum actual : Nat) (edge : Option ManifestEdge) :
    Limited (closure.block (.limitExceeded limit maximum actual edge)) :=
  ⟨limit,maximum,actual,edge,mem_append_right _ (mem_singleton.mpr rfl)⟩

-- The closure's tables speak of kappas that were counted, and it is halted only by
-- a limit.
structure Counted (hologram : Hologram) (sources : Sources) (root : Occurrence) (closure : ClosureResolver) : Prop where
  faithful : Faithful hologram sources root closure
  objects : ∀ kappa : Kappa,(closure.objects[kappa]?).isSome → kappa ∈ closure.referenced
  failures : ∀ kappa : Kappa,(closure.failures[kappa]?).isSome → kappa ∈ closure.referenced
  halted : closure.halted = true → Limited closure

variable {blocker : PlanBlocker} {closure : ClosureResolver}

theorem Counted.block (so : Counted hologram sources root closure)
    (plain : blocker.unresolved = false) : Counted hologram sources root (closure.block blocker) where
  faithful := so.faithful.block blocker plain
  objects := so.objects
  failures := so.failures
  halted ended := (so.halted ended).mono rfl

variable {kappa : Kappa} {closure counted : ClosureResolver}

theorem refer_counts (so : Counted hologram sources root closure)
    (refer : closure.refer sources limits kappa = .ok counted) :
    kappa ∈ counted.referenced ∧ (∀ other ∈ closure.referenced,other ∈ counted.referenced) ∧
      (∀ other : Kappa,(counted.objects[other]?).isSome → other ∈ counted.referenced) ∧
      (∀ other : Kappa,(counted.failures[other]?).isSome → other ∈ counted.referenced) ∧
      (counted.halted = true → Limited counted) := by
  obtain ⟨objects,failures,blockers,_,halted,referenced⟩ := refer_cases refer
  refine ⟨(referenced kappa).mpr (.inl rfl),fun other member => (referenced other).mpr (.inr member),?_,?_,?_⟩
  · intro other found
    rw [objects] at found
    exact (referenced other).mpr (.inr (so.objects other found))
  · intro other found
    rw [failures] at found
    exact (referenced other).mpr (.inr (so.failures other found))
  · intro ended
    rw [halted] at ended
    obtain ⟨limit,maximum,actual,edge,member⟩ := so.halted ended
    exact ⟨limit,maximum,actual,edge,by rw [blockers]; exact member⟩

variable {edge : ManifestEdge}

theorem counted_fail {failure : ResolutionFailure} (so : Counted hologram sources root closure)
    (refer : closure.refer sources limits kappa = .ok counted)
    (faithful : Faithful hologram sources root (counted.fail kappa edge failure)) :
    Counted hologram sources root (counted.fail kappa edge failure) ∧ kappa ∈ counted.referenced ∧
      ∀ other ∈ closure.referenced,other ∈ counted.referenced := by
  obtain ⟨here,grows,objects,failures,halted⟩ := refer_counts so refer
  refine ⟨⟨faithful,objects,?_,fun ended => (halted ended).mono rfl⟩,here,grows⟩
  intro other
  show ((counted.failures.insert kappa failure)[other]?).isSome → other ∈ counted.referenced
  rw [get_insert]
  split
  · rename_i same
    intro _
    rw [←same]
    exact here
  · exact failures other

variable {object : Option ResolvedObject}

theorem resolve_counts {closure next : ClosureResolver}
    (so : Counted hologram sources root closure) (inside : Sought hologram sources root kappa)
    (ran : closure.resolve hologram sources limits kappa edge = .ok (object,next)) :
    Counted hologram sources root next ∧ (∀ other ∈ closure.referenced,other ∈ next.referenced) ∧
      (Limited next ∨ kappa ∈ next.referenced ∧ object = sources.object hologram kappa) := by
  have faithful := so.faithful.resolve inside ran
  cases resolve_cases ran with
  | known object found =>
    refine ⟨so,fun _ => id,.inr ⟨so.objects kappa (by rw [found]; rfl),?_⟩⟩
    exact (so.faithful.objects kappa object found).1.symm
  | failed failure absent before =>
    refine ⟨⟨faithful,so.objects,so.failures,fun ended => (so.halted ended).mono rfl⟩,fun _ => id,.inr ⟨?_,?_⟩⟩
    · exact so.failures kappa (by rw [before]; rfl)
    · exact (object_of_failure (so.faithful.failures kappa failure before).1).symm
  | halted absent unfailed ended => exact ⟨so,fun _ => id,.inl (so.halted ended)⟩
  | overCount actual absent unfailed going beyond =>
    have limited := limited_block closure .resolvedObjects limits.maxObjects actual (some edge)
    exact ⟨⟨faithful,so.objects,so.failures,fun _ => limited⟩,fun _ => id,.inl limited⟩
  | missing counted absent unfailed going refer nowhere =>
    obtain ⟨counts,here,grows⟩ := counted_fail so refer faithful
    exact ⟨counts,grows,.inr ⟨here,(@object_of_failure hologram sources kappa .missing nowhere).symm⟩⟩
  | mismatch counted bytes source absent unfailed going refer found other =>
    obtain ⟨counts,here,grows⟩ := counted_fail so refer faithful
    exact ⟨counts,grows,.inr ⟨here,(@object_of_failure hologram sources kappa (.mismatch source) ⟨bytes,found,other⟩).symm⟩⟩
  | overBytes counted bytes source absent unfailed going refer found same beyond =>
    obtain ⟨here,grows,objects,failures,_⟩ := refer_counts so refer
    have limited := limited_block counted .resolvedBytes limits.maxResolvedBytes
      (saturatingAdd counted.resolvedBytes (saturated bytes.length)) (some edge)
    exact ⟨⟨faithful,objects,failures,fun _ => limited⟩,grows,.inl limited⟩
  | resolved counted bytes source absent unfailed going refer found same within =>
    obtain ⟨here,grows,objects,failures,halted⟩ := refer_counts so refer
    refine ⟨⟨faithful,?_,failures,halted⟩,grows,.inr ⟨here,(object_of_found found same).symm⟩⟩
    intro other
    show ((counted.objects.insert kappa ⟨kappa,bytes,source⟩)[other]?).isSome → other ∈ counted.referenced
    rw [get_insert]
    split
    · rename_i equal
      intro _
      rw [←equal]
      exact here
    · exact objects other

def PendingApplication.occurrence (application : PendingApplication) : Occurrence :=
  ⟨application.manifest,application.path⟩

namespace Walk

structure Sane (hologram : Hologram) (sources : Sources) (root : Occurrence) (walk : Walk) : Prop where
  counted : Counted hologram sources root walk.closure
  applications : walk.applicationsLimited = true → Limited walk.closure

-- What a part of a visit does: it asks for these kappas and queues these
-- applications, unless a limit is exceeded, and it queues no more than it counts.
structure Advances (hologram : Hologram) (sources : Sources) (limits : PlanLimits) (root : Occurrence) (walk next : Walk)
    (asked : List Kappa) (kids : List Occurrence) : Prop where
  sane : next.Sane hologram sources root
  limited : Limited walk.closure → Limited next.closure
  grows : ∀ kappa ∈ walk.closure.referenced,kappa ∈ next.closure.referenced
  pending : ∀ application ∈ walk.pending,application ∈ next.pending
  asked : Limited next.closure ∨ ∀ kappa ∈ asked,kappa ∈ next.closure.referenced
  kids : Limited next.closure ∨ ∀ kid ∈ kids,∃ application ∈ next.pending,application.occurrence = kid
  queue : next.pending.length+walk.applicationCount ≤ walk.pending.length+next.applicationCount
  count : walk.applicationCount ≤ limits.maxApplications → next.applicationCount ≤ limits.maxApplications

namespace Advances
variable {walk middle next : Walk} {asked later : List Kappa} {kids others : List Occurrence}

theorem refl (sane : walk.Sane hologram sources root) : Advances hologram sources limits root walk walk [] [] :=
  ⟨sane,id,fun _ => id,fun _ => id,.inr (by simp),.inr (by simp),Nat.le_refl _,id⟩

theorem trans (first : Advances hologram sources limits root walk middle asked kids)
    (second : Advances hologram sources limits root middle next later others) :
    Advances hologram sources limits root walk next (asked ++ later) (kids ++ others) where
  sane := second.sane
  limited := second.limited ∘ first.limited
  grows kappa member := second.grows kappa (first.grows kappa member)
  pending application member := second.pending application (first.pending application member)
  asked := by
    obtain limited | here := first.asked
    · exact .inl (second.limited limited)
    obtain limited | there := second.asked
    · exact .inl limited
    · exact .inr (forall_mem_append.mpr ⟨fun kappa member => second.grows kappa (here kappa member),there⟩)
  kids := by
    obtain limited | here := first.kids
    · exact .inl (second.limited limited)
    obtain limited | there := second.kids
    · exact .inl limited
    · refine .inr (forall_mem_append.mpr ⟨fun kid member => ?_,there⟩)
      obtain ⟨application,waiting,same⟩ := here kid member
      exact ⟨application,second.pending application waiting,same⟩
  queue := by
    have one := first.queue
    have two := second.queue
    omega
  count := second.count ∘ first.count

theorem stopped (sane : next.Sane hologram sources root) (limited : Limited next.closure)
    (grows : ∀ kappa ∈ walk.closure.referenced,kappa ∈ next.closure.referenced) (pending : next.pending = walk.pending)
    (count : next.applicationCount = walk.applicationCount) (asked : List Kappa) (kids : List Occurrence) :
    Advances hologram sources limits root walk next asked kids :=
  ⟨sane,fun _ => limited,grows,fun _ => by rw [pending]; exact id,.inl limited,.inl limited,by rw [pending,count],
    by rw [count]; exact id⟩

theorem foldlM {α : Type} {step : Walk → α → Except LiveError Walk} {asks : α → List Kappa} {heirs : α → List Occurrence}
    {items : List α} (each : ∀ item ∈ items,∀ walk next : Walk,walk.Sane hologram sources root →
      step walk item = .ok next → Advances hologram sources limits root walk next (asks item) (heirs item))
    (sane : walk.Sane hologram sources root) (ran : items.foldlM step walk = .ok next) :
    Advances hologram sources limits root walk next (items.flatMap asks) (items.flatMap heirs) := by
  induction items generalizing walk with
  | nil => cases ran; exact refl sane
  | cons item rest ih =>
    rw [foldlM_cons] at ran
    obtain ⟨middle,first,ran⟩ := bind_ok ran
    have one := each item mem_cons_self walk middle sane first
    have two := ih (fun item member => each item (mem_cons_of_mem _ member)) one.sane ran
    exact one.trans two

theorem resolve (sane : walk.Sane hologram sources root) (inside : Sought hologram sources root kappa)
    (ran : walk.closure.resolve hologram sources limits kappa edge = .ok (object,closure)) :
    Advances hologram sources limits root walk {walk with closure := closure} [kappa] [] ∧
      (Limited closure ∨ object = sources.object hologram kappa) := by
  obtain ⟨counted,grows,outcome⟩ := resolve_counts sane.counted inside ran
  obtain ⟨told,blockers⟩ := resolve_blockers ran
  have kept : Limited walk.closure → Limited closure := fun limited => limited.mono blockers
  refine ⟨⟨⟨counted,kept ∘ sane.applications⟩,kept,grows,fun _ => id,?_,.inr (by simp),Nat.le_refl _,id⟩,?_⟩
  · obtain limited | ⟨here,_⟩ := outcome
    · exact .inl limited
    · exact .inr (forall_mem_singleton.mpr here)
  · obtain limited | ⟨_,same⟩ := outcome
    · exact .inl limited
    · exact .inr same

theorem block (sane : walk.Sane hologram sources root) (plain : blocker.unresolved = false) :
    Advances hologram sources limits root walk (walk.block blocker) [] [] :=
  ⟨⟨sane.counted.block plain,fun limited => (sane.applications limited).mono rfl⟩,fun limited => limited.mono rfl,
    fun _ => id,fun _ => id,.inr (by simp),.inr (by simp),Nat.le_refl _,id⟩

theorem aside (sane : walk.Sane hologram sources root) (closure : next.closure = walk.closure)
    (pending : next.pending = walk.pending) (count : next.applicationCount = walk.applicationCount)
    (applications : next.applicationsLimited = walk.applicationsLimited) :
    Advances hologram sources limits root walk next [] [] := by
  refine ⟨⟨?_,?_⟩,?_,?_,?_,.inr (by simp),.inr (by simp),?_,?_⟩
  · rw [closure]; exact sane.counted
  · rw [closure,applications]; exact sane.applications
  · rw [closure]; exact id
  · rw [closure]; exact fun _ => id
  · rw [pending]; exact fun _ => id
  · rw [pending,count]
  · rw [count]; exact id

theorem quiet (first : Advances hologram sources limits root walk middle asked kids)
    (second : Advances hologram sources limits root middle next [] []) :
    Advances hologram sources limits root walk next asked kids := by
  simpa using first.trans second

theorem quietly (first : Advances hologram sources limits root walk middle [] [])
    (second : Advances hologram sources limits root middle next asked kids) :
    Advances hologram sources limits root walk next asked kids := by
  simpa using first.trans second

theorem queued {count : Nat} (first : Advances hologram sources limits root walk middle asked [])
    (counted : walk.applicationCount = count+1) (room : count < limits.maxApplications)
    (closure : next.closure = middle.closure) (applications : next.applicationsLimited = middle.applicationsLimited)
    (pending : next.pending = middle.pending ++ new) (few : new.length ≤ 1)
    (same : next.applicationCount = walk.applicationCount) (waiting : middle.pending.length = walk.pending.length)
    (held : Limited next.closure ∨ ∀ kid ∈ kids,∃ application ∈ new,application.occurrence = kid) :
    Advances hologram sources limits root {walk with applicationCount := count} next asked kids := by
  refine ⟨⟨?_,?_⟩,?_,?_,?_,?_,?_,?_,?_⟩
  · rw [closure]; exact first.sane.counted
  · rw [closure,applications]; exact first.sane.applications
  · rw [closure]; exact first.limited
  · rw [closure]; exact first.grows
  · intro application member
    rw [pending]
    exact mem_append_left _ (first.pending application member)
  · rw [closure]; exact first.asked
  · refine held.imp_right fun all kid member => ?_
    obtain ⟨application,mine,named⟩ := all kid member
    exact ⟨application,by rw [pending]; exact mem_append_right _ mine,named⟩
  · show next.pending.length+count ≤ walk.pending.length+next.applicationCount
    rw [pending,length_append,same,waiting]
    omega
  · intro _
    rw [same,counted]
    exact room

end Advances

variable {application : PendingApplication}

theorem resolveRequires_advances {next : Walk}
    (sane : walk.Sane hologram sources root) (so : Queued hologram sources root application)
    (ran : walk.resolveRequires hologram sources limits application = .ok next) :
    Advances hologram sources limits root walk next [application.manifest.requires] [] := by
  unfold resolveRequires at ran
  obtain ⟨⟨object,closure⟩,resolved,ran⟩ := bind_ok ran
  obtain ⟨asked,_⟩ := Advances.resolve sane ⟨_,so,mem_cons_self⟩ resolved
  cases object with
  | none => cases ran; exact asked
  | some object =>
    dsimp only at ran
    split at ran
    · cases ran
      exact asked.quiet (.block asked.sane rfl)
    · split at ran
      · cases ran; exact asked.quiet (.aside asked.sane rfl rfl rfl rfl)
      · cases ran
        refine asked.quiet (.aside asked.sane (admission_closure _ _ _) (admission_pending _ _ _) ?_ ?_)
        · unfold admission; split <;> rfl
        · unfold admission; split <;> rfl

theorem resolveLayer_advances {next : Walk}
    (sane : walk.Sane hologram sources root) (so : Queued hologram sources root application)
    (mine : entry.1 ∈ application.manifest.layers)
    (ran : walk.resolveLayer hologram sources limits application entry = .ok next) :
    Advances hologram sources limits root walk next [entry.1.content] [] := by
  unfold resolveLayer at ran
  obtain ⟨⟨object,closure⟩,resolved,ran⟩ := bind_ok ran
  cases ran
  exact (Advances.resolve sane ⟨_,so,asks_layer mine⟩ resolved).1

variable {delegated : Option DelegatedCapabilities}

theorem resolveDelegated_advances {next : Walk}
    (sane : walk.Sane hologram sources root) (inside : Sought hologram sources root kappa)
    (ran : walk.resolveDelegated hologram sources limits kappa edge = .ok (delegated,source,next)) :
    Advances hologram sources limits root walk next [kappa] [] ∧ ∃ closure,next = {walk with closure := closure} := by
  unfold resolveDelegated at ran
  obtain ⟨⟨object,closure⟩,resolved,ran⟩ := bind_ok ran
  obtain ⟨asked,_⟩ := Advances.resolve sane inside resolved
  cases object with
  | none => cases ran; exact ⟨asked,closure,rfl⟩
  | some object =>
    dsimp only at ran
    split at ran
    · cases ran; exact ⟨asked,closure,rfl⟩
    · cases ran
      exact ⟨asked.quiet (.block asked.sane rfl),_,rfl⟩

def heirs (hologram : Hologram) (sources : Sources) (path : List Kappa) (kappa : Kappa) : List Occurrence :=
  (sources.childManifest hologram kappa).toList.map fun manifest => ⟨manifest,path ++ [kappa]⟩

variable {reference : ChildReference}

theorem queueChild_advances {walk next : Walk} {index count : Nat} (sane : walk.Sane hologram sources root)
    (inside : Sought hologram sources root reference.applicationKappa) (counted : walk.applicationCount = count+1)
    (room : count < limits.maxApplications)
    (ran : walk.queueChild hologram sources limits application reference index delegated = .ok next) :
    Advances hologram sources limits root {walk with applicationCount := count} next [reference.applicationKappa]
      (heirs hologram sources application.path reference.applicationKappa) := by
  unfold queueChild at ran
  dsimp only at ran
  obtain ⟨⟨object,closure⟩,resolved,ran⟩ := bind_ok ran
  obtain ⟨asked,found⟩ := Advances.resolve sane inside resolved
  cases object with
  | none =>
    cases ran
    refine asked.queued counted room rfl rfl (append_nil _).symm (Nat.zero_le _) rfl rfl ?_
    refine found.imp_right fun same => ?_
    rw [heirs,Sources.childManifest,←same]
    simp
  | some object =>
    have manifested (same : some object = sources.object hologram reference.applicationKappa) :
        sources.childManifest hologram reference.applicationKappa =
          (decodeChildManifest hologram object).toOption := by
      rw [Sources.childManifest,←same,Option.bind_some]
    dsimp only at ran
    split at ran
    · rename_i reason bad
      cases ran
      have told : (invalidChildManifest reference.applicationKappa
        (.childApplication application.applicationKappa reference.position) reason).unresolved = false := rfl
      refine (asked.quiet (.block asked.sane told)).queued counted room rfl rfl (append_nil _).symm (Nat.zero_le _) rfl rfl ?_
      refine (found.imp (fun limited => limited.mono rfl) fun same => ?_)
      rw [heirs,manifested same,bad]
      simp [Except.toOption]
    · rename_i manifest decoded
      have queues (new : PendingApplication) (named : new.occurrence = ⟨manifest,application.path ++ [object.kappa]⟩) :
          Limited closure ∨ ∀ kid ∈ heirs hologram sources application.path reference.applicationKappa,
            ∃ queued ∈ [new],queued.occurrence = kid := by
        refine found.imp_right fun same => ?_
        rw [heirs,manifested same,decoded,(found_of_object same.symm).1.symm]
        simp [Except.toOption,named]
      split at ran
      · cases ran
        refine asked.queued counted room rfl rfl rfl (Nat.le_refl _) rfl rfl (queues _ ?_)
        rfl
      · cases ran
        refine asked.queued counted room rfl rfl rfl (Nat.le_refl _) rfl rfl (queues _ ?_)
        rfl

theorem admitChild_advances {walk next : Walk}
    (sane : walk.Sane hologram sources root) (so : Queued hologram sources root application)
    (mine : (reference.applicationKappa,reference.capabilitiesKappa) ∈ application.manifest.children)
    (fresh : reference.applicationKappa ∉ application.path) (room : walk.applicationCount < limits.maxApplications)
    (ran : walk.admitChild hologram sources limits application reference = .ok next) :
    Advances hologram sources limits root walk next [reference.capabilitiesKappa,reference.applicationKappa]
      (heirs hologram sources application.path reference.applicationKappa) := by
  unfold admitChild at ran
  obtain ⟨⟨delegated,source,middle⟩,delegating,ran⟩ := bind_ok ran
  obtain ⟨delegatedAsk,childAsk⟩ := asks_child mine fresh
  have sane' : Sane hologram sources root {walk with
      applicationCount := walk.applicationCount+1
      maxDepth := max walk.maxDepth (application.depth+1)} := ⟨sane.counted,sane.applications⟩
  obtain ⟨first,closure,rfl⟩ := resolveDelegated_advances sane' ⟨_,so,delegatedAsk⟩ delegating
  have before : Advances hologram sources limits root walk {walk with
      closure := closure
      maxDepth := max walk.maxDepth (application.depth+1)} [reference.capabilitiesKappa] [] :=
    ⟨⟨first.sane.counted,first.sane.applications⟩,first.limited,first.grows,fun _ => id,first.asked,.inr (by simp),
      Nat.le_refl _,id⟩
  dsimp only at ran
  have last := fun inside => queueChild_advances first.sane inside rfl room ran
  exact before.trans (last ⟨_,so,childAsk⟩)

def childAsks (path : List Kappa) (child : Kappa × Kappa) : List Kappa :=
  if child.1 ∈ path then [] else [child.2,child.1]

def childHeirs (hologram : Hologram) (sources : Sources) (path : List Kappa) (child : Kappa × Kappa) : List Occurrence :=
  if child.1 ∈ path then [] else heirs hologram sources path child.1

theorem visitChild_advances {next : Walk}
    (sane : walk.Sane hologram sources root) (so : Queued hologram sources root application)
    (mine : entry.1 ∈ application.manifest.children)
    (ran : walk.visitChild hologram sources limits application entry = .ok next) :
    Advances hologram sources limits root walk next (childAsks application.path entry.1)
      (childHeirs hologram sources application.path entry.1) := by
  obtain ⟨⟨childKappa,capabilitiesKappa⟩,index⟩ := entry
  unfold childAsks childHeirs
  simp only [visitChild] at ran
  split at ran
  · rename_i path cyclic
    cases ran
    have onPath : childKappa ∈ application.path := by
      by_contra fresh
      simp [childCyclePath,fresh] at cyclic
    rw [if_pos onPath,if_pos onPath]
    have told : (childCycle path).unresolved = false := rfl
    have blocked : Advances hologram sources limits root walk (walk.block (.childCycle path)) [] [] := .block sane told
    exact blocked.quiet (.aside blocked.sane rfl rfl rfl rfl)
  · rename_i acyclic
    have fresh : childKappa ∉ application.path := by
      intro member
      simp [childCyclePath,member] at acyclic
    rw [if_neg fresh,if_neg fresh]
    split at ran
    · cases ran
      have limited := limited_block walk.closure .applicationDepth limits.maxDepth (application.depth+1)
        (some (.childApplication application.applicationKappa (min index u32Max)))
      refine .stopped ⟨?_,?_⟩ ?_ ?_ ?_ ?_ _ _
      · exact sane.counted.block rfl
      · exact fun _ => limited
      · exact limited
      · exact fun _ => id
      · rfl
      · rfl
    · split at ran
      · rename_i ended; cases ran
        refine .stopped ⟨?_,?_⟩ ?_ ?_ ?_ ?_ _ _
        · exact sane.counted
        · exact sane.applications
        · exact sane.applications ended
        · exact fun _ => id
        · rfl
        · rfl
      · split at ran
        · cases ran
          have limited := limited_block walk.closure .applications limits.maxApplications (walk.applicationCount+1)
            (some (.childApplication application.applicationKappa (min index u32Max)))
          refine .stopped ⟨?_,?_⟩ ?_ ?_ ?_ ?_ _ _
          · exact sane.counted.block rfl
          · exact fun _ => limited
          · exact limited
          · exact fun _ => id
          · rfl
          · rfl
        · rename_i room; exact admitChild_advances sane so mine fresh (Nat.lt_of_not_le room) ran

def scions (hologram : Hologram) (sources : Sources) (application : Occurrence) : List Occurrence :=
  application.manifest.children.flatMap (childHeirs hologram sources application.path)

theorem map_zipIdx {α β : Type} (f : α → β) (items : List α) : items.zipIdx.map (fun entry => f entry.1) = items.map f := by
  rw [show (fun entry : α × Nat => f entry.1) = f ∘ Prod.fst from rfl,←map_map,zipIdx_map_fst]

theorem flatMap_zipIdx {α β : Type} (f : α → List β) (items : List α) :
    items.zipIdx.flatMap (fun entry => f entry.1) = items.flatMap f := by
  rw [flatMap_def,map_zipIdx f,flatMap_def]

theorem flatMap_childAsks (path : List Kappa) (children : List (Kappa × Kappa)) : children.flatMap (childAsks path) =
      (children.filter fun child => child.1 ∉ path).flatMap fun child => [child.2,child.1] := by
  induction children with
  | nil => rfl
  | cons child rest ih =>
    rw [flatMap_cons,ih,filter_cons]
    unfold childAsks
    split
    · rename_i onPath
      simp [onPath]
    · rename_i fresh
      simp [fresh]

theorem visit_advances {walk next : Walk} {ended : Bool}
    (sane : walk.Sane hologram sources root) (so : Queued hologram sources root application)
    (ran : walk.visit hologram sources limits application = .ok (next,ended)) :
    Advances hologram sources limits root walk next (application.manifest.asks application.path)
        (scions hologram sources application.occurrence) ∧ (ended = true → Limited next.closure) := by
  unfold visit at ran
  dsimp only at ran
  have entered : Advances hologram sources limits root walk (walk.enter application) [] [] := by
    refine .aside sane ?_ ?_ ?_ ?_
    · simp only [enter,admission_closure]
    · simp only [enter,admission_pending]
    · unfold enter admission; split <;> rfl
    · unfold enter admission; split <;> rfl
  split at ran
  · cases ran
    have limited := limited_block (walk.enter application).closure .layers limits.maxLayers
      (walk.enter application).totalLayers none
    have told : (limitExceeded .layers limits.maxLayers (walk.enter application).totalLayers none).unresolved =
        false := rfl
    have blocked := entered.quiet (.block entered.sane told)
    exact ⟨{blocked with asked := .inl limited, kids := .inl limited},fun _ => limited⟩
  · obtain ⟨walk₁,requires,ran⟩ := bind_ok ran
    have one := entered.trans (resolveRequires_advances entered.sane so requires)
    obtain ⟨walk₂,layers,ran⟩ := bind_ok ran
    have two := one.trans (.foldlM (fun entry member walk next sane step =>
      resolveLayer_advances sane so (fst_mem_of_mem_zipIdx member) step) one.sane layers)
    split at ran
    · rename_i halted
      cases ran
      have limited := two.sane.counted.halted halted
      exact ⟨{two with asked := .inl limited, kids := .inl limited},fun _ => limited⟩
    · obtain ⟨walk₃,children,ran⟩ := bind_ok ran
      cases ran
      have three := two.trans (.foldlM (fun entry member walk next sane step =>
        visitChild_advances sane so (fst_mem_of_mem_zipIdx member) step) two.sane children)
      refine ⟨?_,three.sane.counted.halted⟩
      rw [nil_append,←map_eq_flatMap,map_zipIdx,flatMap_zipIdx,flatMap_zipIdx,flatMap_childAsks] at three
      have none : application.manifest.layers.zipIdx.flatMap (fun _ => ([] : List Occurrence)) = [] :=
        flatMap_eq_nil_iff.mpr fun _ _ => rfl
      rw [none] at three
      exact three

theorem mem_scions {application : Occurrence}
    (mine : child ∈ application.manifest.children) (fresh : child.1 ∉ application.path)
    (resolved : sources.childManifest hologram child.1 = some manifest) :
    ⟨manifest,application.path ++ [child.1]⟩ ∈ scions hologram sources application := by
  refine mem_flatMap.mpr ⟨child,mine,?_⟩
  rw [childHeirs,if_neg fresh,heirs,resolved]
  exact mem_singleton.mpr rfl

-- Every application is waiting or was visited: what it asks for is counted then,
-- and its children are waiting or were visited in their turn.
structure Covers (hologram : Hologram) (sources : Sources) (root : Occurrence) (walk : Walk)
    (visited : Occurrence → Prop) : Prop where
  root : visited root ∨ ∃ application ∈ walk.pending,application.occurrence = root
  asked : ∀ application,visited application →
    ∀ kappa ∈ application.manifest.asks application.path,kappa ∈ walk.closure.referenced
  kids : ∀ application,visited application → ∀ kid ∈ scions hologram sources application,
    visited kid ∨ ∃ waiting ∈ walk.pending,waiting.occurrence = kid

namespace Covers
variable {walk next : Walk} {visited : Occurrence → Prop}

theorem visited_all (so : Covers hologram sources root walk visited) (idle : walk.pending = [])
    {application : Occurrence} (reached : ReachedFrom hologram sources root application) : visited application := by
  have none (other : Occurrence) (waits : visited other ∨ ∃ waiting ∈ walk.pending,waiting.occurrence = other) :
      visited other := by
    obtain seen | ⟨waiting,member,_⟩ := waits
    · exact seen
    · rw [idle] at member
      cases member
  induction reached with
  | root => exact none root so.root
  | child above edge fresh resolved seen => exact none _ (so.kids _ seen _ (mem_scions edge fresh resolved))

theorem finished (so : Covers hologram sources root walk visited) (idle : walk.pending = [])
    (inside : Sought hologram sources root kappa) : kappa ∈ walk.closure.referenced := by
  obtain ⟨application,reached,mine⟩ := inside
  exact so.asked application (so.visited_all idle reached) kappa mine

theorem visit (so : Covers hologram sources root walk visited) (waiting : walk.pending = application :: rest)
    (advances : Advances hologram sources limits root {walk with pending := rest} next
      (application.manifest.asks application.path) (scions hologram sources application.occurrence)) :
    Limited next.closure ∨ Covers hologram sources root next
      (fun other => visited other ∨ other = application.occurrence) := by
  obtain limited | asked := advances.asked
  · exact .inl limited
  obtain limited | kids := advances.kids
  · exact .inl limited
  -- Who waited before waits still, or is the one that was visited.
  have stays (other : Occurrence) (before : visited other ∨ ∃ waiting ∈ walk.pending,waiting.occurrence = other) :
      (visited other ∨ other = application.occurrence) ∨ ∃ waiting ∈ next.pending,waiting.occurrence = other := by
    obtain seen | ⟨pending,member,named⟩ := before
    · exact .inl (.inl seen)
    rw [waiting] at member
    obtain rfl | later := mem_cons.mp member
    · exact .inl (.inr named.symm)
    · exact .inr ⟨pending,advances.pending pending later,named⟩
  refine .inr ⟨stays root so.root,?_,?_⟩
  · intro other seen kappa mine
    obtain before | rfl := seen
    · exact advances.grows kappa (so.asked other before kappa mine)
    · exact asked kappa mine
  · intro other seen kid mine
    obtain before | rfl := seen
    · exact stays kid (so.kids other before kid mine)
    · exact .inr (kids kid mine)

end Covers

-- The loop turns until nothing waits, unless a limit is exceeded.
theorem run_covers (sane : walk.Sane hologram sources root)
    (keeps : walk.Keeps (Queued hologram sources root) (Faithful hologram sources root))
    (so : Limited walk.closure ∨ Covers hologram sources root walk visited)
    (count : walk.applicationCount ≤ limits.maxApplications)
    (enough : walk.pending.length+limits.maxApplications ≤ turns+walk.applicationCount)
    (ran : walk.run hologram sources limits turns = .ok out) :
    Limited out.closure ∨ ∀ kappa,Sought hologram sources root kappa → kappa ∈ out.closure.referenced := by
  induction turns generalizing walk visited with
  | zero =>
    cases ran
    have idle : out.pending = [] := length_eq_zero_iff.mp (by omega)
    exact so.imp_right fun so kappa inside => so.finished idle inside
  | succ turns ih =>
    unfold run at ran
    split at ran
    · rename_i idle
      cases ran
      exact so.imp_right fun so kappa inside => so.finished idle inside
    · rename_i application rest waiting
      obtain ⟨⟨next,ended⟩,visiting,ran⟩ := bind_ok ran
      have queued := keeps.2 application (by rw [waiting]; exact mem_cons_self)
      have others : Keeps (Queued hologram sources root) (Faithful hologram sources root) {walk with pending := rest} :=
        ⟨keeps.1,fun other member => keeps.2 other (by rw [waiting]; exact mem_cons_of_mem _ member)⟩
      have sane' : Sane hologram sources root {walk with pending := rest} := ⟨sane.counted,sane.applications⟩
      obtain ⟨advances,limited⟩ := visit_advances sane' queued visiting
      have kept := visit_keeps faithful_rule queued others visiting
      have covers : Limited next.closure ∨ Covers hologram sources root next
          (fun other => visited other ∨ other = application.occurrence) := by
        obtain limited | so := so
        · exact .inl (advances.limited limited)
        · exact so.visit waiting advances
      cases ended with
      | true => cases ran; exact .inl (limited rfl)
      | false =>
        refine ih advances.sane kept covers (advances.count count) ?_ ran
        have queue := advances.queue
        rw [waiting,length_cons] at enough
        dsimp only at queue; omega

end Walk

theorem Counted.empty : Counted hologram sources root .empty where
  faithful := faithful_empty
  objects kappa found := by simp [ClosureResolver.empty] at found
  failures kappa found := by simp [ClosureResolver.empty] at found
  halted ended := by cases ended

theorem run_start_covers
    (ran : (Walk.start limits archive).run hologram sources limits limits.maxApplications = .ok out) :
    Limited out.closure ∨ ∀ kappa,Sought hologram sources archive.rootOccurrence kappa → kappa ∈ out.closure.referenced := by
  have keeps := @start_keeps hologram sources limits archive
  revert ran keeps
  unfold Walk.start
  dsimp only
  split
  · rename_i none
    intro ran keeps
    have zero : limits.maxApplications = 0 := by omega
    rw [zero] at ran
    cases ran
    exact .inl (limited_block _ _ _ _ _)
  · rename_i room
    intro ran keeps
    have covers : Walk.Covers hologram sources archive.rootOccurrence ⟨.empty,[],[],none,1,0,0,false,
        [⟨0,none,archive.identity.applicationKappa,archive.rootPlanManifest,0,[archive.identity.applicationKappa]⟩]⟩
        (fun _ => False) :=
      ⟨.inr ⟨_,mem_singleton.mpr rfl,rfl⟩,fun _ seen => seen.elim,fun _ seen => seen.elim⟩
    refine Walk.run_covers ⟨.empty,fun limited => by cases limited⟩ keeps (.inr covers) ?_ ?_ ran
    · exact Nat.le_of_not_lt room
    · exact Nat.le_of_eq (Nat.add_comm _ _)

def ApplicationPlanReport.Unlimited (report : ApplicationPlanReport) : Prop :=
  ∀ limit maximum actual edge,limitExceeded limit maximum actual edge ∉ report.blockers

section Explained
variable {archive : OpenedArchive} {resolveLocal : Kappa → Except LiveError (Option Bytes)} {report : ApplicationPlanReport}

theorem explained_run (ran : explainOpened hologram archive limits resolveLocal = .ok report) :
    ∃ out,(Walk.start limits archive).run hologram ⟨archive.embedded,resolveLocal⟩ limits limits.maxApplications = .ok out ∧
      report = out.report limits archive := by
  unfold explainOpened at ran
  cases finished : (Walk.start limits archive).run hologram ⟨archive.embedded,resolveLocal⟩ limits
      limits.maxApplications with
  | error e => rw [finished] at ran; cases ran
  | ok out =>
    rw [finished] at ran
    cases ran
    exact ⟨out,rfl,rfl⟩

theorem report_unresolved {out : Walk} (told : blocker ∈ (out.report limits archive).blockers)
    (unresolved : blocker ≠ .libraryArchive) : blocker ∈ out.closure.blockers := by
  obtain mine | library := mem_append.mp told
  · exact mine
  · split at library
    · exact absurd (mem_singleton.mp library) unresolved
    · cases library

theorem explained_happens (ran : explainOpened hologram archive limits resolveLocal = .ok report)
    {failure : ResolutionFailure} {kappa : Kappa} {edge : ManifestEdge} (told : failure.blocker kappa edge ∈ report.blockers) :
    failure.Happens hologram ⟨archive.embedded,resolveLocal⟩ kappa ∧
      Sought hologram ⟨archive.embedded,resolveLocal⟩ archive.rootOccurrence kappa := by
  obtain ⟨out,finished,rfl⟩ := explained_run ran
  have faithful := run_faithful (start_keeps archive) finished
  refine faithful.blockers failure kappa edge (report_unresolved told ?_)
  cases failure <;> simp [ResolutionFailure.blocker]

-- And one that exceeds no limit names whatever was sought in vain.
theorem explained_missing (ran : explainOpened hologram archive limits resolveLocal = .ok report)
    (unlimited : report.Unlimited)
    (inside : Sought hologram ⟨archive.embedded,resolveLocal⟩ archive.rootOccurrence kappa)
    (nowhere : Sources.lookup ⟨archive.embedded,resolveLocal⟩ kappa = .ok none) :
    ∃ edge,.missingObject kappa edge ∈ report.blockers := by
  obtain ⟨out,finished,rfl⟩ := explained_run ran
  have faithful := run_faithful (start_keeps archive) finished
  obtain ⟨limit,maximum,actual,edge,told⟩ | covered := run_start_covers finished
  · exact absurd (mem_append_left _ told) (unlimited limit maximum actual edge)
  · obtain ⟨edge,told⟩ := (faithful.referenced kappa (covered kappa inside)).2 nowhere
    exact ⟨edge,mem_append_left _ told⟩

end Explained
end HologramLive
