import HologramLive.Holo.PlanClean
namespace HologramLive
open Tables Fallible Forests List Option
variable (hologram : Hologram) (sources : Sources) (root : Occurrence)

structure ChildEdge where
  parentIndex : Nat
  parent : Occurrence
  position : Nat
  child : Kappa × Kappa

def edgeAt (index : Nat) (parent : Occurrence) (entry : (Kappa × Kappa) × Nat) : ChildEdge :=
  ⟨index,parent,entry.2,entry.1⟩

def childEdges (order : List Occurrence) : List ChildEdge :=
  order.zipIdx.flatMap fun entry => entry.1.manifest.children.zipIdx.map (edgeAt entry.2 entry.1)

namespace ChildEdge

def kid (edge : ChildEdge) : Occurrence := edge.parent.kid hologram sources edge.child

def reference (edge : ChildEdge) : ChildReference where
  position := min edge.position u32Max
  parentApplicationKappa := edge.parent.kappa
  applicationKappa := edge.child.1
  capabilitiesKappa := edge.child.2
  depth := min edge.parent.path.length u32Max
  requiresKappa := some (edge.kid hologram sources).manifest.requires
  layerCount := some (edge.kid hologram sources).manifest.layers.length
  applicationResolutionSource := (sources.object hologram edge.child.1).map (·.source)
  capabilitiesResolutionSource := (sources.object hologram edge.child.2).map (·.source)

-- The admission of the child with this index among the edges. Its own manifest is
-- read when its turn comes.
def admission (visited : Nat) (entry : ChildEdge × Nat) : PendingChildAdmission :=
  let kid := entry.1.kid hologram sources
  {position := min entry.1.position u32Max
   parentApplicationIndex := entry.1.parentIndex
   parentApplicationKappa := entry.1.parent.kappa
   applicationIndex := entry.2+1
   applicationKappa := entry.1.child.1
   delegatedCapabilities := (sources.delegated hologram entry.1.child.2).getD ⟨[],[],emptyCapabilities⟩
   requestedCapabilities := if entry.2+1 < visited then sources.requested hologram kid.manifest.requires else none
   primaryLayer := if entry.2+1 < visited then kid.manifest.primary else none
   layers := if entry.2+1 < visited then plannedLayers kid.manifest else []}

end ChildEdge

def Occurrence.pending (entry : Occurrence × Nat) : PendingApplication :=
  ⟨entry.2,if entry.2 = 0 then none else some (entry.2-1),entry.1.kappa,entry.1.manifest,entry.1.path.length-1,
    entry.1.path⟩

def cleanWalk (visited : Nat) (edges : List ChildEdge) (layers : Nat) (closure : ClosureResolver) : Walk where
  closure := closure
  children := edges.map (·.reference hologram sources)
  childAdmissions := edges.zipIdx.map (ChildEdge.admission hologram sources visited)
  requestedCapabilities := if visited = 0 then none else sources.requested hologram root.manifest.requires
  applicationCount := edges.length+1
  maxDepth := (edges.map fun edge => edge.parent.path.length).foldl max 0
  totalLayers := saturated layers
  applicationsLimited := false
  pending := ((root :: edges.map (·.kid hologram sources)).zipIdx.drop visited).map Occurrence.pending

variable {hologram : Hologram} {sources : Sources} {root : Occurrence} {limits : PlanLimits}

theorem childManifest_of_object (named : sources.object hologram kappa = some object) :
    sources.childManifest hologram kappa = (decodeChildManifest hologram object).toOption := by
  rw [Sources.childManifest,named,bind_some]

namespace Walk

variable {asked : List Kappa}

theorem resolveDelegated_settles (walk : Walk)
    (so : Collected hologram sources limits asked walk.closure) (kappa : Kappa) (edge : ManifestEdge) :
    Settles (walk.resolveDelegated hologram sources limits kappa edge) (fun out => Spoiled out.2.2.closure)
      (Within hologram sources limits (asked ++ [kappa]) ∧ (sources.delegated hologram kappa).isSome)
      (fun out => ∃ closure,out = (sources.delegated hologram kappa,(sources.object hologram kappa).map (·.source),
        {walk with closure := closure}) ∧ Collected hologram sources limits (asked ++ [kappa]) closure) := by
  have settles := resolve_settles so kappa edge
  constructor
  · intro ⟨within,canonical⟩
    obtain ⟨⟨object,closure⟩,resolved,present,named,collected⟩ := settles.succeeds within
    obtain ⟨object,rfl⟩ := isSome_iff_exists.mp present
    unfold resolveDelegated
    rw [ok_bind resolved]
    rw [Sources.delegated,←named,bind_some] at canonical ⊢
    dsimp only at canonical ⊢
    cases decoded : DelegatedCapabilities.decode hologram object.kappa object.bytes with
    | error e => rw [decoded] at canonical; cases canonical
    | ok capabilities => exact ⟨_,rfl,closure,rfl,collected⟩
  · intro bad out ran
    unfold resolveDelegated at ran
    obtain ⟨⟨object,closure⟩,resolved,ran⟩ := bind_ok ran
    by_cases within : Within hologram sources limits (asked ++ [kappa])
    · obtain ⟨_,resolved',present,named,_⟩ := settles.succeeds within
      cases resolved.symm.trans resolved'
      obtain ⟨object,rfl⟩ := isSome_iff_exists.mp present
      dsimp only at ran named
      split at ran
      · rename_i capabilities decoded
        refine absurd ⟨within,?_⟩ bad
        rw [Sources.delegated,←named,bind_some,decoded]; rfl
      · cases ran; exact spoiled_block _ _
    · have spoiled := settles.fails within _ resolved
      cases object with
      | none => cases ran; exact spoiled
      | some object =>
        dsimp only at ran; split at ran
        · cases ran; exact spoiled
        · cases ran; exact spoiled_block _ _

theorem queueChild_settles (walk : Walk)
    (so : Collected hologram sources limits asked walk.closure) (application : PendingApplication)
    (reference : ChildReference) (index : Nat) (delegated : DelegatedCapabilities) :
    Settles (walk.queueChild hologram sources limits application reference index (some delegated))
      (fun out => Spoiled out.closure) (Within hologram sources limits (asked ++ [reference.applicationKappa]) ∧
        (sources.childManifest hologram reference.applicationKappa).isSome)
      (fun out => ∃ closure manifest,sources.childManifest hologram reference.applicationKappa = some manifest ∧
        Collected hologram sources limits (asked ++ [reference.applicationKappa]) closure ∧ out = {walk with
          closure := closure
          children := walk.children ++ [{reference with
            requiresKappa := some manifest.requires
            layerCount := some manifest.layers.length
            applicationResolutionSource := (sources.object hologram reference.applicationKappa).map (·.source)}]
          childAdmissions := walk.childAdmissions ++ [⟨reference.position,application.applicationIndex,
            application.applicationKappa,index,reference.applicationKappa,delegated,none,none,[]⟩]
          pending := walk.pending ++ [⟨index,some walk.childAdmissions.length,reference.applicationKappa,manifest,
            application.depth+1,application.path ++ [reference.applicationKappa]⟩]}) := by
  have settles := resolve_settles so reference.applicationKappa
    (.childApplication application.applicationKappa reference.position)
  constructor
  · intro ⟨within,manifested⟩
    obtain ⟨⟨object,closure⟩,resolved,present,named,collected⟩ := settles.succeeds within
    obtain ⟨object,rfl⟩ := isSome_iff_exists.mp present
    have kappa := (found_of_object named.symm).1
    unfold queueChild
    dsimp only
    rw [ok_bind resolved]
    rw [childManifest_of_object named.symm] at manifested ⊢
    dsimp only
    cases decoded : decodeChildManifest hologram object with
    | error e => rw [decoded] at manifested; cases manifested
    | ok manifest =>
      refine ⟨_,rfl,closure,manifest,rfl,collected,?_⟩
      rw [←named,kappa]
      rfl
  · intro bad out ran
    unfold queueChild at ran
    dsimp only at ran
    obtain ⟨⟨object,closure⟩,resolved,ran⟩ := bind_ok ran
    by_cases within : Within hologram sources limits (asked ++ [reference.applicationKappa])
    · obtain ⟨_,resolved',present,named,_⟩ := settles.succeeds within
      cases resolved.symm.trans resolved'
      obtain ⟨object,rfl⟩ := isSome_iff_exists.mp present
      dsimp only at ran named
      split at ran
      · cases ran; exact spoiled_block _ _
      · rename_i manifest decoded
        refine absurd ⟨within,?_⟩ bad
        rw [childManifest_of_object named.symm,decoded]; rfl
    · have spoiled := settles.fails within _ resolved
      cases object with
      | none => cases ran; exact spoiled
      | some object =>
        dsimp only at ran; split at ran
        · cases ran; exact spoiled_block _ _
        · cases ran; exact spoiled

structure Admissible (hologram : Hologram) (sources : Sources) (limits : PlanLimits) (asked : List Kappa)
    (child : Kappa × Kappa) : Prop where
  delegated : (sources.delegated hologram child.2).isSome
  manifested : (sources.childManifest hologram child.1).isSome
  within : Within hologram sources limits (asked ++ [child.2,child.1])

variable {application : PendingApplication}

theorem admitChild_settles {walk : Walk} (so : Collected hologram sources limits asked walk.closure)
    (mine : (reference.applicationKappa,reference.capabilitiesKappa) ∈ application.manifest.children)
    (fresh : reference.applicationKappa ∉ application.path) :
    Settles (walk.admitChild hologram sources limits application reference) (fun out => Spoiled out.closure)
      (Admissible hologram sources limits asked (reference.applicationKappa,reference.capabilitiesKappa))
      (fun out => ∃ closure delegated manifest,sources.delegated hologram reference.capabilitiesKappa = some delegated ∧
        sources.childManifest hologram reference.applicationKappa = some manifest ∧
        Collected hologram sources limits (asked ++ [reference.capabilitiesKappa,reference.applicationKappa]) closure ∧
        out = {walk with
          closure := closure
          children := walk.children ++ [{reference with
            requiresKappa := some manifest.requires
            layerCount := some manifest.layers.length
            applicationResolutionSource := (sources.object hologram reference.applicationKappa).map (·.source)
            capabilitiesResolutionSource := (sources.object hologram reference.capabilitiesKappa).map (·.source)}]
          childAdmissions := walk.childAdmissions ++ [⟨reference.position,application.applicationIndex,
            application.applicationKappa,walk.applicationCount,reference.applicationKappa,delegated,none,none,[]⟩]
          applicationCount := walk.applicationCount+1
          maxDepth := max walk.maxDepth (application.depth+1)
          pending := walk.pending ++ [⟨walk.applicationCount,some walk.childAdmissions.length,
            reference.applicationKappa,manifest,application.depth+1,
            application.path ++ [reference.applicationKappa]⟩]}) := by
  unfold admitChild
  dsimp only
  let counted : Walk := {walk with
    applicationCount := walk.applicationCount+1
    maxDepth := max walk.maxDepth (application.depth+1)}
  have split : asked ++ [reference.capabilitiesKappa,reference.applicationKappa] =
      asked ++ [reference.capabilitiesKappa] ++ [reference.applicationKappa] := by simp
  have first := resolveDelegated_settles counted so reference.capabilitiesKappa
    (.delegatedCapabilities application.applicationKappa reference.position)
  refine first.bind ?_ ?_ ?_
  · intro admissible
    refine ⟨admissible.within.of_subset ?_,admissible.delegated⟩
    rw [split]
    exact subset_append_left _ _
  · intro out next spoiled ran
    have before : out.2.2.Keeps (fun _ => True) Spoiled := ⟨spoiled,fun _ _ => trivial⟩
    refine (queueChild_keeps spoiled_rule trivial ?_ ?_ before ran).1
    · exact mine
    · exact fresh
  · intro canonical out holds
    obtain ⟨closure,rfl,collected⟩ := holds
    obtain ⟨delegated,decoded⟩ := isSome_iff_exists.mp canonical.2
    have second := queueChild_settles {counted with closure := closure} collected application
      {reference with capabilitiesResolutionSource := (sources.object hologram reference.capabilitiesKappa).map (·.source)}
      walk.applicationCount delegated
    rw [←split] at second
    dsimp only
    rw [decoded]
    refine second.congr ?_ ?_
    · constructor
      · intro later; exact ⟨canonical.2,later.2,later.1⟩
      · intro admissible; exact ⟨admissible.within,admissible.manifested⟩
    · intro later next queued
      obtain ⟨closure,manifest,manifested,collected,same⟩ := queued
      exact ⟨closure,delegated,manifest,rfl,manifested,collected,same⟩

variable {edges : List ChildEdge}

-- One more child edge, in the loop's state.
theorem cleanWalk_child (root : Occurrence) (layers : Nat) (closure : ClosureResolver) (edge : ChildEdge) (early : visited ≤ edges.length+1)
    (decoded : sources.delegated hologram edge.child.2 = some delegated)
    (manifested : sources.childManifest hologram edge.child.1 = some manifest) :
    let walk := cleanWalk hologram sources root visited edges layers closure
    cleanWalk hologram sources root visited (edges ++ [edge]) layers closure = {walk with
      children := walk.children ++ [{edge.reference hologram sources with
        requiresKappa := some manifest.requires
        layerCount := some manifest.layers.length}]
      childAdmissions := walk.childAdmissions ++ [⟨min edge.position u32Max,edge.parentIndex,edge.parent.kappa,
        edges.length+1,edge.child.1,delegated,none,none,[]⟩]
      applicationCount := edges.length+2
      maxDepth := max walk.maxDepth edge.parent.path.length
      pending := walk.pending ++ [⟨edges.length+1,some edges.length,edge.child.1,manifest,edge.parent.path.length,
        edge.parent.path ++ [edge.child.1]⟩]} := by
  have kid : edge.kid hologram sources = ⟨manifest,edge.parent.path ++ [edge.child.1]⟩ := by
    simp only [ChildEdge.kid,Occurrence.kid,manifested,getD_some]
  have unvisited : ¬edges.length+1 < visited := by omega
  have drop : ((root :: (edges ++ [edge]).map (·.kid hologram sources)).zipIdx.drop visited) =
      ((root :: edges.map (·.kid hologram sources)).zipIdx.drop visited) ++ [(edge.kid hologram sources,edges.length+1)] := by
    rw [map_append,←cons_append,zipIdx_append,drop_append_of_le_length (by simpa using early)]
    simp
  dsimp only
  unfold cleanWalk
  rw [drop]
  simp only [map_append,zipIdx_append,length_append,foldl_append]
  simp [ChildEdge.admission,ChildEdge.reference,Occurrence.pending,Occurrence.kappa,unvisited,decoded,kid]

structure ChildFits (hologram : Hologram) (sources : Sources) (limits : PlanLimits) (asked : List Kappa) (count : Nat)
    (parent : Occurrence) (child : Kappa × Kappa) : Prop where
  fresh : child.1 ∉ parent.path
  depth : parent.path.length ≤ limits.maxDepth
  room : count < limits.maxApplications
  admissible : Admissible hologram sources limits asked child

variable {parent : Occurrence} {entry : (Kappa × Kappa) × Nat} {closure : ClosureResolver}

theorem visitChild_settles {index layers : Nat}
    (so : Collected hologram sources limits asked closure) (placed : parent.path ≠ []) (early : index ≤ edges.length)
    (mine : entry.1 ∈ parent.manifest.children) :
    Settles ((cleanWalk hologram sources root (index+1) edges layers closure).visitChild hologram sources limits
        (Occurrence.pending (parent,index)) entry) (fun out => Spoiled out.closure)
      (ChildFits hologram sources limits asked (edges.length+1) parent entry.1)
      (fun out => ∃ closure,Collected hologram sources limits (asked ++ [entry.1.2,entry.1.1]) closure ∧
        out = cleanWalk hologram sources root (index+1) (edges ++ [edgeAt index parent entry]) layers closure) := by
  obtain ⟨⟨childKappa,capabilitiesKappa⟩,position⟩ := entry
  have depth : parent.path.length-1+1 = parent.path.length := by
    have := length_pos_iff.mpr placed
    omega
  unfold visitChild
  simp only [Occurrence.pending,depth]
  unfold childCyclePath
  by_cases fresh : childKappa ∈ parent.path
  · rw [if_pos fresh]
    exact .spoil (fun fits => fits.fresh fresh) (spoiled_block _ _)
  rw [if_neg fresh]
  dsimp only
  by_cases shallow : limits.maxDepth < parent.path.length
  · rw [if_pos shallow]
    exact .spoil (fun fits => Nat.not_lt_of_le fits.depth shallow) (spoiled_block _ _)
  rw [if_neg shallow,if_neg (show ¬(cleanWalk hologram sources root (index+1) edges layers closure).applicationsLimited
    from Bool.false_ne_true)]
  by_cases full : limits.maxApplications ≤ edges.length+1
  · rw [if_pos (show limits.maxApplications ≤
      (cleanWalk hologram sources root (index+1) edges layers closure).applicationCount from full)]
    exact .spoil (fun fits => Nat.not_lt_of_le full fits.room) (spoiled_block _ _)
  rw [if_neg (show ¬limits.maxApplications ≤
    (cleanWalk hologram sources root (index+1) edges layers closure).applicationCount from full)]
  refine (admitChild_settles so mine fresh).congr ?_ ?_
  · constructor
    · intro admissible
      exact ⟨fresh,Nat.le_of_not_lt shallow,Nat.lt_of_not_le full,admissible⟩
    · exact ChildFits.admissible
  · intro _ out admitted
    obtain ⟨closure',delegated,manifest,decoded,manifested,collected,rfl⟩ := admitted
    refine ⟨closure',collected,?_⟩
    rw [cleanWalk_child root layers closure' (edgeAt index parent ((childKappa,capabilitiesKappa),position))
      (Nat.succ_le_succ early) decoded manifested]
    simp [cleanWalk,edgeAt,ChildEdge.reference,depth]

theorem visitChild_spoiled {walk next : Walk}
    (mine : entry.1 ∈ application.manifest.children) (spoiled : Spoiled walk.closure)
    (ran : walk.visitChild hologram sources limits application entry = .ok next) : Spoiled next.closure :=
  (visitChild_keeps spoiled_rule trivial mine ⟨spoiled,fun _ _ => trivial⟩ ran).1

structure ChildrenFit (hologram : Hologram) (sources : Sources) (limits : PlanLimits) (asked : List Kappa) (count : Nat)
    (parent : Occurrence) (children : List (Kappa × Kappa)) : Prop where
  fresh : ∀ child ∈ children,child.1 ∉ parent.path
  depth : ∀ child ∈ children,parent.path.length ≤ limits.maxDepth
  delegated : ∀ child ∈ children,(sources.delegated hologram child.2).isSome
  manifested : ∀ child ∈ children,(sources.childManifest hologram child.1).isSome
  room : count+children.length ≤ limits.maxApplications
  within : Within hologram sources limits (asked ++ children.flatMap fun child => [child.2,child.1])

theorem ChildrenFit.earlier {count : Nat} {before after : List (Kappa × Kappa)}
    (fit : ChildrenFit hologram sources limits asked count parent (before ++ after)) :
    ChildrenFit hologram sources limits asked count parent before where
  fresh child mine := fit.fresh child (mem_append_left _ mine)
  depth child mine := fit.depth child (mem_append_left _ mine)
  delegated child mine := fit.delegated child (mem_append_left _ mine)
  manifested child mine := fit.manifested child (mem_append_left _ mine)
  room := by
    have room := fit.room
    rw [length_append] at room
    omega
  within := by
    refine fit.within.of_subset ?_
    rw [flatMap_append,←append_assoc]
    exact subset_append_left _ _

theorem childrenFit_snoc {count : Nat} (fit : ChildrenFit hologram sources limits asked count parent before) :
    ChildFits hologram sources limits (asked ++ before.flatMap fun child => [child.2,child.1]) (count+before.length)
      parent child ↔ ChildrenFit hologram sources limits asked count parent (before ++ [child]) := by
  have asks : asked ++ (before ++ [child]).flatMap (fun child => [child.2,child.1]) =
      asked ++ before.flatMap (fun child => [child.2,child.1]) ++ [child.2,child.1] := by simp
  constructor
  · intro fits
    refine ⟨?_,?_,?_,?_,?_,?_⟩
    · exact forall_mem_append.mpr ⟨fit.fresh,forall_mem_singleton.mpr fits.fresh⟩
    · intro _ _; exact fits.depth
    · exact forall_mem_append.mpr ⟨fit.delegated,forall_mem_singleton.mpr fits.admissible.delegated⟩
    · exact forall_mem_append.mpr ⟨fit.manifested,forall_mem_singleton.mpr fits.admissible.manifested⟩
    · have room := fits.room
      rw [length_append,length_singleton]
      omega
    · rw [asks]; exact fits.admissible.within
  · intro whole
    have last : child ∈ before ++ [child] := mem_append_right _ mem_cons_self
    refine ⟨whole.fresh child last,whole.depth child last,?_,⟨whole.delegated child last,whole.manifested child last,?_⟩⟩
    · have room := whole.room
      rw [length_append,length_singleton] at room
      omega
    · rw [←asks]; exact whole.within

theorem visitChildren_settles {index layers : Nat} (so : Collected hologram sources limits asked closure)
    (placed : parent.path ≠ []) (early : index ≤ edges.length) (room : edges.length+1 ≤ limits.maxApplications) :
    Settles (parent.manifest.children.zipIdx.foldlM
        (visitChild hologram sources limits (Occurrence.pending (parent,index)))
        (cleanWalk hologram sources root (index+1) edges layers closure)) (fun out => Spoiled out.closure)
      (ChildrenFit hologram sources limits asked (edges.length+1) parent parent.manifest.children)
      (fun out => ∃ closure,Collected hologram sources limits
          (asked ++ parent.manifest.children.flatMap fun child => [child.2,child.1]) closure ∧
        out = cleanWalk hologram sources root (index+1)
          (edges ++ parent.manifest.children.zipIdx.map (edgeAt index parent)) layers closure) := by
  have start : ChildrenFit hologram sources limits asked (edges.length+1) parent [] :=
    ⟨by simp,by simp,by simp,by simp,by simpa using room,by simpa using so.within⟩
  have firsts : parent.manifest.children.zipIdx.map (·.1) = parent.manifest.children := zipIdx_map_fst ..
  refine (Settles.foldlM
    (fun done => ChildrenFit hologram sources limits asked (edges.length+1) parent (done.map (·.1)))
    (fun done out => ∃ closure,Collected hologram sources limits
        (asked ++ (done.map (·.1)).flatMap fun child => [child.2,child.1]) closure ∧
      out = cleanWalk hologram sources root (index+1) (edges ++ done.map (edgeAt index parent)) layers closure)
    ?_ ?_ ?_ start ?_).congr (by rw [firsts]) (by rw [firsts]; exact fun _ _ holds => holds)
  · intro before after whole
    rw [map_append] at whole
    exact whole.earlier
  · intro entry member walk next spoiled ran
    exact visitChild_spoiled (fst_mem_of_mem_zipIdx member) spoiled ran
  · intro done entry member out fit holds
    obtain ⟨closure',collected,rfl⟩ := holds
    have later : index ≤ (edges ++ done.map (edgeAt index parent)).length := by
      rw [length_append]
      omega
    refine (visitChild_settles collected placed later (fst_mem_of_mem_zipIdx member)).congr ?_ ?_
    · rw [map_append,map_singleton,←childrenFit_snoc fit]
      simp [Nat.add_right_comm]
    · intro _ next met
      obtain ⟨closure'',collected',rfl⟩ := met
      refine ⟨closure'',?_,?_⟩
      · simpa using collected'
      · simp
  · exact ⟨closure,by simpa using so,by simp⟩

end Walk
end HologramLive
