import HologramLive.Holo.PlanVisit
namespace HologramLive
open Tables Fallible Forests List
variable {hologram : Hologram} {sources : Sources} {root : Occurrence} {limits : PlanLimits}

namespace Walk

variable {asked : List Kappa}

theorem resolveLayer_settles (walk : Walk)
    (so : Collected hologram sources limits asked walk.closure) (application : PendingApplication) (entry : Layer × Nat) :
    Settles (walk.resolveLayer hologram sources limits application entry) (fun out => Spoiled out.closure)
      (Within hologram sources limits (asked ++ [entry.1.content]))
      (fun out => ∃ closure,Collected hologram sources limits (asked ++ [entry.1.content]) closure ∧
        out = {walk with closure := closure}) := by
  have settles := resolve_settles so entry.1.content (layerEdge application entry.2)
  refine settles.bind id ?_ ?_
  · intro out next spoiled ran
    cases ran
    exact spoiled
  · intro within out holds
    exact .pure within ⟨out.2,holds.2.2,rfl⟩

variable {walk next : Walk}

theorem resolveLayer_spoiled (mine : entry.1 ∈ application.manifest.layers) (spoiled : Spoiled walk.closure)
    (ran : walk.resolveLayer hologram sources limits application entry = .ok next) : Spoiled next.closure :=
  (resolveLayer_keeps spoiled_rule trivial mine ⟨spoiled,fun _ _ => trivial⟩ ran).1

theorem resolveLayers_settles (walk : Walk)
    (so : Collected hologram sources limits asked walk.closure) (application : PendingApplication) :
    Settles (application.manifest.layers.zipIdx.foldlM (resolveLayer hologram sources limits application) walk)
      (fun out => Spoiled out.closure)
      (Within hologram sources limits (asked ++ application.manifest.layers.map (·.content))) (fun out => ∃ closure,
        Collected hologram sources limits (asked ++ application.manifest.layers.map (·.content)) closure ∧
        out = {walk with closure := closure}) := by
  have firsts : application.manifest.layers.zipIdx.map (·.1.content) = application.manifest.layers.map (·.content) := by
    rw [show (fun entry : Layer × Nat => entry.1.content) = Layer.content ∘ Prod.fst by rfl,←map_map,
      zipIdx_map_fst]
  refine (Settles.foldlM
    (fun done => Within hologram sources limits (asked ++ done.map (·.1.content)))
    (fun done out => ∃ closure,Collected hologram sources limits (asked ++ done.map (·.1.content)) closure ∧
      out = {walk with closure := closure})
    ?_ ?_ ?_ ?_ ?_).congr (by rw [firsts]) (by rw [firsts]; exact fun _ _ holds => holds)
  · intro before after whole
    refine whole.of_subset ?_
    rw [map_append,←append_assoc]
    exact subset_append_left _ _
  · intro entry member walk next spoiled ran
    exact resolveLayer_spoiled (fst_mem_of_mem_zipIdx member) spoiled ran
  · intro done entry member out fit holds
    obtain ⟨closure,collected,rfl⟩ := holds
    have asks : asked ++ (done ++ [entry]).map (·.1.content) = asked ++ done.map (·.1.content) ++ [entry.1.content] := by
      simp
    rw [asks]
    refine (resolveLayer_settles {walk with closure := closure} collected application entry).congr Iff.rfl ?_
    intro _ next resolved
    exact resolved
  · simpa using so.within
  · exact ⟨walk.closure,by simpa using so,rfl⟩

theorem resolveRequires_settles (walk : Walk)
    (so : Collected hologram sources limits asked walk.closure) (application : PendingApplication) :
    Settles (walk.resolveRequires hologram sources limits application) (fun out => Spoiled out.closure)
      (Within hologram sources limits (asked ++ [application.manifest.requires]) ∧
        (sources.requested hologram application.manifest.requires).isSome) (fun out => ∃ closure capabilities,
        sources.requested hologram application.manifest.requires = some capabilities ∧
        Collected hologram sources limits (asked ++ [application.manifest.requires]) closure ∧
        out = if application.depth = 0 then {walk with closure := closure,requestedCapabilities := some capabilities}
          else ({walk with closure := closure}).admission application fun admission =>
            {admission with requestedCapabilities := some capabilities}) := by
  have settles := resolve_settles so application.manifest.requires (requiresEdge application)
  constructor
  · intro ⟨within,canonical⟩
    obtain ⟨⟨object,closure⟩,resolved,present,named,collected⟩ := settles.succeeds within
    obtain ⟨object,rfl⟩ := Option.isSome_iff_exists.mp present
    unfold resolveRequires
    rw [ok_bind resolved]
    rw [Sources.requested,←named,Option.bind_some] at canonical ⊢
    dsimp only at canonical ⊢
    cases decoded : RequestedCapabilities.decode hologram object.kappa object.bytes with
    | error e => rw [decoded] at canonical; cases canonical
    | ok capabilities =>
      dsimp only
      split
      · exact ⟨_,rfl,closure,capabilities,rfl,collected,rfl⟩
      · exact ⟨_,rfl,closure,capabilities,rfl,collected,rfl⟩
  · intro bad out ran
    unfold resolveRequires at ran
    obtain ⟨⟨object,closure⟩,resolved,ran⟩ := bind_ok ran
    by_cases within : Within hologram sources limits (asked ++ [application.manifest.requires])
    · obtain ⟨_,resolved',present,named,_⟩ := settles.succeeds within
      cases resolved.symm.trans resolved'
      obtain ⟨object,rfl⟩ := Option.isSome_iff_exists.mp present
      dsimp only at ran named
      split at ran
      · cases ran; exact spoiled_block _ _
      · rename_i capabilities decoded
        refine absurd ⟨within,?_⟩ bad
        rw [Sources.requested,←named,Option.bind_some,decoded]; rfl
    · have spoiled := settles.fails within _ resolved
      cases object with
      | none => cases ran; exact spoiled
      | some object =>
        dsimp only at ran; split at ran
        · cases ran; exact spoiled_block _ _
        · split at ran
          · cases ran; exact spoiled
          · cases ran; rw [admission_closure]
            exact spoiled

def takenWalk (hologram : Hologram) (sources : Sources) (root : Occurrence) (visited : Nat) (edges : List ChildEdge)
    (layers : Nat) (closure : ClosureResolver) : Walk :=
  {cleanWalk hologram sources root visited edges layers closure with
    pending := ((root :: edges.map (ChildEdge.kid hologram sources)).zipIdx.drop (visited+1)).map Occurrence.pending}

variable {application : Occurrence} {edges : List ChildEdge}

-- Listing an application's layers and reading its requested set makes the loop's
-- state one application longer.
theorem cleanWalk_entered {before after : ClosureResolver}
    (mine : (root :: edges.map (ChildEdge.kid hologram sources))[index]? = some application)
    (single : root.path.length = 1) (placed : ∀ edge ∈ edges,edge.parent.path ≠ [])
    (named : sources.requested hologram application.manifest.requires = some capabilities) :
    let pending := Occurrence.pending (application,index)
    let walk := (takenWalk hologram sources root index edges layers before).enter pending
    (if pending.depth = 0 then {walk with closure := after,requestedCapabilities := some capabilities}
      else ({walk with closure := after}).admission pending fun admission =>
        {admission with requestedCapabilities := some capabilities}) =
      cleanWalk hologram sources root (index+1) edges (layers+application.manifest.layers.length) after := by
  dsimp only
  cases index with
  | zero =>
    cases mine
    rw [if_pos (show (Occurrence.pending (root,0)).depth = 0 by simp [Occurrence.pending,single])]
    simp [enter,takenWalk,cleanWalk,admission,Occurrence.pending,saturatingAdd_saturated,named,ChildEdge.admission]
  | succ index =>
    rw [List.getElem?_cons_succ,List.getElem?_map,Option.map_eq_some_iff] at mine
    obtain ⟨edge,at_,rfl⟩ := mine
    have deep := placed edge (mem_of_getElem? at_)
    rw [if_neg (show (Occurrence.pending (edge.kid hologram sources,index+1)).depth ≠ 0 by
      simpa [Occurrence.pending,ChildEdge.kid,Occurrence.kid] using deep)]
    have admissions : (((edges.zipIdx.map (ChildEdge.admission hologram sources (index+1))).modify index
        fun admission => {admission with
          primaryLayer := (edge.kid hologram sources).manifest.primary
          layers := plannedLayers (edge.kid hologram sources).manifest}).modify index
        fun admission => {admission with requestedCapabilities := some capabilities}) =
        edges.zipIdx.map (ChildEdge.admission hologram sources (index+1+1)) := by
      refine ext_getElem? fun i => ?_
      simp only [List.getElem?_modify,List.getElem?_map,List.getElem?_zipIdx]
      by_cases here : index = i
      · subst here; simp [at_,ChildEdge.admission,named]
      · have same : i+1 < index+1+1 ↔ i+1 < index+1 := by omega
        cases edges[i]? <;> simp [here,ChildEdge.admission,same]
    simp only [enter,admission,Occurrence.pending,takenWalk,cleanWalk]
    simp only [Nat.add_one_ne_zero,if_false,Nat.add_sub_cancel,admissions,saturatingAdd_saturated]

theorem enter_closure (application : PendingApplication) (walk : Walk) :
    (walk.enter application).closure = walk.closure := admission_closure _ _ _

theorem enter_totalLayers (application : PendingApplication) (walk : Walk) :
    (walk.enter application).totalLayers = saturatingAdd walk.totalLayers application.manifest.layers.length := by
  unfold enter admission
  cases application.admissionIndex <;> rfl

variable {closure : ClosureResolver}

theorem enterRequires_settles (so : Collected hologram sources limits asked closure)
    (mine : (root :: edges.map (ChildEdge.kid hologram sources))[index]? = some application)
    (single : root.path.length = 1) (placed : ∀ edge ∈ edges,edge.parent.path ≠ []) :
    Settles (((takenWalk hologram sources root index edges layers closure).enter
        (Occurrence.pending (application,index))).resolveRequires hologram sources limits
          (Occurrence.pending (application,index))) (fun out => Spoiled out.closure)
      (Within hologram sources limits (asked ++ [application.manifest.requires]) ∧
        (sources.requested hologram application.manifest.requires).isSome)
      (fun out => ∃ closure,Collected hologram sources limits (asked ++ [application.manifest.requires]) closure ∧
        out = cleanWalk hologram sources root (index+1) edges (layers+application.manifest.layers.length) closure) := by
  have entered : Collected hologram sources limits asked ((takenWalk hologram sources root index edges layers
      closure).enter (Occurrence.pending (application,index))).closure := by
    rw [enter_closure]
    exact so
  refine (resolveRequires_settles _ entered _).congr Iff.rfl ?_
  intro _ out resolved
  obtain ⟨closure',capabilities,named,collected,rfl⟩ := resolved
  exact ⟨closure',collected,cleanWalk_entered mine single placed named⟩

abbrev layerTotal (visited : List Occurrence) : Nat :=
  (visited.map fun application => application.manifest.layers.length).sum

abbrev askedBy (visited : List Occurrence) : List Kappa :=
  visited.flatMap fun application => application.manifest.references

-- The applications visited so far, and what they refer to, are within what can be
-- planned.
structure Fits (hologram : Hologram) (sources : Sources) (limits : PlanLimits) (visited : List Occurrence) : Prop where
  sound : ∀ application ∈ visited,application.Sound hologram sources limits
  applications : (childEdges visited).length+1 ≤ limits.maxApplications
  layers : saturated (layerTotal visited) ≤ limits.maxLayers
  within : Within hologram sources limits (askedBy visited)

theorem childEdges_snoc (visited : List Occurrence) (application : Occurrence) : childEdges (visited ++ [application]) =
      childEdges visited ++ application.manifest.children.zipIdx.map (edgeAt visited.length application) := by
  simp [childEdges,zipIdx_append]

variable {visited : List Occurrence}

theorem fits_snoc (fits : Fits hologram sources limits visited) :
    Fits hologram sources limits (visited ++ [application]) ↔
      saturated (layerTotal visited+application.manifest.layers.length) ≤ limits.maxLayers ∧
      (sources.requested hologram application.manifest.requires).isSome ∧ ChildrenFit hologram sources limits
        (askedBy visited ++ application.manifest.requires :: application.manifest.layers.map (·.content))
        ((childEdges visited).length+1) application application.manifest.children := by
  have asks : askedBy (visited ++ [application]) =
      (askedBy visited ++ application.manifest.requires :: application.manifest.layers.map (·.content)) ++
        application.manifest.children.flatMap fun child => [child.2,child.1] := by
    simp [askedBy,AppManifest.references]
  constructor
  · intro whole
    have last := whole.sound application (mem_append_right _ mem_cons_self)
    refine ⟨?_,last.requested,last.acyclic,last.depth,last.delegated,last.manifested,?_,?_⟩
    · simpa [layerTotal] using whole.layers
    · have room := whole.applications
      rw [childEdges_snoc,length_append,length_map,length_zipIdx] at room
      omega
    · rw [←asks]; exact whole.within
  · intro ⟨layers,requested,children⟩
    refine ⟨?_,?_,?_,?_⟩
    · refine forall_mem_append.mpr ⟨fits.sound,forall_mem_singleton.mpr ?_⟩
      exact ⟨requested,children.delegated,children.manifested,children.fresh,children.depth⟩
    · have room := children.room
      rw [childEdges_snoc,length_append,length_map,length_zipIdx]
      omega
    · simpa [layerTotal] using layers
    · rw [asks]; exact children.within

theorem resolveLayers_spoiled {application : PendingApplication} (spoiled : Spoiled walk.closure)
    (ran : application.manifest.layers.zipIdx.foldlM (resolveLayer hologram sources limits application) walk = .ok next) :
    Spoiled next.closure := by
  have each : ∀ entry ∈ application.manifest.layers.zipIdx,∀ s next : Walk,Spoiled s.closure →
      s.resolveLayer hologram sources limits application entry = .ok next → Spoiled next.closure := by
    intro entry member s next bad step
    exact resolveLayer_spoiled (fst_mem_of_mem_zipIdx member) bad step
  exact foldlM_keeps each spoiled ran

theorem visitChildren_spoiled {application : PendingApplication} (spoiled : Spoiled walk.closure)
    (ran : application.manifest.children.zipIdx.foldlM (visitChild hologram sources limits application) walk =
      .ok next) : Spoiled next.closure := by
  have each : ∀ entry ∈ application.manifest.children.zipIdx,∀ s next : Walk,Spoiled s.closure →
      s.visitChild hologram sources limits application entry = .ok next → Spoiled next.closure := by
    intro entry member s next bad step
    exact visitChild_spoiled (fst_mem_of_mem_zipIdx member) bad step
  exact foldlM_keeps each spoiled ran

theorem visit_settles
    (so : Collected hologram sources limits (askedBy visited) closure) (fits : Fits hologram sources limits visited)
    (mine : (root :: (childEdges visited).map (ChildEdge.kid hologram sources))[visited.length]? = some application)
    (single : root.path.length = 1) (placed : ∀ edge ∈ childEdges visited,edge.parent.path ≠ [])
    (here : application.path ≠ []) :
    Settles ((takenWalk hologram sources root visited.length (childEdges visited) (layerTotal visited) closure).visit
        hologram sources limits (Occurrence.pending (application,visited.length)))
      (fun out => Spoiled out.1.closure) (Fits hologram sources limits (visited ++ [application]))
      (fun out => out.2 = false ∧ ∃ closure,
        Collected hologram sources limits (askedBy (visited ++ [application])) closure ∧
        out.1 = cleanWalk hologram sources root (visited.length+1) (childEdges (visited ++ [application]))
          (layerTotal (visited ++ [application])) closure) := by
  have early : visited.length ≤ (childEdges visited).length := by
    have bound := (List.getElem?_eq_some_iff.mp mine).1
    rw [length_cons,length_map] at bound
    omega
  have total : ((takenWalk hologram sources root visited.length (childEdges visited) (layerTotal visited) closure).enter
      (Occurrence.pending (application,visited.length))).totalLayers =
      saturated (layerTotal visited+application.manifest.layers.length) := by
    rw [enter_totalLayers]
    exact saturatingAdd_saturated _ _
  unfold visit
  dsimp only
  rw [total]
  by_cases beyond : limits.maxLayers < saturated (layerTotal visited+application.manifest.layers.length)
  · rw [if_pos beyond]
    refine .spoil ?_ (spoiled_block _ _)
    intro whole
    exact Nat.not_lt_of_le ((fits_snoc fits).mp whole).1 beyond
  rw [if_neg beyond]
  have childrenStay (walk : Walk) (next : Walk × Bool) (spoiled : Spoiled walk.closure)
      (ran : (if walk.closure.halted then .ok (walk,true) else do
        let walk ← application.manifest.children.zipIdx.foldlM
          (visitChild hologram sources limits (Occurrence.pending (application,visited.length))) walk
        .ok (walk,walk.closure.halted) : Except LiveError (Walk × Bool)) = .ok next) : Spoiled next.1.closure := by
    split at ran
    · cases ran; exact spoiled
    · obtain ⟨last,children,ran⟩ := bind_ok ran
      cases ran
      exact visitChildren_spoiled spoiled children
  have asks : askedBy (visited ++ [application]) = askedBy visited ++ [application.manifest.requires] ++
      application.manifest.layers.map (·.content) ++
        application.manifest.children.flatMap fun child => [child.2,child.1] := by
    simp [askedBy,AppManifest.references]
  have withinOf (whole : Fits hologram sources limits (visited ++ [application])) :
      Within hologram sources limits (askedBy visited ++ [application.manifest.requires] ++
        application.manifest.layers.map (·.content)) := by
    refine whole.within.of_subset ?_
    show _ ⊆ askedBy (visited ++ [application])
    rw [asks]
    exact subset_append_left _ _
  refine (enterRequires_settles so mine single placed).bind ?_ ?_ ?_
  · intro whole
    exact ⟨(withinOf whole).of_subset (subset_append_left _ _),((fits_snoc fits).mp whole).2.1⟩
  · intro out next spoiled ran
    obtain ⟨walk,layers,ran⟩ := bind_ok ran
    exact childrenStay walk next (resolveLayers_spoiled spoiled layers) ran
  · intro good out holds
    obtain ⟨closure₁,collected₁,rfl⟩ := holds
    refine (resolveLayers_settles _ collected₁ _).bind withinOf childrenStay ?_
    intro within out holds
    obtain ⟨closure₂,collected₂,rfl⟩ := holds
    dsimp only
    rw [if_neg (by rw [collected₂.going]; decide)]
    refine (visitChildren_settles collected₂ here early fits.applications).bind ?_ ?_ ?_
    · intro whole
      have fit := ((fits_snoc fits).mp whole).2.2
      rw [append_cons] at fit
      exact fit
    · intro out next spoiled ran
      cases ran
      exact spoiled
    · intro fit out holds
      obtain ⟨closure₃,collected₃,rfl⟩ := holds
      refine .pure ?_ ⟨collected₃.going,closure₃,?_,?_⟩
      · refine (fits_snoc fits).mpr ⟨Nat.le_of_not_lt beyond,good.2,?_⟩
        rw [append_cons]; exact fit
      · rw [asks]; exact collected₃
      · rw [childEdges_snoc]; simp [layerTotal]

end Walk
end HologramLive
