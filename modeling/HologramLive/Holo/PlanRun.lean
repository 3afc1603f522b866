import HologramLive.Holo.PlanWalk
namespace HologramLive
open Tables Fallible Forests Occurrence List
variable {hologram : Hologram} {sources : Sources} {root : Occurrence} {limits : PlanLimits}

def waiting (hologram : Hologram) (sources : Sources) (root : Occurrence) (visited : List Occurrence) : List Occurrence :=
  (root :: (childEdges visited).map (ChildEdge.kid hologram sources)).drop visited.length

variable {parent : Occurrence}

theorem kid_expands (sound : parent.Sound hologram sources limits) :
    parent.expand hologram sources = some (parent.kids hologram sources) := by
  unfold expand
  rw [if_pos]
  exact all_eq_true.mpr sound.manifested

variable {visited : List Occurrence} {application : Occurrence} {rest : List Occurrence}

theorem waiting_snoc (next : waiting hologram sources root visited = application :: rest) :
    waiting hologram sources root (visited ++ [application]) = rest ++ application.kids hologram sources := by
  have short : visited.length < (root :: (childEdges visited).map (ChildEdge.kid hologram sources)).length := by
    by_contra beyond
    unfold waiting at next
    rw [drop_eq_nil_of_le (Nat.le_of_not_lt beyond)] at next
    cases next
  have later : (root :: (childEdges visited).map (ChildEdge.kid hologram sources)).drop (visited.length+1) = rest := by
    rw [←tail_drop]
    exact congrArg tail next
  unfold waiting
  rw [Walk.childEdges_snoc,map_append,←cons_append,length_append,length_singleton,
    drop_append_of_le_length short,later,map_map]
  congr 1
  rw [show ChildEdge.kid hologram sources ∘ edgeAt visited.length application =
    application.kid hologram sources ∘ Prod.fst by rfl,←map_map,zipIdx_map_fst]
  rfl

namespace Walk

theorem run_spoiled {walk out : Walk} (spoiled : Spoiled walk.closure)
    (ran : walk.run hologram sources limits turns = .ok out) : Spoiled out.closure :=
  (run_keeps spoiled_rule ⟨spoiled,fun _ _ => trivial⟩ ran).1

theorem cleanWalk_pending
    (next : waiting hologram sources root visited = application :: rest) (layers : Nat) (closure : ClosureResolver) :
    (root :: (childEdges visited).map (ChildEdge.kid hologram sources))[visited.length]? = some application ∧
    (cleanWalk hologram sources root visited.length (childEdges visited) layers closure).pending =
      Occurrence.pending (application,visited.length) ::
        (takenWalk hologram sources root visited.length (childEdges visited) layers closure).pending := by
  have at_ : (root :: (childEdges visited).map (ChildEdge.kid hologram sources))[visited.length]? = some application := by
    rw [←head?_drop,show (root :: (childEdges visited).map (ChildEdge.kid hologram sources)).drop visited.length =
      application :: rest from next]
    rfl
  refine ⟨at_,?_⟩
  obtain ⟨short,is⟩ := List.getElem?_eq_some_iff.mp at_
  show ((root :: (childEdges visited).map (ChildEdge.kid hologram sources)).zipIdx.drop visited.length).map
    Occurrence.pending = _
  rw [drop_eq_getElem_cons (by rw [length_zipIdx]; exact short),map_cons,getElem_zipIdx,is,
    Nat.zero_add]
  rfl

theorem Fits.earlier {before after : List Occurrence} (fits : Fits hologram sources limits (before ++ after)) :
    Fits hologram sources limits before where
  sound application member := fits.sound application (mem_append_left _ member)
  applications := by
    have room := fits.applications
    simp only [childEdges,zipIdx_append,flatMap_append,length_append] at room ⊢
    omega
  layers := by
    refine (saturated_mono ?_).trans fits.layers
    simp [layerTotal]
  within := by
    refine fits.within.of_subset ?_
    rw [askedBy,askedBy,flatMap_append]
    exact subset_append_left _ _

theorem drain_step : (∃ order,Drains (expand hologram sources) (application :: rest) order ∧
      Fits hologram sources limits (visited ++ order)) ↔
    Fits hologram sources limits (visited ++ [application]) ∧ ∃ order,
      Drains (expand hologram sources) (rest ++ application.kids hologram sources) order ∧
      Fits hologram sources limits (visited ++ [application] ++ order) := by
  constructor
  · intro ⟨order,drains,fits⟩
    cases drains with
    | @pop _ kids _ order expanded later =>
      rw [append_cons] at fits
      have here := fits.earlier
      have sound := here.sound application (mem_append_right _ mem_cons_self)
      cases expanded.symm.trans (kid_expands sound)
      exact ⟨here,order,later,fits⟩
  · intro ⟨here,order,later,fits⟩
    have sound := here.sound application (mem_append_right _ mem_cons_self)
    refine ⟨application :: order,.pop (kid_expands sound) later,?_⟩
    rw [append_cons]
    exact fits

theorem run_settles {closure : ClosureResolver}
    (so : Collected hologram sources limits (askedBy visited) closure) (fits : Fits hologram sources limits visited)
    (single : root.path.length = 1) (placed : ∀ edge ∈ childEdges visited,edge.parent.path ≠ [])
    (enough : limits.maxApplications ≤ turns+visited.length) :
    Settles ((cleanWalk hologram sources root visited.length (childEdges visited) (layerTotal visited) closure).run
        hologram sources limits turns) (fun out => Spoiled out.closure)
      (∃ order,Drains (expand hologram sources) (waiting hologram sources root visited) order ∧
        Fits hologram sources limits (visited ++ order)) (fun out => ∃ order closure,
        Drains (expand hologram sources) (waiting hologram sources root visited) order ∧
        Fits hologram sources limits (visited ++ order) ∧
        Collected hologram sources limits (askedBy (visited ++ order)) closure ∧
        out = cleanWalk hologram sources root (visited ++ order).length (childEdges (visited ++ order))
          (layerTotal (visited ++ order)) closure) := by
  induction turns generalizing visited closure with
  | zero =>
    have ended : waiting hologram sources root visited = [] := by
      refine drop_eq_nil_of_le ?_
      have room := fits.applications
      rw [length_cons,length_map]
      omega
    have whole : Fits hologram sources limits (visited ++ []) := by rwa [append_nil]
    rw [ended]
    refine .pure ⟨[],.done,whole⟩ ⟨[],closure,.done,whole,?_,?_⟩
    · rw [append_nil]; exact so
    · rw [append_nil]
  | succ turns ih =>
    cases next : waiting hologram sources root visited with
    | nil =>
      have none : (cleanWalk hologram sources root visited.length (childEdges visited) (layerTotal visited)
          closure).pending = [] := by
        have ended := length_drop.symm.trans (congrArg length next)
        refine map_eq_nil_iff.mpr (length_eq_zero_iff.mp ?_)
        rw [length_drop,length_zipIdx]; exact ended
      have whole : Fits hologram sources limits (visited ++ []) := by rwa [append_nil]
      unfold run
      rw [none]
      refine .pure ⟨[],.done,whole⟩ ⟨[],closure,.done,whole,?_,?_⟩
      · rw [append_nil]; exact so
      · rw [append_nil]
    | cons application rest =>
      obtain ⟨mine,pending⟩ := cleanWalk_pending next (layerTotal visited) closure
      have here : application.path ≠ [] := by
        obtain rfl | kid := mem_cons.mp (mem_of_getElem? mine)
        · intro empty; rw [empty] at single
          cases single
        · obtain ⟨edge,_,rfl⟩ := mem_map.mp kid
          exact append_ne_nil_of_right_ne_nil _ (cons_ne_nil _ _)
      have placed' : ∀ edge ∈ childEdges (visited ++ [application]),edge.parent.path ≠ [] := by
        rw [childEdges_snoc]
        refine forall_mem_append.mpr ⟨placed,fun edge member => ?_⟩
        obtain ⟨entry,_,rfl⟩ := mem_map.mp member
        exact here
      unfold run
      rw [pending]
      dsimp only
      refine (visit_settles so fits mine single placed here).bind (fun whole => (drain_step.mp whole).1) ?_ ?_
      · rintro ⟨walk,ended⟩ out spoiled ran
        cases ended with
        | true => cases ran; exact spoiled
        | false => exact run_spoiled spoiled ran
      · intro fits' out holds
        obtain ⟨walk,ended⟩ := out
        obtain ⟨rfl,closure',collected,rfl⟩ := holds
        have later := ih collected fits' placed' (by rw [length_append,length_singleton]; omega)
        rw [waiting_snoc next,length_append,length_singleton] at later
        refine later.congr ?_ ?_
        · rw [drain_step]; exact ⟨fun later => ⟨fits',later⟩,And.right⟩
        · intro _ out drained
          obtain ⟨order,closure'',drains,fits'',collected',rfl⟩ := drained
          have sound := fits'.sound application (mem_append_right _ mem_cons_self)
          rw [←append_cons] at fits'' collected' ⊢
          exact ⟨application :: order,closure'',.pop (kid_expands sound) drains,fits'',collected',rfl⟩

end Walk

theorem expand_kids {kids : List Occurrence} (expanded : parent.expand hologram sources = some kids) :
    kids = parent.kids hologram sources ∧
      ∀ child ∈ parent.manifest.children,(sources.childManifest hologram child.1).isSome := by
  unfold expand at expanded
  split at expanded
  · rename_i all
    cases expanded
    exact ⟨rfl,all_eq_true.mp all⟩
  · cases expanded

theorem kid_manifested {manifest : AppManifest} (resolved : sources.childManifest hologram child.1 = some manifest) :
    parent.kid hologram sources child = ⟨manifest,parent.path ++ [child.1]⟩ := by
  rw [Occurrence.kid,resolved]
  rfl

theorem occurs_iff (unfolds : Unfolds (expand hologram sources) [root] tree)
    (application : Occurrence) : Occurs hologram sources root application ↔ application ∈ tree.values := by
  constructor
  · intro occurs
    induction occurs with
    | root => exact unfolds.roots_subperm.subset mem_cons_self
    | @child parent child manifest above edge resolved ih =>
      obtain ⟨kids,expanded,inside⟩ := unfolds.closed ih
      obtain ⟨rfl,_⟩ := expand_kids expanded
      refine inside _ (mem_map.mpr ⟨child,edge,?_⟩)
      exact kid_manifested resolved
  · refine unfolds.forall_values ?_ ?_ application
    · intro only member
      rw [mem_singleton.mp member]
      exact .root
    · intro value kids above expanded kid mine
      obtain ⟨rfl,manifested⟩ := expand_kids expanded
      obtain ⟨child,edge,rfl⟩ := mem_map.mp mine
      obtain ⟨manifest,resolved⟩ := Option.isSome_iff_exists.mp (manifested child edge)
      rw [kid_manifested resolved]
      exact .child above edge resolved

-- The order of the visits: the root, then every child in the order of the edges,
-- each after its parent.
structure Ordered (hologram : Hologram) (sources : Sources) (root : Occurrence) (order : List Occurrence) : Prop where
  listed : order = root :: (childEdges order).map (ChildEdge.kid hologram sources)
  parents : ∀ (i : Nat) edge,(childEdges order)[i]? = some edge → edge.parentIndex ≤ i

theorem drain_ordered (visited : List Occurrence) (drains : Drains (expand hologram sources) queue order)
    (same : queue = waiting hologram sources root visited)
    (met : visited <+: root :: (childEdges visited).map (ChildEdge.kid hologram sources))
    (parents : ∀ (i : Nat) edge,(childEdges visited)[i]? = some edge → edge.parentIndex ≤ i) :
    Ordered hologram sources root (visited ++ order) := by
  induction drains generalizing visited with
  | done =>
    rw [append_nil]
    refine ⟨?_,parents⟩
    obtain ⟨more,whole⟩ := met
    have none : more = [] := by
      unfold waiting at same
      rw [←whole,drop_left] at same
      exact same.symm
    rw [none,append_nil] at whole
    exact whole
  | @pop application kids rest order expanded later ih =>
    obtain ⟨rfl,_⟩ := expand_kids expanded
    rw [append_cons]
    have taken : visited ++ application :: rest = root :: (childEdges visited).map (ChildEdge.kid hologram sources) := by
      obtain ⟨more,whole⟩ := met
      unfold waiting at same
      rw [←whole,drop_left] at same
      rw [same,whole]
    have early : visited.length ≤ (childEdges visited).length := by
      have lengths := congrArg length taken
      simp only [length_append,length_cons,length_map] at lengths
      omega
    refine ih _ ?_ ?_ ?_
    · exact (waiting_snoc same.symm).symm
    · rw [Walk.childEdges_snoc,map_append,←cons_append,←taken,append_cons visited application rest]
      exact ((prefix_append _ _).trans (prefix_append _ _))
    · intro i edge at_
      rw [Walk.childEdges_snoc] at at_
      by_cases old : i < (childEdges visited).length
      · rw [List.getElem?_append_left old] at at_
        exact parents i edge at_
      · rw [List.getElem?_append_right (Nat.le_of_not_lt old)] at at_
        obtain ⟨entry,_,rfl⟩ := mem_map.mp (mem_of_getElem? at_)
        exact early.trans (Nat.le_of_not_lt old)

end HologramLive
