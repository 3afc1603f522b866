import HologramLive.Holo.PlanClosure
import HologramLive.Lib.Forest
namespace HologramLive
open Tables Fallible Forests
variable (hologram : Hologram) (sources : Sources)

def Sources.requested (kappa : Kappa) : Option RequestedCapabilities :=
  (sources.object hologram kappa).bind fun object =>
    (RequestedCapabilities.decode hologram object.kappa object.bytes).toOption

def Sources.delegated (kappa : Kappa) : Option DelegatedCapabilities :=
  (sources.object hologram kappa).bind fun object =>
    (DelegatedCapabilities.decode hologram object.kappa object.bytes).toOption

def Sources.byteLength (kappa : Kappa) : Nat := ((sources.object hologram kappa).map fun object => object.bytes.length).getD 0

namespace Occurrence

def kappa (application : Occurrence) : Kappa := application.path.getLast?.getD []

variable (parent : Occurrence)

def kid (child : Kappa × Kappa) : Occurrence :=
  ⟨(sources.childManifest hologram child.1).getD ⟨none,[],[],[]⟩,parent.path ++ [child.1]⟩

def kids : List Occurrence := parent.manifest.children.map (parent.kid hologram sources)

def expand : Option (List Occurrence) :=
  if parent.manifest.children.all fun child => (sources.childManifest hologram child.1).isSome then
    some (parent.kids hologram sources)
  else none

end Occurrence

-- What an application needs of its own: its requested set and its children's
-- delegated sets and manifests are canonical, no child is on the path to it, and
-- no child lies below the deepest level.
structure Occurrence.Sound (limits : PlanLimits) (application : Occurrence) : Prop where
  requested : (sources.requested hologram application.manifest.requires).isSome
  delegated : ∀ child ∈ application.manifest.children,(sources.delegated hologram child.2).isSome
  manifested : ∀ child ∈ application.manifest.children,(sources.childManifest hologram child.1).isSome
  acyclic : ∀ child ∈ application.manifest.children,child.1 ∉ application.path
  depth : ∀ child ∈ application.manifest.children,application.path.length ≤ limits.maxDepth

-- An application tree that can be planned: it is finite, everything it refers to
-- can be had and is what it should be, and its totals are within the limits.
structure Plannable (limits : PlanLimits) (root : Occurrence) (tree : Forest Occurrence) (closure : Finset Kappa) : Prop where
  unfolds : Unfolds (Occurrence.expand hologram sources) [root] tree
  exactly : ∀ kappa,kappa ∈ closure ↔ InClosure hologram sources root kappa
  resolvable : ∀ kappa ∈ closure,(sources.object hologram kappa).isSome
  sound : ∀ application,Occurs hologram sources root application → application.Sound hologram sources limits
  applications : tree.values.length ≤ limits.maxApplications
  layers : saturated (tree.values.map fun application => application.manifest.layers.length).sum ≤ limits.maxLayers
  objects : saturated closure.card ≤ limits.maxObjects
  bytes : saturated (∑ kappa ∈ closure,sources.byteLength hologram kappa) ≤ limits.maxResolvedBytes

end HologramLive

namespace HologramLive
open Tables Fallible Forests
variable {hologram : Hologram} {sources : Sources} {limits : PlanLimits} {root : Occurrence}

-- The kappas asked for so far can all be had, within the limits.
structure Within (hologram : Hologram) (sources : Sources) (limits : PlanLimits) (asked : List Kappa) : Prop where
  resolvable : ∀ kappa ∈ asked,(sources.object hologram kappa).isSome
  count : saturated asked.toFinset.card ≤ limits.maxObjects
  bytes : saturated (∑ kappa ∈ asked.toFinset,sources.byteLength hologram kappa) ≤ limits.maxResolvedBytes

-- The closure of a run in which nothing has gone wrong.
structure Collected (hologram : Hologram) (sources : Sources) (limits : PlanLimits) (asked : List Kappa)
    (closure : ClosureResolver) : Prop where
  within : Within hologram sources limits asked
  referenced : ∀ kappa,kappa ∈ closure.referenced ↔ kappa ∈ asked
  size : closure.referenced.size = asked.toFinset.card
  objects : ∀ kappa,closure.objects[kappa]? = if kappa ∈ asked then sources.object hologram kappa else none
  failures : ∀ kappa : Kappa,closure.failures[kappa]? = none
  bytes : closure.resolvedBytes = saturated (∑ kappa ∈ asked.toFinset,sources.byteLength hologram kappa)
  blockers : closure.blockers = []
  going : closure.halted = false

theorem Within.of_subset (within : Within hologram sources limits more) (subset : asked ⊆ more) :
    Within hologram sources limits asked where
  resolvable kappa member := within.resolvable kappa (subset member)
  count := by
    have fewer : asked.toFinset.card ≤ more.toFinset.card := Finset.card_le_card (by
      intro kappa member
      exact List.mem_toFinset.mpr (subset (List.mem_toFinset.mp member)))
    exact (saturated_mono fewer).trans within.count
  bytes := by
    have less : ∑ kappa ∈ asked.toFinset,sources.byteLength hologram kappa ≤
        ∑ kappa ∈ more.toFinset,sources.byteLength hologram kappa := Finset.sum_le_sum_of_subset (by
      intro kappa member
      exact List.mem_toFinset.mpr (subset (List.mem_toFinset.mp member)))
    exact (saturated_mono less).trans within.bytes

theorem collected_empty : Collected hologram sources limits [] .empty where
  within := ⟨by simp,by simp [saturated],by simp [saturated]⟩
  referenced kappa := by simp [ClosureResolver.empty]
  size := rfl
  objects kappa := by simp [ClosureResolver.empty]
  failures kappa := by simp [ClosureResolver.empty]
  bytes := rfl
  blockers := rfl
  going := rfl

variable {kappa : Kappa}

theorem byteLength_of_object (named : sources.object hologram kappa = some object) :
    sources.byteLength hologram kappa = object.bytes.length := by
  simp [Sources.byteLength,named]

def Spoiled (closure : ClosureResolver) : Prop := closure.blockers ≠ []

theorem spoiled_block (closure : ClosureResolver) (blocker : PlanBlocker) : Spoiled (closure.block blocker) := by
  simp [Spoiled,ClosureResolver.block]

theorem resolve_blockers {closure next : ClosureResolver} (ran : closure.resolve hologram sources limits kappa edge = .ok (object,next)) :
    ∃ told,next.blockers = closure.blockers ++ told := by
  cases resolve_cases ran with
  | known object found => exact ⟨[],(List.append_nil _).symm⟩
  | failed failure absent before => exact ⟨_,rfl⟩
  | halted absent unfailed ended => exact ⟨[],(List.append_nil _).symm⟩
  | overCount actual absent unfailed going beyond => exact ⟨_,rfl⟩
  | missing counted absent unfailed going refer nowhere => exact ⟨_,by rw [←(refer_cases refer).2.2.1]; rfl⟩
  | mismatch counted bytes source absent unfailed going refer found other =>
    exact ⟨_,by rw [←(refer_cases refer).2.2.1]; rfl⟩
  | overBytes counted bytes source absent unfailed going refer found same beyond =>
    exact ⟨_,by rw [←(refer_cases refer).2.2.1]; rfl⟩
  | resolved counted bytes source absent unfailed going refer found same within =>
    exact ⟨[],by rw [←(refer_cases refer).2.2.1,List.append_nil]⟩

theorem spoiled_rule : PlanRule hologram sources limits (fun _ => True) Spoiled where
  resolve application closure kappa edge object next _ spoiled _ ran := by
    obtain ⟨told,same⟩ := resolve_blockers ran
    intro clean
    rw [same] at clean
    exact spoiled (List.append_eq_nil_iff.mp clean).1
  block closure blocker _ _ := spoiled_block closure blocker
  child _ _ _ _ _ _ _ _ _ _ _ _ _ _ _ := trivial

variable {closure : ClosureResolver} {asked : List Kappa}

theorem refer_fresh (so : Collected hologram sources limits asked closure) (fresh : kappa ∉ asked)
    (room : saturated (asked ++ [kappa]).toFinset.card ≤ limits.maxObjects) :
    ∃ counted,closure.refer sources limits kappa = .ok counted ∧
      counted.referenced.size = (asked ++ [kappa]).toFinset.card := by
  have unmet : kappa ∉ closure.referenced := fun member => fresh ((so.referenced kappa).mp member)
  have grown : (asked ++ [kappa]).toFinset.card = closure.referenced.size+1 := by
    rw [so.size,List.toFinset_append,show [kappa].toFinset = {kappa} by rfl,Finset.union_singleton,
      Finset.card_insert_of_notMem (by simpa using fresh)]
  unfold ClosureResolver.refer
  rw [if_neg unmet]
  dsimp only
  rw [if_neg (by rw [saturatingAdd,←grown]; omega)]
  refine ⟨_,rfl,?_⟩
  show (closure.referenced.insert kappa).size = _
  rw [Std.ExtTreeSet.size_insert,if_neg (by rwa [Std.ExtTreeSet.contains_iff_mem]),grown]

theorem Collected.again (so : Collected hologram sources limits asked closure) (old : kappa ∈ asked) :
    Collected hologram sources limits (asked ++ [kappa]) closure := by
  have same : ∀ other,other ∈ asked ++ [kappa] ↔ other ∈ asked := by
    intro other
    rw [List.mem_append,List.mem_singleton]
    constructor
    · intro either
      obtain before | rfl := either
      · exact before
      · exact old
    · exact Or.inl
  have set : (asked ++ [kappa]).toFinset = asked.toFinset := by
    ext other
    rw [List.mem_toFinset,List.mem_toFinset,same]
  refine ⟨so.within.of_subset fun other => (same other).mp,?_,?_,?_,so.failures,?_,so.blockers,so.going⟩
  · intro other; rw [so.referenced,same]
  · rw [set]; exact so.size
  · intro other; simp only [so.objects,same]
  · rw [set]; exact so.bytes

variable {source : ResolutionSource}

theorem fresh_total (so : Collected hologram sources limits asked closure) (fresh : kappa ∉ asked)
    (named : sources.object hologram kappa = some ⟨kappa,bytes,source⟩) :
    saturatingAdd closure.resolvedBytes (saturated bytes.length) =
      saturated (∑ other ∈ (asked ++ [kappa]).toFinset,sources.byteLength hologram other) := by
  rw [List.toFinset_append,show [kappa].toFinset = {kappa} by rfl,Finset.union_singleton,
    Finset.sum_insert (by simpa using fresh),byteLength_of_object named,so.bytes]
  simp only [saturatingAdd,saturated]
  omega

theorem Collected.fresh {closure : ClosureResolver}
    (so : Collected hologram sources limits asked closure) (fresh : kappa ∉ asked) {bytes : Bytes}
    (named : sources.object hologram kappa = some ⟨kappa,bytes,source⟩)
    (within : Within hologram sources limits (asked ++ [kappa]))
    (refer : closure.refer sources limits kappa = .ok counted)
    (size : counted.referenced.size = (asked ++ [kappa]).toFinset.card) :
    Collected hologram sources limits (asked ++ [kappa]) {counted with
      resolvedBytes := saturatingAdd counted.resolvedBytes (saturated bytes.length)
      objects := counted.objects.insert kappa ⟨kappa,bytes,source⟩} := by
  obtain ⟨objects,failures,blockers,resolvedBytes,halted,referenced⟩ := refer_cases refer
  refine ⟨within,?_,size,?_,?_,?_,blockers.trans so.blockers,halted.trans so.going⟩
  · intro other
    show other ∈ counted.referenced ↔ _
    rw [referenced,so.referenced,List.mem_append,List.mem_singleton,or_comm]
  · intro other
    show (counted.objects.insert kappa ⟨kappa,bytes,source⟩)[other]? = _
    rw [get_insert,objects,so.objects]
    by_cases equal : kappa = other
    · subst equal; simp [named]
    · simp [equal,Ne.symm equal]
  · intro other
    show counted.failures[other]? = none
    rw [failures,so.failures]
  · show saturatingAdd counted.resolvedBytes (saturated bytes.length) = _
    rw [resolvedBytes]
    exact fresh_total so fresh named

theorem resolve_settles (so : Collected hologram sources limits asked closure) (kappa : Kappa) (edge : ManifestEdge) :
    Settles (closure.resolve hologram sources limits kappa edge) (fun out => Spoiled out.2)
      (Within hologram sources limits (asked ++ [kappa]))
      (fun out => out.1.isSome ∧ out.1 = sources.object hologram kappa ∧
        Collected hologram sources limits (asked ++ [kappa]) out.2) := by
  by_cases old : kappa ∈ asked
  · have again := so.again old
    obtain ⟨object,named⟩ := Option.isSome_iff_exists.mp (so.within.resolvable kappa old)
    have found : closure.objects[kappa]? = some object := by rw [so.objects,if_pos old,named]
    have ran : closure.resolve hologram sources limits kappa edge = .ok (some object,closure) := by
      simp only [ClosureResolver.resolve,found]
    rw [ran]
    exact .pure again.within ⟨rfl,named.symm,again⟩
  · have absent : closure.objects[kappa]? = none := by rw [so.objects,if_neg old]
    constructor
    · intro within
      obtain ⟨object,named⟩ :=
        Option.isSome_iff_exists.mp (within.resolvable kappa (List.mem_append_right _ List.mem_cons_self))
      obtain ⟨kappaEq,found,same⟩ := found_of_object named
      obtain ⟨given,bytes,source⟩ := object
      dsimp only at kappaEq found same
      obtain rfl := kappaEq.symm
      obtain ⟨counted,refer,size⟩ := refer_fresh so old within.count
      have resolvedBytes := (refer_cases refer).2.2.2.1
      have room : ¬limits.maxResolvedBytes < saturatingAdd counted.resolvedBytes (saturated bytes.length) := by
        rw [resolvedBytes,fresh_total so old named]
        exact Nat.not_lt_of_le within.bytes
      refine ⟨(some _,_),?_,rfl,named.symm,so.fresh old named within refer size⟩
      simp only [ClosureResolver.resolve,absent,so.failures,so.going,refer]
      rw [if_neg (by decide),ok_bind found]
      dsimp only
      rw [if_neg (not_not.mpr same),if_neg room]
      rfl
    · intro bad out ran
      obtain ⟨object,next⟩ := out
      cases resolve_cases ran with
      | known object found => rw [absent] at found; cases found
      | failed failure absent before => exact spoiled_block _ _
      | halted absent unfailed ended => rw [so.going] at ended; cases ended
      | overCount actual absent unfailed going beyond => exact spoiled_block _ _
      | missing counted absent unfailed going refer nowhere => exact spoiled_block _ _
      | mismatch counted bytes source absent unfailed going refer found other => exact spoiled_block _ _
      | overBytes counted bytes source absent unfailed going refer found same beyond => exact spoiled_block _ _
      | resolved counted bytes source absent unfailed going refer found same within =>
        refine absurd ?_ bad
        have named := object_of_found found same
        refine ⟨?_,?_,?_⟩
        · intro other member
          obtain before | new := List.mem_append.mp member
          · exact so.within.resolvable other before
          · rw [List.mem_singleton.mp new,named]; rfl
        · have unmet : kappa ∉ closure.referenced := fun member => old ((so.referenced kappa).mp member)
          unfold ClosureResolver.refer at refer; rw [if_neg unmet] at refer
          dsimp only at refer; split at refer
          · cases refer
          · rename_i room; rw [so.size] at room
            rw [List.toFinset_append,show [kappa].toFinset = {kappa} by rfl,Finset.union_singleton,
              Finset.card_insert_of_notMem (by simpa using old)]
            exact Nat.le_of_not_lt room
        · rw [←fresh_total so old named,←(refer_cases refer).2.2.2.1]
          exact within

end HologramLive
