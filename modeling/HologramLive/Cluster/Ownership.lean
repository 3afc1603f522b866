import HologramLive.Cluster.Admission
import HologramLive.Objects.Store
namespace HologramLive.Cluster
open Tables Rpc Objects List

def ranking (blake3 : Blake3) (resource nodeId : Str) : List Nat :=
  (blake3.hash (toUtf8 resource ++ 0 :: toUtf8 nodeId)).map (·.toNat)

variable (requiredOperation : Option Str)

def eligible (admitted : KeySet Str) (node : NodeRecord) : Bool :=
  decide (node.nodeId ≠ []) && decide (node.endpoint ≠ []) && admitted.contains node.nodeId &&
    requiredOperation.all fun operation => node.operations.any fun advertised => advertised = operation

-- `Iterator::min_by_key`: of several least elements the first.
def minByKey {α κ : Type} [LinearOrder κ] (key : α → κ) (items : List α) : Option α := items.argmin key

section Least
variable {α κ : Type} [LinearOrder κ] {key : α → κ} {items : List α} {item : α}

theorem minByKey_mem (least : minByKey key items = some item) : item ∈ items := argmin_mem least

theorem minByKey_le (least : minByKey key items = some item) {other : α} (member : other ∈ items) : key item ≤ key other :=
  le_of_mem_argmin member least

theorem minByKey_none : minByKey key items = none ↔ items = [] := argmin_eq_none

end Least

def ownerForOperation (blake3 : Blake3) (resource : Str) (nodes : List NodeRecord) (requiredOperation : Option Str)
    (admitted : KeySet Str) : Option NodeRecord :=
  minByKey (fun node => ranking blake3 resource node.nodeId) (nodes.filter (eligible requiredOperation admitted))

def owner (blake3 : Blake3) (resource : Str) (nodes : List NodeRecord) (admitted : KeySet Str) : Option NodeRecord :=
  ownerForOperation blake3 resource nodes none admitted

def Candidate (nodes : List NodeRecord) (admitted : KeySet Str) (id : Str) : Prop :=
  ∃ node ∈ nodes,eligible requiredOperation admitted node = true ∧ node.nodeId = id

section Leading
variable {ι κ : Type} [LinearOrder κ] {rank : ι → κ} {among other : ι → Prop} {a b : ι}

structure Leads (rank : ι → κ) (among : ι → Prop) (a : ι) : Prop where
  member : among a
  first : ∀ b,among b → rank a ≤ rank b

theorem Leads.unique (apart : ∀ a b,among a → among b → rank a = rank b → a = b) (one : Leads rank among a)
    (two : Leads rank among b) : a = b :=
  apart a b one.member two.member (le_antisymm (one.first b two.member) (two.first a one.member))

theorem Leads.congr (same : ∀ a,among a ↔ other a) (one : Leads rank among a) : Leads rank other a :=
  ⟨(same a).mp one.member,fun b member => one.first b ((same b).mpr member)⟩

theorem Leads.fewer (fewer : ∀ b,other b → among b) (one : Leads rank among a) (kept : other a) : Leads rank other a :=
  ⟨kept,fun b member => one.first b (fewer b member)⟩

theorem Leads.grown (grown : ∀ b,other b ↔ among b ∨ b = c) (one : Leads rank among a) :
    Leads rank other a ∨ Leads rank other c := by
  rcases le_total (rank a) (rank c) with before | behind
  · refine .inl ⟨(grown a).mpr (.inl one.member),fun b member => ?_⟩
    rcases (grown b).mp member with old | rfl
    · exact one.first b old
    · exact before
  · refine .inr ⟨(grown c).mpr (.inr rfl),fun b member => ?_⟩
    rcases (grown b).mp member with old | rfl
    · exact behind.trans (one.first b old)
    · exact le_refl _

end Leading

section Owner
variable {blake3 : Blake3} {resource : Str} {operation : Option Str} {nodes : List NodeRecord} {admitted : KeySet Str}

theorem owner_leads {node : NodeRecord} (named : ownerForOperation blake3 resource nodes operation admitted = some node) :
    Leads (ranking blake3 resource) (Candidate operation nodes admitted) node.nodeId := by
  unfold ownerForOperation at named
  have among := mem_filter.mp (minByKey_mem named)
  refine ⟨⟨node,among.1,among.2,rfl⟩,fun id candidate => ?_⟩
  obtain ⟨other,member,fits,rfl⟩ := candidate
  exact minByKey_le named (mem_filter.mpr ⟨member,fits⟩)

theorem owner_none : ownerForOperation blake3 resource nodes operation admitted = none ↔
    ∀ id,¬Candidate operation nodes admitted id := by
  unfold ownerForOperation
  rw [minByKey_none,filter_eq_nil_iff]
  constructor
  · intro unfit id candidate
    obtain ⟨node,member,fits,-⟩ := candidate
    exact unfit node member fits
  · intro unfit node member fits
    exact unfit node.nodeId ⟨node,member,fits,rfl⟩

theorem leads_owner (apart : ∀ a b,Candidate operation nodes admitted a → Candidate operation nodes admitted b →
      ranking blake3 resource a = ranking blake3 resource b → a = b) {id : Str}
    (leads : Leads (ranking blake3 resource) (Candidate operation nodes admitted) id) :
    (ownerForOperation blake3 resource nodes operation admitted).map (·.nodeId) = some id := by
  cases named : ownerForOperation blake3 resource nodes operation admitted with
  | none => exact absurd leads.member (owner_none.mp named id)
  | some node => exact congrArg some ((owner_leads named).unique apart leads)

end Owner

-- Ranks that the hash keeps apart for the candidates give one owner: whatever the order
-- of the records, from any records of the same candidates, without the others, and with
-- one more candidate the same one or the new one.
theorem owner_rendezvous (blake3 : Blake3) (resource : Str) (operation : Option Str) (nodes : List NodeRecord)
    (admitted : KeySet Str) (others : List NodeRecord) (admits : KeySet Str)
    (apart : ∀ a b,Candidate operation nodes admitted a ∨ Candidate operation others admits a →
      Candidate operation nodes admitted b ∨ Candidate operation others admits b →
      ranking blake3 resource a = ranking blake3 resource b → a = b) :
    let here := ownerForOperation blake3 resource nodes operation admitted
    let there := ownerForOperation blake3 resource others operation admits
    (((nodes.filter (eligible operation admitted)).map (·.nodeId)).Nodup → admits = admitted → others.Perm nodes → there = here) ∧
    ((∀ id,Candidate operation others admits id ↔ Candidate operation nodes admitted id) →
      there.map (·.nodeId) = here.map (·.nodeId)) ∧
    (∀ id,here.map (·.nodeId) ≠ some id →
      (∀ other,Candidate operation others admits other ↔ Candidate operation nodes admitted other ∧ other ≠ id) →
        there.map (·.nodeId) = here.map (·.nodeId)) ∧
    ∀ id,(∀ other,Candidate operation others admits other ↔ Candidate operation nodes admitted other ∨ other = id) →
      there.map (·.nodeId) = here.map (·.nodeId) ∨ there.map (·.nodeId) = some id := by
  intro here there
  have apartHere : ∀ a b,Candidate operation nodes admitted a → Candidate operation nodes admitted b →
      ranking blake3 resource a = ranking blake3 resource b → a = b := fun a b left right => apart a b (.inl left) (.inl right)
  have apartThere : ∀ a b,Candidate operation others admits a → Candidate operation others admits b →
      ranking blake3 resource a = ranking blake3 resource b → a = b := fun a b left right => apart a b (.inr left) (.inr right)
  have carried : ∀ node,here = some node → Leads (ranking blake3 resource) (Candidate operation others admits) node.nodeId →
      there.map (·.nodeId) = here.map (·.nodeId) := by
    intro node named leads
    rw [named]
    exact leads_owner apartThere leads
  have alike : (∀ id,Candidate operation others admits id ↔ Candidate operation nodes admitted id) →
      there.map (·.nodeId) = here.map (·.nodeId) := by
    intro same
    cases named : here with
    | none =>
      have absent : there = none := owner_none.mpr fun id candidate => owner_none.mp named id ((same id).mp candidate)
      rw [absent]
    | some node =>
      rw [←named]
      exact carried node named ((owner_leads named).congr fun id => (same id).symm)
  refine ⟨?_,alike,?_,?_⟩
  · rintro distinct rfl permuted
    have same := alike fun id => by
      unfold Candidate
      simp only [permuted.mem_iff]
    cases named : here with
    | none => rw [named] at same; exact Option.map_eq_none_iff.mp same
    | some node =>
      rw [named] at same
      obtain ⟨other,also,ids⟩ := Option.map_eq_some_iff.mp same
      have first := minByKey_mem named
      have second := minByKey_mem also
      rw [also,inj_on_of_nodup_map distinct ((permuted.filter _).mem_iff.mp second) first ids]
  · intro id spared fewer
    cases named : here with
    | none =>
      have absent : there = none := owner_none.mpr fun other candidate =>
        owner_none.mp named other ((fewer other).mp candidate).1
      rw [absent]
    | some node =>
      rw [←named]
      refine carried node named ((owner_leads named).fewer (fun other candidate => ((fewer other).mp candidate).1) ?_)
      exact (fewer _).mpr ⟨(owner_leads named).member,fun same => spared (by rw [named,←same]; rfl)⟩
  · intro id grown
    cases named : here with
    | none =>
      have leads : Leads (ranking blake3 resource) (Candidate operation others admits) id := by
        refine ⟨(grown id).mpr (.inr rfl),fun other candidate => ?_⟩
        rcases (grown other).mp candidate with old | rfl
        · exact absurd old (owner_none.mp named other)
        · exact le_refl _
      exact .inr (leads_owner apartThere leads)
    | some node =>
      rw [←named]
      rcases (owner_leads named).grown grown with kept | taken
      · exact .inl (carried node named kept)
      · exact .inr (leads_owner apartThere taken)

namespace Sample

def placement : Blake3 where
  hash bytes :=
    if bytes = toUtf8 "file:report\x00alpha".toList then bytesOf "1a5b318dcd0ace08b9264386aaaafe5015d2db0f5bc157ad7f7f2534655fbdb7"
    else if bytes = toUtf8 "file:report\x00bravo".toList then bytesOf "eedf83436796a1c813eaee0601cb9e0ccf83b80c2bb72a365b3afc66ee1860be"
    else replicate 32 0
  whole bytes := by
    split
    · decide
    · split
      · decide
      · decide

def member (id : String) : NodeRecord := ⟨id.toList,"1".toList,[],("https://" ++ id ++ ".example").toList,0⟩

theorem named (either : Candidate none [member "alpha",member "bravo"] admitted a ∨
    Candidate none [member "bravo",member "alpha"] admitted a) : a = "alpha".toList ∨ a = "bravo".toList := by
  rcases either with ⟨node,among,-,rfl⟩ | ⟨node,among,-,rfl⟩
  · simp only [mem_cons,not_mem_nil,or_false] at among
    exact among.imp (congrArg NodeRecord.nodeId) (congrArg NodeRecord.nodeId)
  · simp only [mem_cons,not_mem_nil,or_false] at among
    exact among.symm.imp (congrArg NodeRecord.nodeId) (congrArg NodeRecord.nodeId)

theorem owner_swapped : ownerForOperation placement "file:report".toList [member "bravo",member "alpha"] none
      (collect ["alpha".toList,"bravo".toList]) =
    ownerForOperation placement "file:report".toList [member "alpha",member "bravo"] none
      (collect ["alpha".toList,"bravo".toList]) := by
  refine (owner_rendezvous placement "file:report".toList none [member "alpha",member "bravo"]
    (collect ["alpha".toList,"bravo".toList]) [member "bravo",member "alpha"] (collect ["alpha".toList,"bravo".toList])
    fun a b left right same => ?_).1 (by decide +kernel) rfl (List.Perm.swap _ _ _)
  rcases named left with rfl | rfl
  · rcases named right with rfl | rfl
    · rfl
    · exact absurd same (by decide)
  · rcases named right with rfl | rfl
    · exact absurd same (by decide)
    · rfl

end Sample

end HologramLive.Cluster
