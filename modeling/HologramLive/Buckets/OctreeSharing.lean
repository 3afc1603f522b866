import HologramLive.Buckets.OctreeWalk
import HologramLive.Buckets.Objects
namespace HologramLive.Buckets
open Packs List
variable {sha256 : Bytes → Bytes} {load : Str → Option Json}

def Lists (load : Str → Option Json) (key digest : Str) : Prop :=
  ∃ node children descriptor,load digest = some node ∧ levelOf node = some 0 ∧ childrenOf node = some children ∧
    descriptor ∈ children ∧ (entryOf descriptor).map Prod.fst = some key

-- A path from the leaf that lists a key up to a node.
inductive PathTo (load : Str → Option Json) (key : Str) : List Str → Str → Prop
  | leaf {digest : Str} (lists : Lists load key digest) : PathTo load key [digest] digest
  | up {path : List Str} {digest parent : Str} (below : PathTo load key path digest) (child : Child load digest parent) :
      PathTo load key (path ++ [parent]) parent

-- Two nodes of two trees that are one, or of which the first is on the path.
def Shares (path : List Str) (node node' : IndexBlock) : Prop := node = node' ∨ node.digest ∈ path

theorem shares_refl (path : List Str) (nodes : List IndexBlock) : List.Forall₂ (Shares path) nodes nodes := by
  induction nodes with
  | nil => exact .nil
  | cons node rest ih => exact .cons (.inl rfl) ih

-- Two levels that differ in the node above a key, with the nodes so far and the
-- path up to it.
structure Beside (load : Str → Option Json) (key : Str) (level level' : List NodeRef) (nodes nodes' : List IndexBlock) (path : List Str) :
    Prop where
  apart : ∃ pre post tip tip',level = pre ++ tip :: post ∧ level' = pre ++ tip' :: post ∧ tip'.last = tip.last ∧ PathTo load key path tip.digest
  shares : List.Forall₂ (Shares path) nodes nodes'

theorem packsOf_replace (sha256 : Bytes → Bytes) (levels : Nat) (tip : NodeRef) (pre post : List NodeRef) : ∃ before front back after,
    ∀ other : NodeRef,other.last = tip.last → packsOf sha256 levels (pre ++ other :: post) = before ++ (front ++ other :: back) :: after := by
  obtain ⟨before,front,back,after,cut⟩ := runs_replace (fun n : NodeRef => isBoundary sha256 n.last levels) tip pre post []
  by_cases whole : (before ++ (front ++ tip :: back) :: after).length = (pre ++ tip :: post).length
  · refine ⟨[],pre,post,[],fun other same => ?_⟩
    have packs := cut other (by rw [same])
    simp only [length_append,length_cons] at whole
    unfold packsOf
    dsimp only
    rw [packs,if_pos (by simpa using whole)]
    rfl
  · refine ⟨before,front,back,after,fun other same => ?_⟩
    have packs := cut other (by rw [same])
    simp only [length_append,length_cons] at whole
    unfold packsOf
    dsimp only
    rw [packs,if_neg (by simpa using whole)]

theorem innerNode_last (same : tip'.last = tip.last) :
    (innerNode sha256 levels (front ++ tip' :: back)).2.last = (innerNode sha256 levels (front ++ tip :: back)).2.last := by
  simp only [innerNode,makeNode,getLast?_append,getLast?_cons]
  cases back with
  | nil => simp [same]
  | cons next rest => simp [getLast?_cons]

section Climb
variable {key : Str} {level level' : List NodeRef} {nodes nodes' : List IndexBlock} {path : List Str} {levels : Nat}

theorem shares_more (shares : List.Forall₂ (Shares path) nodes nodes') (sub : ∀ digest ∈ path,digest ∈ more) :
    List.Forall₂ (Shares more) nodes nodes' :=
  shares.imp fun _ _ share => share.imp id (sub _)

theorem Beside.climbs (beside : Beside load key level level' nodes nodes' path) (inner : levels ≠ 0)
    (serves : Serves load (nodes ++ (madeOf sha256 levels level).map Prod.fst)) : ∃ parent,
    Beside load key ((madeOf sha256 levels level).map Prod.snd) ((madeOf sha256 levels level').map Prod.snd)
      (nodes ++ (madeOf sha256 levels level).map Prod.fst) (nodes' ++ (madeOf sha256 levels level').map Prod.fst) (path ++ [parent]) := by
  obtain ⟨⟨pre,post,tip,tip',shape,shape',last,below⟩,shares⟩ := beside
  obtain ⟨before,front,back,after,cut⟩ := packsOf_replace sha256 levels tip pre post
  have packs : packsOf sha256 levels level = before ++ (front ++ tip :: back) :: after := by rw [shape]; exact cut tip rfl
  have packs' : packsOf sha256 levels level' = before ++ (front ++ tip' :: back) :: after := by rw [shape']; exact cut tip' last
  have member : (innerNode sha256 levels (front ++ tip :: back)).1 ∈ nodes ++ (madeOf sha256 levels level).map Prod.fst := by
    apply mem_append_right
    rw [madeOf,packs]
    exact mem_map_of_mem (mem_map_of_mem (mem_append_right _ mem_cons_self))
  obtain ⟨text,loaded⟩ := innerNode_found serves member
  have child : Child load tip.digest (innerNode sha256 levels (front ++ tip :: back)).2.digest :=
    (child_made loaded inner _).mpr ⟨tip,by simp,rfl⟩
  refine ⟨(innerNode sha256 levels (front ++ tip :: back)).2.digest,⟨?_,?_⟩⟩
  · refine ⟨(before.map (innerNode sha256 levels)).map Prod.snd,(after.map (innerNode sha256 levels)).map Prod.snd,_,
      (innerNode sha256 levels (front ++ tip' :: back)).2,?_,?_,innerNode_last last,.up below child⟩
    · rw [madeOf,packs]
      simp
    · rw [madeOf,packs']
      simp
  · have earlier := shares_more shares fun digest (here : digest ∈ path) =>
      mem_append_left [(innerNode sha256 levels (front ++ tip :: back)).2.digest] here
    apply rel_append earlier
    rw [madeOf,madeOf,packs,packs']
    simp only [map_append,map_cons]
    apply rel_append (shares_refl _ _)
    refine .cons (.inr ?_) (shares_refl _ _)
    exact mem_append_right _ mem_cons_self

end Climb

def change (key : Str) (value : IndexEntry) (entry : Str × IndexEntry) : Str × IndexEntry :=
  if entry.1 = key then (key,value) else entry

theorem codeUnits_front (same : codeUnits c ++ rest = codeUnits d ++ other) : c = d ∧ rest = other := by
  have valid (c : Char) : c.toNat < 0xd800 ∨ 0xdfff < c.toNat ∧ c.toNat < 0x110000 := c.valid
  have first := valid c
  have second := valid d
  have equal : c.toNat = d.toNat ∧ rest = other := by
    unfold codeUnits at same
    split at same
    · split at same
      · exact List.cons.inj same
      · obtain ⟨unit,_⟩ := List.cons.inj same
        omega
    · split at same
      · obtain ⟨unit,_⟩ := List.cons.inj same
        omega
      · obtain ⟨unit,later⟩ := List.cons.inj same
        obtain ⟨low,tail⟩ := List.cons.inj later
        exact ⟨by omega,tail⟩
  exact ⟨Char.toNat_inj.mp equal.1,equal.2⟩

theorem utf16_injective (same : utf16 left = utf16 right) : left = right := by
  have some_ (c : Char) : codeUnits c ≠ [] := by
    unfold codeUnits
    split <;> simp
  induction left generalizing right with
  | nil =>
    cases right with
    | nil => rfl
    | cons d later => exact absurd (append_eq_nil_iff.mp same.symm).1 (some_ d)
  | cons c rest ih =>
    cases right with
    | nil => exact absurd (append_eq_nil_iff.mp same).1 (some_ c)
    | cons d later =>
      obtain ⟨head,tail⟩ := codeUnits_front same
      rw [head,ih tail]

theorem keyLe_antisymm (one : keyLe a b = true) (two : keyLe b a = true) : a = b :=
  utf16_injective (Std.LawfulEqCmp.eq_of_compare (Std.OrientedCmp.isLE_antisymm one two))

theorem keyLe_total (a b : Str) : (keyLe a b || keyLe b a) = true := by
  unfold keyLe
  have swapped : compare (utf16 b) (utf16 a) = (compare (utf16 a) (utf16 b)).swap := Std.OrientedCmp.eq_swap
  rw [swapped]
  cases compare (utf16 a) (utf16 b) <;> rfl

theorem keyLe_trans (a b c : Str) (one : keyLe a b = true) (two : keyLe b c = true) : keyLe a c = true := Std.TransCmp.isLE_trans one two

variable (entries : List (Str × IndexEntry))

theorem sortedEntries_perm : (sortedEntries entries).Perm entries := mergeSort_perm _ _

theorem sortedEntries_sorted : (sortedEntries entries).Pairwise fun a b => keyLe a.1 b.1 = true :=
  pairwise_mergeSort (fun a b c => keyLe_trans a.1 b.1 c.1) (fun a b => keyLe_total a.1 b.1) entries

theorem sortedEntries_same {entries other : List (Str × IndexEntry)} (distinct : (entries.map Prod.fst).Nodup) (perm : other.Perm entries) :
    sortedEntries other = sortedEntries entries := by
  have both := ((sortedEntries_perm other).trans perm).trans (sortedEntries_perm entries).symm
  refine both.eq_of_pairwise (fun a b inLeft inRight one two => ?_) (sortedEntries_sorted other) (sortedEntries_sorted entries)
  have a' := perm.mem_iff.mp ((sortedEntries_perm other).mem_iff.mp inLeft)
  have b' := (sortedEntries_perm entries).mem_iff.mp inRight
  exact inj_on_of_nodup_map distinct a' b' (keyLe_antisymm one two)

theorem Standing.reaches {root : NodeRef} (standing : Standing load sorted [root] levels nodes) (digest : Str) :
    (∃ node ∈ nodes,node.digest = digest) ↔ Reaches load root.digest digest := by
  constructor
  · intro ⟨node,member,same⟩
    obtain ⟨ref,here,path⟩ := standing.reached node member
    rw [mem_singleton.mp here,same] at path
    exact path
  · intro path
    induction path with
    | refl => exact standing.tops root mem_cons_self
    | tail _ step ih =>
      obtain ⟨node,member,same⟩ := ih
      rw [←same] at step
      exact standing.closed node member _ step

def loadFrom (nodes : List IndexBlock) (digest : Str) : Option Json :=
  (nodes.find? fun node => node.digest = digest).bind fun node => (fromUtf8 node.bytes).bind Json.parse

def oneEntry : Str × IndexEntry :=
  ("a".toList,⟨"sha256:44136fa355b3678a1146ad16f7e8649e94fb4fc21fe77e8310c060f61caaff8a".toList,2,"b".toList,0,0⟩)

theorem build_one (sha256 : Bytes → Bytes) (entry : Str × IndexEntry) : build sha256 [entry] =
    some ⟨(leafNode sha256 [entry]).2.digest,(leafNode sha256 [entry]).2.size,[(leafNode sha256 [entry]).1],1⟩ := by
  have sorted : sortedEntries [entry] = [entry] := by simp [sortedEntries]
  have groups : leafGroups sha256 [entry] = [[entry]] := by
    unfold leafGroups runs runs
    dsimp only
    split
    · rfl
    · rfl
  rw [build,sorted,groups]
  exact climb_one _

-- Of two trees in which one digest never stands for two nodes, the roots are equal
-- exactly when the trees were built from the same rows.
theorem root_binds {entries other : List (Str × IndexEntry)} (distinct : (entries.map Prod.fst).Nodup) {tree tree' : IndexTree}
    (built : build sha256 entries = some tree) (built' : build sha256 other = some tree')
    (honest : ∀ node ∈ tree.nodes ++ tree'.nodes,∀ node' ∈ tree.nodes ++ tree'.nodes,node.digest = node'.digest → node.bytes = node'.bytes) :
    tree.root = tree'.root ↔ entries.Perm other := by
  constructor
  · intro same
    have serves : Serves (loadFrom (tree.nodes ++ tree'.nodes)) (tree.nodes ++ tree'.nodes) := by
      intro node member
      unfold loadFrom
      cases found : (tree.nodes ++ tree'.nodes).find? fun known => known.digest = node.digest with
      | none => exact absurd (find?_eq_none.mp found node member) (by simp)
      | some known =>
        have digest : known.digest = node.digest := by simpa using find?_some found
        rw [Option.bind_some,honest known (mem_of_find?_eq_some found) node member digest]
    have spells (rows : List (Str × IndexEntry)) (made : IndexTree) (ran : build sha256 rows = some made)
        (among : ∀ node ∈ made.nodes,node ∈ tree.nodes ++ tree'.nodes) (extra : Nat) :
        treeWalk (loadFrom (tree.nodes ++ tree'.nodes)) (made.levels+extra) made.root = some (sortedEntries rows) := by
      obtain ⟨root,_,again,named,stands⟩ := @build_standing sha256 rows
      cases again.symm.trans ran
      have standing := stands _ (serves.mono among)
      have whole : contentOf (loadFrom (tree.nodes ++ tree'.nodes)) made.levels root = sortedEntries rows := by simpa using standing.spells
      rw [named,standing.walks root mem_cons_self extra,whole]
    have left := spells entries tree built (fun _ => mem_append_left _) tree'.levels
    have right := spells other tree' built' (fun _ => mem_append_right _) tree.levels
    rw [Nat.add_comm,←same,left] at right
    exact (sortedEntries_perm entries).symm.trans (Option.some.inj right ▸ sortedEntries_perm other)
  · intro perm
    rw [build,←sortedEntries_same distinct perm.symm] at built
    exact congrArg IndexTree.root (Option.some.inj (built.symm.trans built'))

theorem renamed_root : (leafNode id [oneEntry]).2.digest ≠ (leafNode id [(['b'],oneEntry.2)]).2.digest := by
  intro same
  have perm := (@root_binds id [oneEntry] [(['b'],oneEntry.2)] (by simp) _ _ (build_one id _) (build_one id _) (by
    intro node member node' member' equal
    simp only [singleton_append,mem_cons,not_mem_nil,or_false] at member member'
    obtain rfl | rfl := member <;> obtain rfl | rfl := member' <;> exact hex_injective (append_cancel_left equal))).mp same
  simp [oneEntry] at perm

end HologramLive.Buckets
