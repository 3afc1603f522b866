import HologramLive.Buckets.Octree
namespace HologramLive.Buckets
open Packs List
variable {sha256 : Bytes → Bytes} {load : Str → Option Json}

theorem numberOf_decimal (n : Nat) : numberOf (decimal n) = some n := by
  have digits : (decimal n).all Char.isDigit = true := by
    rw [all_eq_true]
    intro c member
    exact Nat.isDigit_of_mem_toDigits (by decide) (by decide) member
  rw [numberOf,if_pos digits]
  exact congrArg some Nat.ofDigitChars_ten_toDigits

theorem entryOf_descriptorFor (entry : Str × IndexEntry) : entryOf (descriptorFor entry) = some entry := by
  have annotations : (descriptorFor entry).get "annotations".toList = some (.object [(bucketKey,.string entry.1),
      (bucketSize,.string (decimal entry.2.size)),(bucketMtime,.string (decimal entry.2.mtime)),
      (objectRoot,.string entry.2.root)]) := rfl
  have digest : digestOf (descriptorFor entry) = some entry.2.manifest := rfl
  have manifestSize : numberAt (descriptorFor entry) "size".toList = some entry.2.manifestSize := rfl
  have size : (stringAt (.object [(bucketKey,.string entry.1),(bucketSize,.string (decimal entry.2.size)),
      (bucketMtime,.string (decimal entry.2.mtime)),(objectRoot,.string entry.2.root)]) bucketSize).bind numberOf =
      some entry.2.size := numberOf_decimal entry.2.size
  have mtime : (stringAt (.object [(bucketKey,.string entry.1),(bucketSize,.string (decimal entry.2.size)),
      (bucketMtime,.string (decimal entry.2.mtime)),(objectRoot,.string entry.2.root)]) bucketMtime).bind numberOf =
      some entry.2.mtime := numberOf_decimal entry.2.mtime
  unfold entryOf
  rw [annotations,digest,manifestSize]
  simp only [Option.bind_eq_bind,Option.bind_some,size,mtime]
  rfl

theorem digestOf_childDescriptor (child : NodeRef) : digestOf (childDescriptor child) = some child.digest := rfl

theorem levelOf_nodeDocument (children : List Json) (level : Nat) (last : Str) :
    levelOf (nodeDocument children level last) = some level := by
  have annotations : (nodeDocument children level last).get "annotations".toList =
      some (.object [(bucketLast,.string last),(bucketLevel,.string (decimal level))]) := rfl
  unfold levelOf
  rw [annotations]
  exact numberOf_decimal level

theorem childrenOf_nodeDocument (children : List Json) (level : Nat) (last : Str) :
    childrenOf (nodeDocument children level last) = some children := rfl

def Serves (load : Str → Option Json) (nodes : List IndexBlock) : Prop :=
  ∀ node ∈ nodes,load node.digest = (fromUtf8 node.bytes).bind Json.parse

theorem Serves.mono (serves : Serves load nodes) (sub : ∀ node ∈ fewer,node ∈ nodes) : Serves load fewer :=
  fun node member => serves node (sub node member)

variable {last : Str}

theorem load_made (serves : Serves load nodes) (member : (makeNode sha256 children level last).1 ∈ nodes) :
    load (makeNode sha256 children level last).2.digest = some (nodeDocument children level last) := by
  have text : fromUtf8 (toUtf8 (nodeDocument children level last).print) = some (nodeDocument children level last).print :=
    fromUtf8_iff.mpr rfl
  have found := serves _ member
  simp only [makeNode,jsonBlock,text,Option.bind_some,Json.parse_print] at found ⊢
  exact found

theorem mapM_each {α β : Type} {f : α → Option β} {g : α → β} {items : List α} (each : ∀ a ∈ items,f a = some (g a)) :
    items.mapM f = some (items.map g) := by
  induction items with
  | nil => rfl
  | cons a rest ih =>
    obtain ⟨first,others⟩ := forall_mem_cons.mp each
    rw [mapM_cons,first,ih others]
    rfl

variable {digest : Str}

theorem treeWalk_leaf (found : load digest = some (nodeDocument (group.map descriptorFor) 0 last)) (depth : Nat) :
    treeWalk load (depth+1) digest = some group := by
  have rows : (group.map descriptorFor).mapM entryOf = some group := by
    rw [mapM_map]
    have each := @mapM_each _ _ (entryOf ∘ descriptorFor) id group fun entry _ => entryOf_descriptorFor entry
    rw [map_id] at each
    exact each
  simp [treeWalk,found,levelOf_nodeDocument,childrenOf_nodeDocument,rows]

variable {pack : List NodeRef}

theorem treeWalk_inner
    (found : load digest = some (nodeDocument (pack.map childDescriptor) levels last)) (inner : levels ≠ 0)
    (below : ∀ child ∈ pack,treeWalk load depth child.digest = some (content child)) :
    treeWalk load (depth+1) digest = some (pack.flatMap content) := by
  have rows : (pack.map childDescriptor).mapM (fun child => (digestOf child).bind (treeWalk load depth)) = some (pack.map content) := by
    rw [mapM_map]
    apply mapM_each
    intro child member
    simp only [Function.comp_apply,digestOf_childDescriptor,Option.bind_some,below child member]
  simp only [treeWalk,found,levelOf_nodeDocument,childrenOf_nodeDocument,Option.bind_eq_bind,Option.bind_some,if_neg inner,rows]
  rfl

def Child (load : Str → Option Json) (child parent : Str) : Prop :=
  ∃ node level children descriptor,load parent = some node ∧ levelOf node = some level ∧ level ≠ 0 ∧
    childrenOf node = some children ∧ descriptor ∈ children ∧ digestOf descriptor = some child

def Reaches (load : Str → Option Json) : Str → Str → Prop := Relation.ReflTransGen fun parent child => Child load child parent

theorem child_made
    (found : load digest = some (nodeDocument (pack.map childDescriptor) levels last)) (inner : levels ≠ 0) (child : Str) :
    Child load child digest ↔ ∃ ref ∈ pack,ref.digest = child := by
  constructor
  · intro ⟨node,level,children,descriptor,loaded,_,_,listed,member,named⟩
    cases found.symm.trans loaded
    rw [childrenOf_nodeDocument] at listed
    cases listed
    obtain ⟨ref,here,rfl⟩ := mem_map.mp member
    rw [digestOf_childDescriptor] at named
    exact ⟨ref,here,Option.some.inj named⟩
  · intro ⟨ref,here,same⟩
    refine ⟨_,levels,_,childDescriptor ref,found,levelOf_nodeDocument _ _ _,inner,childrenOf_nodeDocument _ _ _,
      mem_map_of_mem here,?_⟩
    rw [digestOf_childDescriptor,same]

theorem child_leaf (found : load digest = some (nodeDocument children 0 last))
    (child : Str) : ¬Child load child digest := by
  intro ⟨node,level,_,_,loaded,level_,inner,_⟩
  cases found.symm.trans loaded
  rw [levelOf_nodeDocument] at level_
  cases level_
  exact inner rfl

def contentOf (load : Str → Option Json) (levels : Nat) (ref : NodeRef) : List (Str × IndexEntry) :=
  (treeWalk load levels ref.digest).getD []

-- The levels built so far: the last one spells the sorted rows, and the nodes
-- are those that are reached from it.
structure Standing (load : Str → Option Json) (sorted : List (Str × IndexEntry)) (level : List NodeRef) (levels : Nat)
    (nodes : List IndexBlock) : Prop where
  walks : ∀ ref ∈ level,∀ extra,treeWalk load (levels+extra) ref.digest = some (contentOf load levels ref)
  spells : level.flatMap (contentOf load levels) = sorted
  reached : ∀ node ∈ nodes,∃ ref ∈ level,Reaches load ref.digest node.digest
  tops : ∀ ref ∈ level,∃ node ∈ nodes,node.digest = ref.digest
  closed : ∀ node ∈ nodes,∀ child,Child load child node.digest → ∃ other ∈ nodes,other.digest = child

theorem packsOf_flatten (levels : Nat) (level : List NodeRef) : (packsOf sha256 levels level).flatten = level := by
  unfold packsOf
  dsimp only
  split
  · simp
  · rw [runs_flatten]
    rfl

section Climb
variable {sorted : List (Str × IndexEntry)} {level : List NodeRef} {levels : Nat} {nodes : List IndexBlock}

def madeOf (sha256 : Bytes → Bytes) (levels : Nat) (level : List NodeRef) : List (IndexBlock × NodeRef) :=
  (packsOf sha256 levels level).map (innerNode sha256 levels)

theorem innerNode_found (serves : Serves load nodes) (member : (innerNode sha256 levels pack).1 ∈ nodes) :
    ∃ last,load (innerNode sha256 levels pack).2.digest = some (nodeDocument (pack.map childDescriptor) levels last) :=
  ⟨_,load_made serves member⟩

theorem Standing.climbs (standing : Standing load sorted level levels nodes) (inner : levels ≠ 0)
    (serves : Serves load (nodes ++ (madeOf sha256 levels level).map Prod.fst)) :
    Standing load sorted ((madeOf sha256 levels level).map Prod.snd) (levels+1)
      (nodes ++ (madeOf sha256 levels level).map Prod.fst) := by
  have found : ∀ pack ∈ packsOf sha256 levels level,
      ∃ last,load (innerNode sha256 levels pack).2.digest = some (nodeDocument (pack.map childDescriptor) levels last) := by
    intro pack member
    apply innerNode_found serves
    exact mem_append_right _ (mem_map_of_mem (mem_map_of_mem member))
  have among : ∀ pack ∈ packsOf sha256 levels level,∀ ref ∈ pack,ref ∈ level := by
    intro pack member ref here
    rw [←@packsOf_flatten sha256 levels level]
    exact mem_flatten_of_mem member here
  have walks : ∀ pack ∈ packsOf sha256 levels level,∀ extra,
      treeWalk load (levels+1+extra) (innerNode sha256 levels pack).2.digest = some (pack.flatMap (contentOf load levels)) := by
    intro pack member extra
    obtain ⟨last,loaded⟩ := found pack member
    have below : ∀ child ∈ pack,treeWalk load (levels+extra) child.digest = some (contentOf load levels child) :=
      fun child here => standing.walks child (among pack member child here) extra
    have deep : levels+1+extra = levels+extra+1 := by omega
    rw [deep]
    exact treeWalk_inner loaded inner below
  have content : ∀ pack ∈ packsOf sha256 levels level,
      contentOf load (levels+1) (innerNode sha256 levels pack).2 = pack.flatMap (contentOf load levels) := by
    intro pack member
    rw [contentOf,walks pack member 0]
    rfl
  refine ⟨?_,?_,?_,?_,?_⟩
  · intro ref member extra
    obtain ⟨made,here,rfl⟩ := mem_map.mp member
    obtain ⟨pack,packed,rfl⟩ := mem_map.mp here
    rw [walks pack packed extra,content pack packed]
  · rw [madeOf,map_map,flatMap_map]
    calc (packsOf sha256 levels level).flatMap (fun pack => contentOf load (levels+1) (innerNode sha256 levels pack).2)
        = (packsOf sha256 levels level).flatMap (fun pack => pack.flatMap (contentOf load levels)) := flatMap_congr content
      _ = (packsOf sha256 levels level).flatten.flatMap (contentOf load levels) := by rw [←flatMap_id,flatMap_assoc]; rfl
      _ = sorted := by rw [packsOf_flatten]; exact standing.spells
  · intro node member
    rcases mem_append.mp member with before | new
    · obtain ⟨ref,here,path⟩ := standing.reached node before
      rw [←@packsOf_flatten sha256 levels level] at here
      obtain ⟨pack,packed,inside⟩ := mem_flatten.mp here
      obtain ⟨last,loaded⟩ := found pack packed
      have step : Child load ref.digest (innerNode sha256 levels pack).2.digest := (child_made loaded inner _).mpr ⟨ref,inside,rfl⟩
      exact ⟨_,mem_map_of_mem (mem_map_of_mem packed),.head step path⟩
    · obtain ⟨made,here,rfl⟩ := mem_map.mp new
      obtain ⟨pack,packed,rfl⟩ := mem_map.mp here
      exact ⟨_,mem_map_of_mem (mem_map_of_mem packed),.refl⟩
  · intro ref member
    obtain ⟨made,here,rfl⟩ := mem_map.mp member
    obtain ⟨pack,packed,rfl⟩ := mem_map.mp here
    exact ⟨_,mem_append_right _ (mem_map_of_mem (mem_map_of_mem packed)),rfl⟩
  · intro node member child below
    rcases mem_append.mp member with before | new
    · obtain ⟨other,there,same⟩ := standing.closed node before child below
      exact ⟨other,mem_append_left _ there,same⟩
    · obtain ⟨made,here,rfl⟩ := mem_map.mp new
      obtain ⟨pack,packed,rfl⟩ := mem_map.mp here
      obtain ⟨last,loaded⟩ := found pack packed
      obtain ⟨ref,inside,named⟩ := (child_made loaded inner child).mp below
      obtain ⟨other,there,same⟩ := standing.tops ref (among pack packed ref inside)
      exact ⟨other,mem_append_left _ there,by rw [same,named]⟩

theorem madeOf_nonempty (some_ : level ≠ []) : (madeOf sha256 levels level).map Prod.snd ≠ [] := by
  intro nothing
  have packs : packsOf sha256 levels level = [] := map_eq_nil_iff.mp (map_eq_nil_iff.mp nothing)
  have whole := @packsOf_flatten sha256 levels level
  rw [packs] at whole
  exact some_ whole.symm

theorem climb_many (many : 1 < level.length) :
    climb sha256 level levels nodes = climb sha256 ((madeOf sha256 levels level).map Prod.snd) (levels+1)
      (nodes ++ (madeOf sha256 levels level).map Prod.fst) := by
  rw [climb,dif_pos many]
  rfl

theorem climb_one (root : NodeRef) : climb sha256 [root] levels nodes = some ⟨root.digest,root.size,nodes,levels⟩ := by
  rw [climb,dif_neg (by simp)]
  rfl

theorem climb_ends (some_ : level ≠ []) (inner : levels ≠ 0) :
    ∃ root tree,climb sha256 level levels nodes = some tree ∧ tree.root = root.digest ∧ (∀ node ∈ nodes,node ∈ tree.nodes) ∧
      ∀ load sorted,Serves load tree.nodes → Standing load sorted level levels nodes →
        Standing load sorted [root] tree.levels tree.nodes := by
  induction count : level.length using Nat.strongRecOn generalizing level levels nodes with
  | ind n ih =>
    by_cases many : 1 < level.length
    · have shorter : ((madeOf sha256 levels level).map Prod.snd).length < n := by
        rw [madeOf,length_map,length_map,←count]; exact packsOf_shorter sha256 levels many
      obtain ⟨root,tree,ran,same,kept,holds⟩ := ih _ shorter (madeOf_nonempty some_) (Nat.succ_ne_zero levels) rfl
      refine ⟨root,tree,(climb_many many).trans ran,same,fun node member => kept node (mem_append_left _ member),?_⟩
      intro load sorted serves standing
      exact holds load sorted serves (standing.climbs inner (serves.mono kept))
    · obtain ⟨root,rfl⟩ : ∃ root,level = [root] := by
        have positive := length_pos_iff.mpr some_
        exact length_eq_one_iff.mp (by omega)
      exact ⟨root,_,climb_one root,rfl,fun _ member => member,fun _ _ _ standing => standing⟩

end Climb

theorem leafGroups_flatten (sorted : List (Str × IndexEntry)) : (leafGroups sha256 sorted).flatten = sorted := by
  have whole := runs_flatten (fun e : Str × IndexEntry => isBoundary sha256 e.1 0) sorted []
  unfold leafGroups
  dsimp only
  split
  · rename_i nothing
    rw [isEmpty_iff.mp nothing] at whole
    exact whole
  · exact whole

theorem leafGroups_nonempty (sorted : List (Str × IndexEntry)) : leafGroups sha256 sorted ≠ [] := by
  unfold leafGroups
  dsimp only
  split
  · simp
  · rename_i some_
    exact fun nothing => some_ (isEmpty_iff.mpr nothing)

def leavesOf (sha256 : Bytes → Bytes) (sorted : List (Str × IndexEntry)) : List (IndexBlock × NodeRef) :=
  (leafGroups sha256 sorted).map (leafNode sha256)

theorem leaves_standing (serves : Serves load ((leavesOf sha256 sorted).map Prod.fst)) :
    Standing load sorted ((leavesOf sha256 sorted).map Prod.snd) 1 ((leavesOf sha256 sorted).map Prod.fst) := by
  have found : ∀ group ∈ leafGroups sha256 sorted,
      ∃ last,load (leafNode sha256 group).2.digest = some (nodeDocument (group.map descriptorFor) 0 last) :=
    fun group member => ⟨_,load_made serves (mem_map_of_mem (mem_map_of_mem member))⟩
  have walks : ∀ group ∈ leafGroups sha256 sorted,∀ extra,treeWalk load (1+extra) (leafNode sha256 group).2.digest = some group := by
    intro group member extra
    obtain ⟨last,loaded⟩ := found group member
    rw [Nat.add_comm]
    exact treeWalk_leaf loaded extra
  have content : ∀ group ∈ leafGroups sha256 sorted,contentOf load 1 (leafNode sha256 group).2 = group := by
    intro group member
    rw [contentOf,walks group member 0]
    rfl
  refine ⟨?_,?_,?_,?_,?_⟩
  · intro ref member extra
    obtain ⟨made,here,rfl⟩ := mem_map.mp member
    obtain ⟨group,grouped,rfl⟩ := mem_map.mp here
    rw [walks group grouped extra,content group grouped]
  · rw [leavesOf,map_map,flatMap_map]
    calc (leafGroups sha256 sorted).flatMap (fun group => contentOf load 1 (leafNode sha256 group).2)
        = (leafGroups sha256 sorted).flatMap id := flatMap_congr content
      _ = sorted := by rw [flatMap_id]; exact leafGroups_flatten sorted
  · intro node member
    obtain ⟨made,here,rfl⟩ := mem_map.mp member
    obtain ⟨group,grouped,rfl⟩ := mem_map.mp here
    exact ⟨_,mem_map_of_mem here,.refl⟩
  · intro ref member
    obtain ⟨made,here,rfl⟩ := mem_map.mp member
    obtain ⟨group,grouped,rfl⟩ := mem_map.mp here
    exact ⟨_,mem_map_of_mem here,rfl⟩
  · intro node member child below
    obtain ⟨made,here,rfl⟩ := mem_map.mp member
    obtain ⟨group,grouped,rfl⟩ := mem_map.mp here
    obtain ⟨last,loaded⟩ := found group grouped
    exact absurd below (child_leaf loaded child)

theorem build_standing (entries : List (Str × IndexEntry)) : ∃ root tree,build sha256 entries = some tree ∧ tree.root = root.digest ∧
    ∀ load,Serves load tree.nodes → Standing load (sortedEntries entries) [root] tree.levels tree.nodes := by
  have some_ : (leavesOf sha256 (sortedEntries entries)).map Prod.snd ≠ [] := by
    intro nothing
    exact leafGroups_nonempty _ (map_eq_nil_iff.mp (map_eq_nil_iff.mp nothing))
  obtain ⟨root,tree,ran,same,kept,holds⟩ := @climb_ends sha256 _ 1 ((leavesOf sha256 (sortedEntries entries)).map Prod.fst) some_ (by omega)
  exact ⟨root,tree,ran,same,fun load serves => holds load _ serves (leaves_standing (serves.mono kept))⟩

end HologramLive.Buckets
