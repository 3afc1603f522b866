import HologramLive.Oci.ImportAgain
namespace HologramLive.Import
open Tables Fallible Std Content Option List

section Fixpoint
variable (w : Reading) (v : Volume) (root : Path) (repo : RepoName) (c : Content)

-- The names an imported digest makes present: itself, the other name of its bytes,
-- and what the alias table already took for it.
def Called (digest needed : Digest) : Prop :=
  needed = digest ∨ (∃ plan,planned w v root digest = some plan ∧ needed = otherName w.crates digest plan.2.1) ∨
    c.aliasOf needed = some digest

-- A manifest the validator accepts, whose bytes hash to it, and all of whose
-- references are present or made so by the given digests.
def Ready (imported : Set Digest) (digest : Digest) : Prop :=
  ∃ plan,planned w v root digest = some plan ∧ w.crates.digestOf digest.algorithm plan.2.1 = digest ∧
    ∀ needed ∈ plan.2.2.mustExist,c.LinkedUnder repo needed ∨ ∃ other ∈ imported,Called w v root c other needed

def step (revisions : List Digest) : Set Digest →o Set Digest where
  toFun imported := {digest | digest ∈ revisions ∧ ¬c.LinkedUnder repo digest ∧ Ready w v root repo c imported digest}
  monotone' small large within digest := by
    rintro ⟨listed,unlinked,plan,read,hashed,present⟩
    exact ⟨listed,unlinked,plan,read,hashed,fun needed member =>
      (present needed member).imp_right fun ⟨other,inside,called⟩ => ⟨other,within inside,called⟩⟩

def imports (revisions : List Digest) : Set Digest := (step w v root repo c revisions).lfp

variable {w v root repo c}

variable {revisions : List Digest}

theorem imports_iff : digest ∈ imports w v root repo c revisions ↔ digest ∈ revisions ∧ ¬c.LinkedUnder repo digest ∧
      Ready w v root repo c (imports w v root repo c revisions) digest := by
  unfold imports
  conv_lhs => rw [←OrderHom.map_lfp]
  rfl

theorem imports_least
    (closed : ∀ digest ∈ revisions,¬c.LinkedUnder repo digest → Ready w v root repo c imported digest → digest ∈ imported) :
    imports w v root repo c revisions ⊆ imported :=
  OrderHom.lfp_le _ fun digest ⟨listed,unlinked,ready⟩ => closed digest listed unlinked ready

theorem Ready.mono (ready : Ready w v root repo c small digest)
    (within : small ⊆ large) : Ready w v root repo c large digest := by
  obtain ⟨plan,read,hashed,present⟩ := ready
  exact ⟨plan,read,hashed,fun needed member => (present needed member).imp_right fun ⟨other,inside,called⟩ =>
    ⟨other,within inside,called⟩⟩

end Fixpoint

section Holds
variable (w : Reading) (v : Volume) (root : Path) (repo : RepoName) (c : Content)

def linkOf (digest : Digest) : Option Link :=
  (planned w v root digest).map fun plan => Link.durable ⟨plan.2.2.kind,some plan.1⟩

-- What a store is once some digests of a tree went into one that held `c`.
structure Holds (imported : Set Digest) (s : Content) : Prop where
  inside : ∀ digest ∈ imported,s.linkGet repo digest = linkOf w v root digest
  outside : ∀ other digest,¬(other = repo ∧ digest ∈ imported) → s.linkGet other digest = c.linkGet other digest
  planned : ∀ digest ∈ imported,(planned w v root digest).isSome
  aliases : ∀ digest,(s.aliasOf digest = c.aliasOf digest ∧
      ∀ other ∈ imported,∀ plan,Import.planned w v root other = some plan → digest ≠ otherName w.crates other plan.2.1) ∨
    digest ∈ imported ∨ ∃ other ∈ imported,Called w v root c other digest ∧ s.aliasOf digest = some other
  rest : s.tags = c.tags

variable {w v root repo c}

theorem Holds.start : Holds w v root repo c ∅ c where
  inside _ member := absurd member (Set.notMem_empty _)
  outside _ _ _ := rfl
  planned _ member := absurd member (Set.notMem_empty _)
  aliases _ := .inl ⟨rfl,fun _ member => absurd member (Set.notMem_empty _)⟩
  rest := rfl

variable {imported : Set Digest}

theorem Holds.linked (holds : Holds w v root repo c imported s) :
    s.Linked repo digest ↔ c.Linked repo digest ∨ digest ∈ imported := by
  unfold Content.Linked
  by_cases member : digest ∈ imported
  · have read := holds.planned digest member
    rw [holds.inside digest member]
    unfold linkOf
    rw [isSome_map]
    exact ⟨fun _ => .inr member,fun _ => read⟩
  · rw [holds.outside repo digest fun both => member both.2]
    exact ⟨.inl,fun either => either.resolve_right member⟩

theorem Holds.present (holds : Holds w v root repo c imported s) :
    s.LinkedUnder repo needed ↔ c.LinkedUnder repo needed ∨ ∃ other ∈ imported,Called w v root c other needed := by
  constructor
  · rintro (direct | ⟨other,named,linked⟩)
    · rcases holds.linked.mp direct with before | member
      · exact .inl (.inl before)
      · exact .inr ⟨needed,member,.inl rfl⟩
    · rcases holds.aliases needed with ⟨same,_⟩ | member | ⟨origin,member,called,_⟩
      · rw [same] at named
        rcases holds.linked.mp linked with before | member
        · exact .inl (.inr ⟨other,named,before⟩)
        · exact .inr ⟨other,member,.inr (.inr named)⟩
      · exact .inr ⟨needed,member,.inl rfl⟩
      · exact .inr ⟨origin,member,called⟩
  · have renamed (member : needed ∈ imported ∨
        ∃ other ∈ imported,Called w v root c other needed ∧ s.aliasOf needed = some other) : s.LinkedUnder repo needed := by
      rcases member with member | ⟨other,member,_,named⟩
      · exact .inl (holds.linked.mpr (.inr member))
      · exact .inr ⟨other,named,holds.linked.mpr (.inr member)⟩
    rintro ((direct | ⟨other,named,linked⟩) | ⟨other,member,same | ⟨plan,read,same⟩ | named⟩)
    · exact .inl (holds.linked.mpr (.inl direct))
    · rcases holds.aliases needed with ⟨same,_⟩ | changed
      · exact .inr ⟨other,same.trans named,holds.linked.mpr (.inl linked)⟩
      · exact renamed changed
    · rw [same]
      exact .inl (holds.linked.mpr (.inr member))
    · rcases holds.aliases needed with ⟨_,apart⟩ | changed
      · exact absurd same (apart other member plan read)
      · exact renamed changed
    · rcases holds.aliases needed with ⟨same,_⟩ | changed
      · exact .inr ⟨other,same.trans named,holds.linked.mpr (.inr member)⟩
      · exact renamed changed

theorem Holds.ready {imported : Set Digest} {s : Content} (holds : Holds w v root repo c imported s) {digest : Digest}
    {plan : Str × Bytes × ManifestPlan} (read : Import.planned w v root digest = some plan)
    (hashed : w.crates.digestOf digest.algorithm plan.2.1 = digest) :
    Ready w v root repo c imported digest ↔ ∀ needed ∈ plan.2.2.mustExist,s.LinkedUnder repo needed := by
  constructor
  · rintro ⟨other,same,_,present⟩ needed member
    rw [read] at same
    cases same
    exact holds.present.mpr (present needed member)
  · exact fun present => ⟨plan,read,hashed,fun needed member => holds.present.mp (present needed member)⟩

theorem Holds.put {s after : Content} (holds : Holds w v root repo c imported s) (read : Import.planned w v root digest = some (mediaType,bytes,plan))
    (content : after = s.manifestStored w.crates repo digest mediaType bytes plan) :
    Holds w v root repo c (insert digest imported) after := by
  have only := (store_grows w.crates s digest bytes).only
  have links (other : RepoName) (name : Digest) : after.linkGet other name =
      if (repo,digest) = (other,name) then some (Link.durable ⟨plan.kind,some mediaType⟩) else s.linkGet other name := by
    have inserted : after.links = s.links.insert (repo,digest) (Link.durable ⟨plan.kind,some mediaType⟩) := by
      rw [content]
      unfold manifestStored manifestCommit aliasPut
      rw [only]
    unfold linkGet
    rw [inserted,get_insert]
  have aliases (name : Digest) : after.aliasOf name =
      if otherName w.crates digest bytes = name then some digest
      else if digest = name then some (otherName w.crates digest bytes) else s.aliasOf name := by
    have inserted : after.aliases = (s.aliases.insert digest (otherName w.crates digest bytes)).insert
        (otherName w.crates digest bytes) digest := by
      rw [content]
      unfold manifestStored manifestCommit aliasPut
      rw [only]
    unfold aliasOf
    rw [inserted,get_insert,get_insert]
  refine ⟨fun name member => ?_,fun other name apart => ?_,fun name member => ?_,fun name => ?_,?_⟩
  · rw [links]
    by_cases mine : digest = name
    · rw [←mine,if_pos rfl]
      unfold linkOf
      rw [read]
      rfl
    · rw [if_neg fun same => mine (Prod.mk.inj same).2]
      exact holds.inside name ((Set.mem_insert_iff.mp member).resolve_left fun equal => mine equal.symm)
  · have elsewhere : (repo,digest) ≠ (other,name) := by
      intro same
      obtain ⟨rfl,rfl⟩ := Prod.mk.inj same
      exact apart ⟨rfl,Set.mem_insert _ _⟩
    rw [links,if_neg elsewhere]
    exact holds.outside other name fun both => apart ⟨both.1,Set.mem_insert_of_mem _ both.2⟩
  · rcases Set.mem_insert_iff.mp member with rfl | before
    · rw [read]
      rfl
    · exact holds.planned name before
  · by_cases mine : digest = name
    · exact .inr (.inl (mine ▸ Set.mem_insert _ _))
    · by_cases other : otherName w.crates digest bytes = name
      · refine .inr (.inr ⟨digest,Set.mem_insert _ _,.inr (.inl ⟨_,read,other.symm⟩),?_⟩)
        rw [aliases,if_pos other]
      · have same : after.aliasOf name = s.aliasOf name := by rw [aliases,if_neg other,if_neg mine]
        rcases holds.aliases name with ⟨kept,apart⟩ | member | ⟨origin,member,called,named⟩
        · refine .inl ⟨same.trans kept,fun origin member plan' known => ?_⟩
          rcases Set.mem_insert_iff.mp member with rfl | before
          · rw [read] at known; cases known
            exact fun equal => other equal.symm
          · exact apart origin before plan' known
        · exact .inr (.inl (Set.mem_insert_of_mem _ member))
        · exact .inr (.inr ⟨origin,Set.mem_insert_of_mem _ member,called,same.trans named⟩)
  · rw [←holds.rest,content]
    unfold manifestStored manifestCommit aliasPut
    rw [only]

end Holds

section Pass
variable {w : World} {v : Volume} {root : Path} {repo : RepoName} {c : Content} {goal : Set Digest}

def mismatch (repo : RepoName) (item : Waiting) : ImportProblem :=
  ⟨.mismatch,repo.text,item.data,"the bytes do not hash to ".toList ++ item.digest.asStr⟩

def Read (w : World) (v : Volume) (root : Path) (item : Waiting) : Prop :=
  planned w.toReading v root item.digest = some (item.mediaType,item.bytes,item.plan)

instance (item : Waiting) : Decidable (Hashed w item) := inferInstanceAs (Decidable (_ = _))

open Classical in
noncomputable def wanted (goal : Set Digest) (item : Waiting) : Bool := decide (item.digest ∈ goal)

theorem wanted_iff : wanted goal item = true ↔ item.digest ∈ goal := by
  unfold wanted
  simp

-- What one stretch of puts does to the items it is given: what is left waits, every
-- other went in or was reported.
structure Pass (w : World) (v : Volume) (root : Path) (repo : RepoName) (c : Content) (goal : Set Digest)
    (items : List Waiting) (imported : Set Digest) (j : Importing) (more : Set Digest) (j' : Importing) (still : List Waiting) :
    Prop where
  holds : Holds w.toReading v root repo c more j'.store.toContent
  grows : imported ⊆ more
  within : more ⊆ goal
  hashed : ∀ item ∈ still,Hashed w item
  past : ∀ item ∈ items,Hashed w item → item ∈ still ∨ item.digest ∈ more
  outside : still.filter (fun item => !wanted goal item) =
    items.filter fun item => decide (Hashed w item) && !wanted goal item
  counted : j'.report.manifests + still.countP (wanted goal) =
    j.report.manifests + items.countP fun item => decide (Hashed w item) && wanted goal item
  problems : j'.report.problems = j.report.problems ++ (items.filter fun item => !decide (Hashed w item)).map (mismatch repo)

theorem Pass.none (holds : Holds w.toReading v root repo c imported j.store.toContent)
    (within : imported ⊆ goal) : Pass w v root repo c goal [] imported j imported j [] where
  holds := holds
  grows := Set.Subset.refl _
  within := within
  hashed _ member := by cases member
  past _ member := by cases member
  outside := rfl
  counted := rfl
  problems := (append_nil _).symm

variable {imported more final : Set Digest}

theorem Pass.append (first : Pass w v root repo c goal items imported j more j' still)
    (second : Pass w v root repo c goal others more j' final j'' last) :
    Pass w v root repo c goal (items ++ others) imported j final j'' (still ++ last) where
  holds := second.holds
  grows := first.grows.trans second.grows
  within := second.within
  hashed item member := (mem_append.mp member).elim (first.hashed item) (second.hashed item)
  past item member hashed := by
    rcases mem_append.mp member with before | after
    · exact (first.past item before hashed).imp (mem_append_left _) fun inside => second.grows inside
    · exact (second.past item after hashed).imp_left (mem_append_right _)
  outside := by rw [filter_append,filter_append,first.outside,second.outside]
  counted := by
    have left := first.counted
    have right := second.counted
    rw [countP_append,countP_append]
    omega
  problems := by rw [second.problems,first.problems,filter_append,map_append,append_assoc]

theorem Pass.again (first : Pass w v root repo c goal items imported j more j' still)
    (second : Pass w v root repo c goal still more j' final j'' last) :
    Pass w v root repo c goal items imported j final j'' last where
  holds := second.holds
  grows := first.grows.trans second.grows
  within := second.within
  hashed := second.hashed
  past item member hashed := by
    rcases first.past item member hashed with left | inside
    · exact second.past item left hashed
    · exact .inr (second.grows inside)
  outside := by
    rw [second.outside,←first.outside]
    refine filter_congr fun item member => ?_
    rw [decide_eq_true (first.hashed item member),Bool.true_and]
  counted := by
    have all : still.countP (fun item => decide (Hashed w item) && wanted goal item) = still.countP (wanted goal) := by
      refine countP_congr fun item member => ?_
      rw [decide_eq_true (first.hashed item member),Bool.true_and]
    have left := first.counted
    have right := second.counted
    rw [all] at right
    omega
  problems := by
    have clean : still.filter (fun item => !decide (Hashed w item)) = [] := by
      refine filter_eq_nil_iff.mpr fun item member => ?_
      rw [decide_eq_true (first.hashed item member)]
      decide
    rw [second.problems,first.problems,clean,map_nil,append_nil]

variable {revisions : List Digest}

-- A put does one of three things: the bytes are refused, the item waits, it goes in.
theorem put_results (w : World) (repo : RepoName) (item : Waiting) (j : Importing) (still : List Waiting) : ∃ next left,
    put w repo (j,still) item = .ok (next,still ++ left) ∧
      ((¬Hashed w item ∧ left = [] ∧ next.store.toContent = j.store.toContent ∧
          next.report = {j.report with problems := j.report.problems ++ [mismatch repo item]}) ∨
        (Hashed w item ∧ (∃ needed ∈ item.plan.mustExist,¬j.store.LinkedUnder repo needed) ∧ left = [item] ∧
          next.store.toContent = j.store.toContent ∧ next.report = j.report) ∨
        (Hashed w item ∧ (∀ needed ∈ item.plan.mustExist,j.store.LinkedUnder repo needed) ∧ left = [] ∧
          next.store.toContent = j.store.manifestStored w.crates repo item.digest item.mediaType item.bytes item.plan ∧
          next.report = {j.report with manifests := j.report.manifests+1})) := by
  unfold put
  dsimp only
  by_cases hashed : Hashed w item
  · rcases put_answers w.crates j.store repo item.digest item.mediaType item.bytes item.plan with
      ⟨unhashed,-⟩ | ⟨missing,-,answer⟩ | ⟨-,complete,ok,content⟩
    · exact absurd hashed unhashed
    · rw [answer]
      exact ⟨_,[item],rfl,.inr (.inl ⟨hashed,missing,rfl,rfl,rfl⟩)⟩
    · cases answer : OciStore.manifestPut w.crates j.store repo (.digest item.digest) item.mediaType item.bytes item.plan with
      | mk result s =>
        rw [answer] at ok content; cases ok
        exact ⟨_,[],by rw [append_nil],.inr (.inr ⟨hashed,complete,rfl,content,rfl⟩)⟩
  · rcases put_answers w.crates j.store repo item.digest item.mediaType item.bytes item.plan with
      ⟨-,answer⟩ | ⟨missing,-,answer⟩ | ⟨same,-⟩
    · rw [answer]
      refine ⟨(j.wrote j.store).problem repo .mismatch item.data ("the bytes do not hash to ".toList ++ item.digest.asStr),[],?_,
        .inl ⟨hashed,rfl,rfl,rfl⟩⟩
      rw [append_nil]
    · -- The hash is checked before the references.
      have address : putDigest w.crates (.digest item.digest) item.bytes = .error (.digestMismatch item.digest.asStr) := if_pos hashed
      unfold OciStore.manifestPut at answer
      rw [address] at answer
      cases answer
    · exact absurd same hashed

theorem put_pass {item : Waiting} (read : Read w v root item) (listed : item.digest ∈ revisions)
    (unlinked : ¬c.LinkedUnder repo item.digest) {imported : Set Digest} {j : Importing} {still : List Waiting}
    (holds : Holds w.toReading v root repo c imported j.store.toContent)
    (within : imported ⊆ imports w.toReading v root repo c revisions) :
    ∃ more j' left,put w repo (j,still) item = .ok (j',still ++ left) ∧
      Pass w v root repo c (imports w.toReading v root repo c revisions) [item] imported j more j' left ∧
      (left = [] ∨ left = [item] ∧ more = imported ∧ ¬Ready w.toReading v root repo c imported item.digest) := by
  obtain ⟨next,left,ran,results⟩ := put_results w repo item j still
  rcases results with ⟨unhashed,rfl,content,report⟩ | ⟨hashed,⟨needed,member,missing⟩,rfl,content,report⟩ |
    ⟨hashed,complete,rfl,content,report⟩
  · refine ⟨imported,next,[],ran,⟨content ▸ holds,Set.Subset.refl _,within,(fun _ none => by cases none),?_,?_,?_,?_⟩,.inl rfl⟩
    · intro other only same
      rw [mem_singleton.mp only] at same
      exact absurd same unhashed
    · simp [unhashed]
    · simp [unhashed,report]
    · simp [unhashed,report]
  · have stuck : ¬Ready w.toReading v root repo c imported item.digest :=
      fun ready => missing ((holds.ready read hashed).mp ready needed member)
    refine ⟨imported,next,[item],ran,⟨content ▸ holds,Set.Subset.refl _,within,?_,fun _ only _ => .inl only,?_,?_,?_⟩,
      .inr ⟨rfl,rfl,stuck⟩⟩
    · intro other only
      rw [mem_singleton.mp only]
      exact hashed
    · refine filter_congr fun other only => ?_
      rw [mem_singleton.mp only,decide_eq_true hashed,Bool.true_and]
    · rw [report]
      refine congrArg _ (countP_congr fun other only => ?_)
      rw [mem_singleton.mp only,decide_eq_true hashed,Bool.true_and]
    · simp [hashed,report]
  · have ready : Ready w.toReading v root repo c imported item.digest := (holds.ready read hashed).mpr complete
    have inside : item.digest ∈ imports w.toReading v root repo c revisions :=
      imports_iff.mpr ⟨listed,unlinked,ready.mono within⟩
    have due : wanted (imports w.toReading v root repo c revisions) item = true := wanted_iff.mpr inside
    refine ⟨insert item.digest imported,next,[],ran,⟨holds.put read content,Set.subset_insert _ _,
      Set.insert_subset inside within,(fun _ none => by cases none),?_,?_,?_,?_⟩,.inl rfl⟩
    · intro other only _
      rw [mem_singleton.mp only]
      exact .inr (Set.mem_insert _ _)
    · simp [hashed,due]
    · simp [hashed,due,report]
    · simp [hashed,report]

-- A pass over items of the tree. One in which all are left changed nothing, and none
-- of them is ready.
theorem items_pass (items : List Waiting) (read : ∀ item ∈ items,Read w v root item) (listed : ∀ item ∈ items,item.digest ∈ revisions)
    (unlinked : ∀ item ∈ items,¬c.LinkedUnder repo item.digest) {imported : Set Digest} {j : Importing} {still : List Waiting}
    (holds : Holds w.toReading v root repo c imported j.store.toContent)
    (within : imported ⊆ imports w.toReading v root repo c revisions) :
    ∃ more j' left,items.foldlM (put w repo) (j,still) = .ok (j',still ++ left) ∧
      Pass w v root repo c (imports w.toReading v root repo c revisions) items imported j more j' left ∧
      left.Sublist items ∧ (left.length = items.length → more = imported ∧
        ∀ item ∈ items,¬Ready w.toReading v root repo c imported item.digest) := by
  induction items generalizing imported j still with
  | nil => exact ⟨imported,j,[],by rw [append_nil]; rfl,.none holds within,.slnil,fun _ => ⟨rfl,fun _ none => by cases none⟩⟩
  | cons item rest ih =>
    obtain ⟨readFirst,readRest⟩ := forall_mem_cons.mp read
    obtain ⟨listedFirst,listedRest⟩ := forall_mem_cons.mp listed
    obtain ⟨unlinkedFirst,unlinkedRest⟩ := forall_mem_cons.mp unlinked
    obtain ⟨middle,j₁,first,ran,pass,either⟩ := @put_pass w v root repo c revisions item readFirst listedFirst unlinkedFirst
      imported j still holds within
    obtain ⟨more,j₂,others,ranRest,passRest,sub,idle⟩ := @ih readRest listedRest unlinkedRest middle j₁ (still ++ first)
      pass.holds pass.within
    refine ⟨more,j₂,first ++ others,?_,pass.append passRest,?_,fun all => ?_⟩
    · rw [foldlM_cons,ran]
      show rest.foldlM (put w repo) (j₁,still ++ first) = _
      rw [ranRest,append_assoc]
    · rcases either with rfl | ⟨rfl,-⟩
      · exact sub.cons item
      · exact sub.cons_cons item
    · have short := sub.length_le
      rcases either with rfl | ⟨rfl,rfl,stuck⟩
      · simp only [nil_append,length_cons] at all; omega
      · simp only [singleton_append,length_cons,Nat.add_right_cancel_iff] at all
        obtain ⟨same,none⟩ := idle all
        exact ⟨same,forall_mem_cons.mpr ⟨stuck,none⟩⟩

theorem passes_pass (turns : Nat) (items : List Waiting) (enough : items.length < turns)
    (read : ∀ item ∈ items,Read w v root item) (listed : ∀ item ∈ items,item.digest ∈ revisions)
    (unlinked : ∀ item ∈ items,¬c.LinkedUnder repo item.digest) {imported : Set Digest} {j : Importing}
    (holds : Holds w.toReading v root repo c imported j.store.toContent)
    (within : imported ⊆ imports w.toReading v root repo c revisions) :
    ∃ more j' rest,passes w repo turns items j = .ok (j',rest) ∧
      Pass w v root repo c (imports w.toReading v root repo c revisions) items imported j more j' rest ∧
      ∀ item ∈ rest,¬Ready w.toReading v root repo c more item.digest := by
  induction turns generalizing items imported j with
  | zero => omega
  | succ turns ih =>
    obtain ⟨more,j₁,still,ran,pass,sub,idle⟩ := @items_pass w v root repo c revisions items read listed unlinked imported j []
      holds within
    rw [nil_append] at ran
    have goes : passes w repo (turns+1) items j =
        if still = [] ∨ still.length = items.length then .ok (j₁,still) else passes w repo turns still j₁ := by
      rw [passes,ran]
      rfl
    rw [goes]
    split
    · rename_i ends
      refine ⟨more,j₁,still,rfl,pass,fun item member => ?_⟩
      rcases ends with nothing | all
      · rw [nothing] at member; cases member
      · obtain ⟨rfl,stuck⟩ := idle all
        exact stuck item (sub.subset member)
    · rename_i goesOn
      have fewer : still.length < turns := by
        have differs : still.length ≠ items.length := fun same => goesOn (.inr same)
        have bound := sub.length_le
        omega
      obtain ⟨final,j₂,rest,ranRest,passRest,stuck⟩ := ih still fewer (fun item member => read item (sub.subset member))
        (fun item member => listed item (sub.subset member)) (fun item member => unlinked item (sub.subset member))
        pass.holds pass.within
      exact ⟨final,j₂,rest,ranRest,pass.again passRest,stuck⟩

end Pass

section Outcome
variable (w : World) (v : Volume) (root : Path) (repo : RepoName)

def seen (c : Content) (found : Except Str Digest × Path) : Option ImportProblem :=
  match found.1 with
  | .error detail => some ⟨.unreadable,repo.text,found.2,detail⟩
  | .ok digest =>
    if isOk (c.requireLink repo digest) then none
    else match readManifest v (blobData root digest) with
      | .ok none => some ⟨.missing,repo.text,blobData root digest,
          "manifest ".toList ++ digest.asStr ++ " is linked but not held".toList⟩
      | .error detail => some ⟨.unreadable,repo.text,blobData root digest,detail⟩
      | .ok (some bytes) => match w.plan (storedMediaType w.crates bytes) bytes with
        | .ok _ => none
        | .error detail => some ⟨.refused,repo.text,blobData root digest,detail⟩

def refused (s : Content) (item : Waiting) : ImportProblem :=
  ⟨.refused,repo.text,item.data,"manifest ".toList ++ item.digest.asStr ++ " names what this repository does not hold: ".toList ++
    ", ".toList.intercalate ((item.plan.mustExist.filter fun needed => !isOk (s.requireLink repo needed)).map Digest.asStr)⟩

def Importing.report' (j : Importing) (problems : List ImportProblem) : Importing :=
  {j with report := {j.report with problems := j.report.problems ++ problems}}

def revised (found : List (Except Str Digest × Path)) (j : Importing) : Except OciStoreError Importing := do
  let (j,waiting) := found.foldl (revision w v root repo) (j,[])
  let (j,waiting) ← passes w repo (waiting.length+1) waiting j
  return waiting.foldl (refusal repo) j

variable {w v root repo}

open Importing

theorem revision_seen (acc : Importing × List Waiting) (item : Except Str Digest × Path) :
    revision w v root repo acc item = (acc.1.report' (seen w v root repo acc.1.store.toContent item).toList,
      acc.2 ++ (waitsFor w v root repo acc.1.store.toContent item).toList) := by
  have nothing (j : Importing) : j.report' [] = j := by
    unfold report'
    rw [append_nil]
  unfold revision seen waitsFor planned
  cases item.1 with
  | error detail => simp only [toList_none,append_nil]; rfl
  | ok digest =>
    dsimp only
    split
    · simp only [toList_none,append_nil,nothing]
    · cases readManifest v (blobData root digest) with
      | error detail => simp only [map_none,toList_none,append_nil]; rfl
      | ok held => cases held with
        | none => simp only [map_none,toList_none,append_nil]; rfl
        | some bytes =>
          dsimp only
          cases w.plan (storedMediaType w.crates bytes) bytes with
          | error detail => simp only [map_none,toList_none,append_nil]; rfl
          | ok plan => simp only [map_some,toList_none,toList_some,nothing]

theorem revisions_seen (found : List (Except Str Digest × Path)) (j : Importing) (waiting : List Waiting) :
    found.foldl (revision w v root repo) (j,waiting) =
      (j.report' (found.filterMap (seen w v root repo j.store.toContent)),
        waiting ++ found.filterMap (waitsFor w v root repo j.store.toContent)) := by
  induction found generalizing j waiting with
  | nil => simp [report']
  | cons item rest ih =>
    rw [foldl_cons,revision_seen,ih]
    cases first : seen w v root repo j.store.toContent item <;>
      cases second : waitsFor w v root repo j.store.toContent item <;>
      simp [first,second,report']

theorem refusals_reported (items : List Waiting) (j : Importing) :
    items.foldl (refusal repo) j = j.report' (items.map (refused repo j.store.toContent)) := by
  induction items generalizing j with
  | nil => simp [report']
  | cons item rest ih => rw [foldl_cons,ih]; simp [report',refusal,refused,Importing.problem]

variable {found : List (Except Str Digest × Path)}

theorem mem_waits
    (member : item ∈ found.filterMap (waitsFor w v root repo c)) : Read w v root item ∧ ¬c.LinkedUnder repo item.digest ∧
      item.digest ∈ found.filterMap (fun link => link.1.toOption) ∧ item.data = blobData root item.digest := by
  obtain ⟨link,there,waits⟩ := mem_filterMap.mp member
  unfold waitsFor at waits
  split at waits
  · cases waits
  · rename_i digest ok
    split at waits
    · cases waits
    · rename_i unlinked
      obtain ⟨plan,read,rfl⟩ := map_eq_some_iff.mp waits
      exact ⟨read,mt isOk_requireLink.mpr unlinked,mem_filterMap.mpr ⟨link,there,by rw [ok]; rfl⟩,rfl⟩

theorem waits_of_planned (listed : digest ∈ found.filterMap fun link => link.1.toOption)
    (unlinked : ¬c.LinkedUnder repo digest) (read : planned w.toReading v root digest = some plan) :
    (⟨digest,blobData root digest,plan.1,plan.2.1,plan.2.2⟩ : Waiting) ∈ found.filterMap (waitsFor w v root repo c) := by
  obtain ⟨link,there,ok⟩ := mem_filterMap.mp listed
  refine mem_filterMap.mpr ⟨link,there,?_⟩
  unfold waitsFor
  rw [ok_of_toOption ok]
  dsimp only
  rw [if_neg (mt isOk_requireLink.mp unlinked),read,map_some]

-- What an import of the manifests does, in full: the store holds the fixpoint, and
-- the report counts it and names each other revision.
theorem revised_outcome (found : List (Except Str Digest × Path)) (j : Importing) :
    let c := j.store.toContent
    let goal := imports w.toReading v root repo c (found.filterMap fun link => link.1.toOption)
    let waiting := found.filterMap (waitsFor w v root repo c)
    ∃ j',revised w v root repo found j = .ok j' ∧ Holds w.toReading v root repo c goal j'.store.toContent ∧
      j'.report.manifests = j.report.manifests + waiting.countP (fun item => decide (Hashed w item) && wanted goal item) ∧
      j'.report.problems = j.report.problems ++ found.filterMap (seen w v root repo c) ++
        (waiting.filter fun item => !decide (Hashed w item)).map (mismatch repo) ++
        (waiting.filter fun item => decide (Hashed w item) && !wanted goal item).map (refused repo j'.store.toContent) := by
  intro c goal waiting
  have items (item : Waiting) (member : item ∈ waiting) := mem_waits member
  obtain ⟨more,j₁,rest,ran,pass,stuck⟩ := @passes_pass w v root repo c
    (found.filterMap fun link => link.1.toOption) (waiting.length+1) waiting (Nat.lt_succ_self _)
    (fun item member => (items item member).1) (fun item member => (items item member).2.2.1)
    (fun item member => (items item member).2.1) ∅ (j.report' (found.filterMap (seen w v root repo c))) .start (Set.empty_subset _)
  have whole : more = goal := by
    refine Set.Subset.antisymm pass.within (imports_least fun digest listed unlinked ready => ?_)
    obtain ⟨plan,read,hashed,-⟩ := id ready
    rcases pass.past _ (waits_of_planned listed unlinked read) hashed with left | inside
    · exact absurd ready (stuck _ left)
    · exact inside
  subst whole
  have left (item : Waiting) (member : item ∈ rest) : wanted goal item = false := by
    by_contra due
    exact stuck item member (imports_iff.mp (wanted_iff.mp (Bool.eq_true_of_not_eq_false due))).2.2
  have none : rest.countP (wanted goal) = 0 := countP_eq_zero.mpr fun item member => by simp [left item member]
  have same : rest = waiting.filter fun item => decide (Hashed w item) && !wanted goal item := by
    rw [←pass.outside]
    exact (filter_eq_self.mpr fun item member => by rw [left item member]; rfl).symm
  refine ⟨j₁.report' (rest.map (refused repo j₁.store.toContent)),?_,pass.holds,?_,?_⟩
  · unfold revised
    rw [revisions_seen,nil_append]
    show (passes w repo (waiting.length+1) waiting (j.report' (found.filterMap (seen w v root repo c))) >>= fun out => _) = _
    rw [ran]
    exact congrArg Except.ok (refusals_reported rest j₁)
  · have counted := pass.counted
    rw [none,Nat.add_zero] at counted
    exact counted
  · show j₁.report.problems ++ _ = _
    rw [pass.problems,←same]
    rfl

theorem imports_perm {c : Content} {revisions others : List Digest} (same : revisions.Perm others) :
    imports w.toReading v root repo c revisions = imports w.toReading v root repo c others := by
  have equal : step w.toReading v root repo c revisions = step w.toReading v root repo c others := by
    refine OrderHom.ext _ _ (funext fun imported => Set.ext fun digest => ?_)
    show digest ∈ revisions ∧ _ ↔ digest ∈ others ∧ _
    rw [same.mem_iff]
  unfold imports
  rw [equal]

def ManifestLinked (c : Content) (repo : RepoName) (digest : Digest) : Prop :=
  ∃ link,c.linkGet repo digest = some link ∧ link.kind ≠ .blob

theorem Holds.manifest {c s : Content} {imported : Set Digest} (holds : Holds w.toReading v root repo c imported s)
    {digest : Digest} (unlinked : ¬c.LinkedUnder repo digest) : ManifestLinked s repo digest ↔ digest ∈ imported := by
  constructor
  · rintro ⟨link,held,-⟩
    have linked : s.Linked repo digest := by
      unfold Content.Linked
      rw [held]
      rfl
    exact (holds.linked.mp linked).resolve_left fun before => unlinked (.inl before)
  · intro member
    obtain ⟨plan,read⟩ := isSome_iff_exists.mp (holds.planned digest member)
    refine ⟨Link.durable ⟨plan.2.2.kind,some plan.1⟩,?_,plan.2.2.not_blob⟩
    rw [holds.inside digest member]
    unfold linkOf
    rw [read]
    rfl

theorem reported {c s : Content} {goal : Set Digest} {link : Except Str Digest × Path}
    (member : link ∈ found) (missed : ∀ digest,link.1 = .ok digest → ¬c.LinkedUnder repo digest ∧ digest ∉ goal) :
    ∃ problem ∈ found.filterMap (seen w v root repo c) ++
        ((found.filterMap (waitsFor w v root repo c)).filter fun item => !decide (Hashed w item)).map (mismatch repo) ++
        ((found.filterMap (waitsFor w v root repo c)).filter fun item => decide (Hashed w item) && !wanted goal item).map
          (refused repo s),
      problem.repository = repo.text ∧ (problem.path = link.2 ∨ ∃ digest,link.1 = .ok digest ∧ problem.path = blobData root digest) := by
  have shown (problem : ImportProblem) (known : seen w v root repo c link = some problem) :
      problem ∈ found.filterMap (seen w v root repo c) := mem_filterMap.mpr ⟨link,member,known⟩
  obtain ⟨answer,path⟩ := link
  cases answer with
  | error detail => exact ⟨_,mem_append_left _ (mem_append_left _ (shown _ rfl)),rfl,.inl rfl⟩
  | ok digest =>
    obtain ⟨unlinked,outside⟩ := missed digest rfl
    have fresh := mt isOk_requireLink.mp unlinked
    cases held : readManifest v (blobData root digest) with
    | error detail =>
      refine ⟨⟨.unreadable,repo.text,blobData root digest,detail⟩,
        mem_append_left _ (mem_append_left _ (shown _ ?_)),rfl,.inr ⟨digest,rfl,rfl⟩⟩
      simp only [seen,if_neg fresh,held]
    | ok bytes => cases bytes with
      | none =>
        refine ⟨⟨.missing,repo.text,blobData root digest,"manifest ".toList ++ digest.asStr ++ " is linked but not held".toList⟩,
          mem_append_left _ (mem_append_left _ (shown _ ?_)),rfl,.inr ⟨digest,rfl,rfl⟩⟩
        simp only [seen,if_neg fresh,held]
      | some bytes => cases planned' : w.plan (storedMediaType w.crates bytes) bytes with
        | error detail =>
          refine ⟨⟨.refused,repo.text,blobData root digest,detail⟩,
            mem_append_left _ (mem_append_left _ (shown _ ?_)),rfl,.inr ⟨digest,rfl,rfl⟩⟩
          simp only [seen,if_neg fresh,held,planned']
        | ok plan =>
          have read : planned w.toReading v root digest = some (plan.1,bytes,plan.2) := by
            unfold planned; simp only [held,planned']
          have waits := waits_of_planned (mem_filterMap.mpr ⟨_,member,rfl⟩) unlinked read
          by_cases hashed : w.crates.digestOf digest.algorithm bytes = digest
          · refine ⟨_,mem_append_right _ (mem_map.mpr ⟨_,mem_filter.mpr ⟨waits,?_⟩,rfl⟩),rfl,
              .inr ⟨digest,rfl,rfl⟩⟩
            rw [Bool.and_eq_true,decide_eq_true_iff,Bool.not_eq_true']
            exact ⟨hashed,Bool.eq_false_iff.mpr fun due => outside (wanted_iff.mp due)⟩
          · refine ⟨_,mem_append_left _ (mem_append_right _ (mem_map.mpr
              ⟨_,mem_filter.mpr ⟨waits,?_⟩,rfl⟩)),rfl,.inr ⟨digest,rfl,rfl⟩⟩
            rw [Bool.not_eq_true',decide_eq_false_iff_not]; exact hashed

variable {imported : Set Digest}

theorem refused_same {c s after : Content} (left : Holds w.toReading v root repo c imported s)
    (right : Holds w.toReading v root repo c imported after) : refused repo s = refused repo after := by
  have present (needed : Digest) : isOk (s.requireLink repo needed) = isOk (after.requireLink repo needed) := by
    rw [Bool.eq_iff_iff,isOk_requireLink,isOk_requireLink,left.present,right.present]
  unfold refused
  simp only [present]

theorem Holds.same_links {c s after : Content} (left : Holds w.toReading v root repo c imported s)
    (right : Holds w.toReading v root repo c imported after) : s.links = after.links := by
  refine ExtTreeMap.ext_getElem? fun key => ?_
  show s.linkGet key.1 key.2 = after.linkGet key.1 key.2
  by_cases inside : key.1 = repo ∧ key.2 ∈ imported
  · rw [inside.1,left.inside _ inside.2,right.inside _ inside.2]
  · rw [left.outside _ _ inside,right.outside _ _ inside]

-- An import of a repository's manifests computes the least fixpoint, reports every
-- revision it did not link, and does both in any order of the revisions.
theorem manifests_fixpoint (w : World) (v : Volume) (root : Path) (repo : RepoName) (j : Importing) :
    let found := linksUnder v (repoDir root repo.text ++ [manifestsDir,"revisions".toList])
    let c := j.store.toContent
    ∃ j' problems,manifests w v root repo j = .ok j' ∧ j'.report.problems = j.report.problems ++ problems ∧
      let imported := {digest | digest ∈ revisionDigests v root repo ∧ ¬c.LinkedUnder repo digest ∧
        ManifestLinked j'.store.toContent repo digest}
      imported = (step w.toReading v root repo c (revisionDigests v root repo)).lfp ∧
      (∀ digest ∈ revisionDigests v root repo,¬c.LinkedUnder repo digest →
        (ManifestLinked j'.store.toContent repo digest ↔ Ready w.toReading v root repo c imported digest)) ∧
      (∀ link ∈ found,(∀ digest,link.1 = .ok digest →
          ¬c.LinkedUnder repo digest ∧ ¬ManifestLinked j'.store.toContent repo digest) →
        ∃ problem ∈ problems,problem.repository = repo.text ∧
          (problem.path = link.2 ∨ ∃ digest,link.1 = .ok digest ∧ problem.path = blobData root digest)) ∧
      ∀ order,order.Perm found → ∃ j'' others,revised w v root repo order j = .ok j'' ∧
        j''.report.problems = j.report.problems ++ others ∧ others.Perm problems ∧
        j''.report.manifests = j'.report.manifests ∧ j''.store.links = j'.store.links ∧ j''.store.tags = j'.store.tags := by
  intro found c
  have same : found.filterMap (fun link => link.1.toOption) = revisionDigests v root repo := rfl
  obtain ⟨j',ran,holds,counted,problems⟩ := @revised_outcome w v root repo found j
  rw [same] at holds counted problems
  have imported : {digest | digest ∈ revisionDigests v root repo ∧ ¬c.LinkedUnder repo digest ∧
      ManifestLinked j'.store.toContent repo digest} = imports w.toReading v root repo c (revisionDigests v root repo) := by
    refine Set.ext fun digest => ⟨fun ⟨_,unlinked,linked⟩ => (holds.manifest unlinked).mp linked,fun member => ?_⟩
    obtain ⟨listed,unlinked,_⟩ := imports_iff.mp member
    exact ⟨listed,unlinked,(holds.manifest unlinked).mpr member⟩
  refine ⟨j',_,ran,by rw [problems,append_assoc,append_assoc],imported,fun digest listed unlinked => ?_,
    fun link member missed => ?_,fun order perm => ?_⟩
  · rw [imported,holds.manifest unlinked]
    exact ⟨fun member => (imports_iff.mp member).2.2,fun ready => imports_iff.mpr ⟨listed,unlinked,ready⟩⟩
  · rw [←append_assoc]
    refine reported member fun digest ok => ?_
    obtain ⟨unlinked,unserved⟩ := missed digest ok
    exact ⟨unlinked,fun member => unserved ((holds.manifest unlinked).mpr member)⟩
  · obtain ⟨j'',ran',holds',counted',problems'⟩ := @revised_outcome w v root repo order j
    have goals := @imports_perm w v root repo c _ _ (perm.filterMap fun link => link.1.toOption)
    rw [same] at goals
    rw [goals] at holds' counted' problems'
    have waiting := perm.filterMap (waitsFor w v root repo c)
    refine ⟨j'',_,ran',by rw [problems',append_assoc,append_assoc],?_,?_,holds'.same_links holds,
      holds'.rest.trans holds.rest.symm⟩
    · rw [refused_same holds' holds]
      exact (perm.filterMap _).append (((waiting.filter _).map _).append ((waiting.filter _).map _))
    · rw [counted',counted,waiting.countP_eq]

end Outcome

namespace Sample
open HologramLive.Sample

def plainName : Digest := name .sha256 plainManifest
def linkIn (dir : Path) : List (Path × Node) := [(dir,Node.dir),(dir ++ ["sha256".toList],Node.dir),
  (dir ++ ["sha256".toList,plainName.hex],Node.dir),
  (dir ++ ["sha256".toList,plainName.hex,"link".toList],Node.file (toUtf8 plainName.asStr))]
def oneRevision (data : Bytes) (more : List (Path × Node)) : Volume :=
  ([(v2 source ++ ["blobs".toList],Node.dir),(appDir.dropLast,Node.dir),(appDir,Node.dir),(appDir ++ [manifestsDir],Node.dir),
      (blobData (v2 source) plainName,Node.file data)] ++ linkIn revisionsDir ++ more).foldl (fun v row => v.insert row.1 row.2) ∅
def asLayer : Volume := oneRevision plainManifest (linkIn (appDir ++ [layersDir]))
def overLayer : Volume := oneRevision HologramLive.Sample.layer []

-- An accepted revision that names nothing is not linked as a manifest after the import.
def unserved (v : Volume) (silent : Bool) : Bool :=
  (revisionDigests v (v2 source) app).contains plainName &&
  ((planned world.toReading v (v2 source) plainName).any fun plan => plan.2.2.mustExist.isEmpty) &&
  («import» world v source .created).toOption.any fun j =>
    (j.store.linkGet app plainName).all (fun link => link.kind = .blob) && (!silent || j.report.problems.isEmpty)

theorem unserved_import (shown : unserved v silent = true) : (plainName ∈ revisionDigests v (v2 source) app ∧
      ∃ plan,planned world.toReading v (v2 source) plainName = some plan ∧ plan.2.2.mustExist = []) ∧
    ∃ j,«import» world v source .created = .ok j ∧ ¬ManifestLinked j.store.toContent app plainName ∧
      (silent = true → j.report.problems = []) := by
  unfold unserved at shown
  simp only [Bool.and_eq_true] at shown
  obtain ⟨⟨listed,accepted⟩,ended⟩ := shown
  obtain ⟨plan,read,nothing⟩ := (any_eq_true _ _).mp accepted
  obtain ⟨j,ran,unlinked⟩ := (any_eq_true _ _).mp ended
  obtain ⟨blob,quiet⟩ := Bool.and_eq_true_iff.mp unlinked
  refine ⟨⟨contains_iff_mem.mp listed,plan,read,isEmpty_iff.mp nothing⟩,j,ok_of_toOption ran,?_,fun asked => ?_⟩
  · rintro ⟨link,held,kind⟩
    rw [held,all_some,decide_eq_true_iff] at blob
    exact kind blob
  · rw [asked] at quiet
    exact isEmpty_iff.mp quiet

-- A revision that is a layer link too is skipped in silence, and one whose bytes hash
-- to another digest is refused though it is accepted and lacks nothing.
theorem revision_not_imported : ((plainName ∈ revisionDigests asLayer (v2 source) app ∧
        ∃ plan,planned world.toReading asLayer (v2 source) plainName = some plan ∧ plan.2.2.mustExist = []) ∧
      ∃ j,«import» world asLayer source .created = .ok j ∧ ¬ManifestLinked j.store.toContent app plainName ∧
        j.report.problems = []) ∧ ((plainName ∈ revisionDigests overLayer (v2 source) app ∧
        ∃ plan,planned world.toReading overLayer (v2 source) plainName = some plan ∧ plan.2.2.mustExist = []) ∧
      ∃ j,«import» world overLayer source .created = .ok j ∧ ¬ManifestLinked j.store.toContent app plainName) := by
  have skipped : unserved asLayer true = true := by decide +kernel
  have torn : unserved overLayer false = true := by decide +kernel
  obtain ⟨accepted,j,ran,unlinked,silent⟩ := unserved_import skipped
  obtain ⟨accepted',j',ran',unlinked',-⟩ := unserved_import torn
  exact ⟨⟨accepted,j,ran,unlinked,silent rfl⟩,accepted',j',ran',unlinked'⟩

end Sample
end HologramLive.Import
