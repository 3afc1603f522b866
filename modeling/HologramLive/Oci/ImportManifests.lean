import HologramLive.Oci.ImportLayers
namespace HologramLive.Import
open Tables Fallible OciStore Content List

section Waiting
variable {w : World} {v : Volume} {root : Path} {repo : RepoName}

def waitsFor (w : World) (v : Volume) (root : Path) (repo : RepoName) (c : Content) (found : Except Str Digest × Path) :
    Option Waiting :=
  match found.1 with
  | .error _ => none
  | .ok digest =>
    if isOk (c.requireLink repo digest) then none
    else (planned w.toReading v root digest).map fun plan => ⟨digest,blobData root digest,plan.1,plan.2.1,plan.2.2⟩

theorem revision_waits (acc : Importing × List Waiting) (item : Except Str Digest × Path) :
    (revision w v root repo acc item).1.store = acc.1.store ∧ (revision w v root repo acc item).1.past = acc.1.past ∧
      (revision w v root repo acc item).2 = acc.2 ++ (waitsFor w v root repo acc.1.store.toContent item).toList := by
  unfold revision waitsFor planned
  cases item.1 with
  | error detail => exact ⟨rfl,rfl,(append_nil _).symm⟩
  | ok digest =>
    dsimp only
    by_cases linked : isOk (acc.1.store.requireLink repo digest) = true
    · simp only [linked,if_true]
      exact ⟨trivial,trivial,(append_nil _).symm⟩
    · rw [if_neg linked,if_neg linked]
      cases readManifest v (blobData root digest) with
      | error detail => exact ⟨rfl,rfl,(append_nil _).symm⟩
      | ok held => cases held with
        | none => exact ⟨rfl,rfl,(append_nil _).symm⟩
        | some bytes =>
          dsimp only
          cases w.plan (storedMediaType w.crates bytes) bytes with
          | error detail => exact ⟨rfl,rfl,(append_nil _).symm⟩
          | ok plan => exact ⟨rfl,rfl,rfl⟩

theorem revisions_wait (items : List (Except Str Digest × Path)) (acc : Importing × List Waiting) :
    (items.foldl (revision w v root repo) acc).1.store = acc.1.store ∧
      (items.foldl (revision w v root repo) acc).1.past = acc.1.past ∧ (items.foldl (revision w v root repo) acc).2 =
        acc.2 ++ items.filterMap (waitsFor w v root repo acc.1.store.toContent) := by
  induction items generalizing acc with
  | nil => exact ⟨rfl,rfl,(append_nil _).symm⟩
  | cons item rest ih =>
    obtain ⟨store,past,waiting⟩ := @revision_waits w v root repo acc item
    obtain ⟨store',past',waiting'⟩ := ih (revision w v root repo acc item)
    rw [foldl_cons]
    refine ⟨store'.trans store,past'.trans past,?_⟩
    rw [waiting',waiting,store,filterMap_cons,append_assoc]
    cases waitsFor w v root repo acc.1.store.toContent item <;> rfl

structure Revised (w : World) (v : Volume) (root : Path) (repo : RepoName) (item : Waiting) : Prop where
  listed : item.digest ∈ revisionDigests v root repo
  planned : planned w.toReading v root item.digest = some (item.mediaType,item.bytes,item.plan)

theorem mem_waiting :
    item ∈ (linksUnder v (repoDir root repo.text ++ [manifestsDir,"revisions".toList])).filterMap (waitsFor w v root repo c) ↔
      Revised w v root repo item ∧ ¬c.LinkedUnder repo item.digest ∧ item.data = blobData root item.digest := by
  constructor
  · intro member
    obtain ⟨link,there,waits⟩ := mem_filterMap.mp member
    unfold waitsFor at waits
    split at waits
    · cases waits
    · rename_i digest ok
      split at waits
      · cases waits
      · rename_i unlinked
        obtain ⟨plan,read,rfl⟩ := Option.map_eq_some_iff.mp waits
        exact ⟨⟨mem_filterMap.mpr ⟨link,there,by rw [ok]; rfl⟩,read⟩,mt isOk_requireLink.mpr unlinked,rfl⟩
  · rintro ⟨⟨listed,read⟩,unlinked,data⟩
    obtain ⟨link,there,ok⟩ := mem_filterMap.mp listed
    refine mem_filterMap.mpr ⟨link,there,?_⟩
    unfold waitsFor
    rw [ok_of_toOption ok]
    dsimp only
    rw [if_neg (mt isOk_requireLink.mp unlinked),read,Option.map_some,←data]

end Waiting

section Put
variable {crates : Crates} {s after : OciStore} {repo : RepoName} {digest : Digest} {mediaType : Str} {bytes : Bytes}
variable {plan : ManifestPlan}

theorem put_answers (crates : Crates) (s : OciStore) (repo : RepoName) (digest : Digest) (mediaType : Str) (bytes : Bytes)
    (plan : ManifestPlan) : (crates.digestOf digest.algorithm bytes ≠ digest ∧
      manifestPut crates s repo (.digest digest) mediaType bytes plan = (.error (.digestMismatch digest.asStr),s)) ∨
    ((∃ needed ∈ plan.mustExist,¬s.LinkedUnder repo needed) ∧ s.missingReferences repo plan.mustExist ≠ [] ∧
      manifestPut crates s repo (.digest digest) mediaType bytes plan =
        (.error (.missingReferences (s.missingReferences repo plan.mustExist)),s)) ∨
    (crates.digestOf digest.algorithm bytes = digest ∧ (∀ needed ∈ plan.mustExist,s.LinkedUnder repo needed) ∧
      (manifestPut crates s repo (.digest digest) mediaType bytes plan).1 = .ok digest ∧
      (manifestPut crates s repo (.digest digest) mediaType bytes plan).2.toContent =
        s.manifestStored crates repo digest mediaType bytes plan) := by
  by_cases hashed : crates.digestOf digest.algorithm bytes = digest
  · have address : putDigest crates (.digest digest) bytes = .ok digest := if_neg (not_not_intro hashed)
    by_cases complete : s.missingReferences repo plan.mustExist = []
    · refine .inr (.inr ⟨hashed,fun needed member => ?_,?_⟩)
      · unfold missingReferences at complete; rw [map_eq_nil_iff,filter_eq_nil_iff] at complete
        by_contra unlinked
        have lacks := complete needed member
        cases found : s.requireLink repo needed with
        | ok _ => exact unlinked (requireLink_ok.mp found)
        | error _ => rw [found] at lacks; exact lacks rfl
      · exact manifestPut_matched crates s repo (.digest digest) mediaType bytes plan address
          (isEmpty_iff.mpr complete)
    · refine .inr (.inl ⟨?_,complete,?_⟩)
      · obtain ⟨text,inside⟩ := exists_mem_of_ne_nil _ complete
        obtain ⟨needed,kept,-⟩ := mem_map.mp inside
        obtain ⟨member,unlinked⟩ := mem_filter.mp kept
        refine ⟨needed,member,fun linked => ?_⟩
        rw [requireLink_ok.mpr linked] at unlinked
        cases unlinked
      · unfold manifestPut; rw [address]
        dsimp only; rw [if_pos (by simpa using complete)]
  · have address : putDigest crates (.digest digest) bytes = .error (.digestMismatch digest.asStr) := if_pos hashed
    refine .inl ⟨hashed,?_⟩
    unfold manifestPut
    rw [address]

theorem putting_between (between : Between w.toReading v root found c₀ c₁ s.toContent) :
    ∀ t ∈ putting w.crates s repo digest bytes plan,Calm w v root c₀ t → Between w.toReading v root found c₀ c₁ t.toContent := by
  intro t member calm
  have placed := blobPut_grows s.toContent digest bytes
  have named := placed.trans (linkAdditional_grows digest (w.crates.additional digest bytes) _)
  unfold putting at member
  split at member
  · cases member
  · simp only [mem_cons,not_mem_nil,or_false] at member
    rcases member with rfl | rfl | rfl
    · exact between.grows calm placed
    · exact between.grows calm named
    · have only := named.only
      refine between.rest calm.steady ?_ ?_ named.kept
      · show ((s.blobPut digest bytes).2.linkAdditional digest (w.crates.additional digest bytes)).links = _
        rw [only]
      · show ((s.blobPut digest bytes).2.linkAdditional digest (w.crates.additional digest bytes)).tags = _
        rw [only]

end Put

section Manifests
variable {w : World} {v : Volume} {root : Path} {found : List Str} {c₀ c₁ : Content} {repo : RepoName}
variable {j j' : Importing} {kept : OciStore → Prop}

-- What is known of a manifest that waits: it is no layer of this tree, and neither
-- the start nor the beginning of this import links it.
structure Pending (w : World) (v : Volume) (root : Path) (c₀ c₁ : Content) (repo : RepoName) (item : Waiting) : Prop where
  revised : Revised w v root repo item
  unlinked : ¬c₀.LinkedUnder repo item.digest
  absent : ¬c₁.Linked repo item.digest
  noLayer : ¬LayerDue w.toReading v root c₀ repo item.digest

def Hashed (w : World) (item : Waiting) : Prop := w.crates.digestOf item.digest.algorithm item.bytes = item.digest

theorem put_stored (named : repo.text ∈ found) (pending : Pending w v root c₀ c₁ repo item)
    (between : Between w.toReading v root found c₀ c₁ j.store.toContent) (calm : Calm w v root c₀ s) (hashed : Hashed w item)
    (complete : ∀ needed ∈ item.plan.mustExist,j.store.LinkedUnder repo needed)
    (content : s.toContent = j.store.manifestStored w.crates repo item.digest item.mediaType item.bytes item.plan) :
    s.Linked repo item.digest ∧ Between w.toReading v root found c₀ c₁ s.toContent ∧
      Grown w.toReading v root found c₀ c₁ j.store.toContent s.toContent := by
  have due : Due w.toReading v root c₀ repo item.digest := by
    refine .manifest pending.revised.listed pending.unlinked pending.revised.planned hashed ?_
    intro needed member before
    have asked : Asked w.toReading v root repo needed := .inr (.inr ⟨item.digest,pending.revised.listed,_,pending.revised.planned,member⟩)
    obtain ⟨link,held⟩ := linkGet_of_linked (between.direct asked before (complete needed member))
    rcases between.only repo needed link held with first | ⟨wanted,-⟩
    · exact absurd (.inl (by unfold Content.Linked; rw [first]; rfl)) before
    · exact wanted.2
  have wanted : Wanted w.toReading v root found c₀ repo item.digest := ⟨named,due⟩
  have link : wantedLink w.toReading v root c₀ repo item.digest = Link.durable ⟨item.plan.kind,some item.mediaType⟩ := by
    unfold wantedLink
    rw [if_neg pending.noLayer,pending.revised.planned]
  have grows := store_grows w.crates j.store.toContent item.digest item.bytes
  have only := grows.only
  have links (other : RepoName) (name : Digest) : s.linkGet other name =
      if (repo,item.digest) = (other,name) then some (Link.durable ⟨item.plan.kind,some item.mediaType⟩)
      else j.store.linkGet other name := by
    have inserted : s.links = j.store.links.insert (repo,item.digest) (Link.durable ⟨item.plan.kind,some item.mediaType⟩) := by
      rw [content]
      unfold manifestStored manifestCommit aliasPut
      rw [only]
    unfold linkGet
    rw [inserted,get_insert]
  have tags : s.tags = j.store.tags := by
    rw [content]
    unfold manifestStored manifestCommit aliasPut
    rw [only]
  have blobs : s.blobs = (j.store.store w.crates item.digest item.bytes).blobs := by rw [content]; rfl
  have linked : s.Linked repo item.digest := by
    unfold Content.Linked
    rw [links,if_pos rfl]
    rfl
  refine ⟨linked,between.links calm.steady (fun other name => ?_) tags ?_,?_,?_,?_⟩
  · rw [links]
    split
    · rename_i equal
      obtain ⟨rfl,rfl⟩ := Prod.mk.inj equal
      refine .inr ⟨wanted,by rw [link],fun _ => ?_⟩
      rw [blobs]
      exact store_held w.crates j.store.toContent item.digest item.bytes
    · exact .inl rfl
  · intro name held there
    rw [blobs]
    exact grows.kept name held there
  · intro other name before
    unfold Content.Linked
    rw [links]
    split
    · rfl
    · exact before
  · intro other tag held
    rw [tags]; exact held
  · exact fun settled => absurd (settled repo item.digest wanted) pending.absent

-- What holds when some of a pass is done. A pass in which nothing goes through
-- leaves the store as it was.
structure Passing (w : World) (repo : RepoName) (kept : OciStore → Prop) (origin : Content) (done : List Waiting)
    (acc : Importing × List Waiting) (s : OciStore) : Prop where
  holds : kept s
  among : ∀ item ∈ acc.2,item ∈ done
  past : ∀ item ∈ done,item ∈ acc.2 ∨ s.Linked repo item.digest ∨ ¬Hashed w item
  short : acc.2.length ≤ done.length
  idle : acc.2.length = done.length → s.toContent = origin ∧
    ∀ item ∈ done,∃ needed ∈ item.plan.mustExist,¬origin.LinkedUnder repo needed

theorem put_run {next : Importing × List Waiting}
    (lasting : Lasting w v root found c₀ c₁ kept) (named : repo.text ∈ found) (pending : ∀ s,kept s → Pending w v root c₀ c₁ repo item) (ran : put w repo acc item = .ok next) :
    Run w v root found c₀ c₁ (Passing w repo kept origin done acc) acc.1 (Passing w repo kept origin (done ++ [item]) next)
      next.1 := by
  obtain ⟨j,still⟩ := acc
  unfold put at ran
  dsimp only at ran
  rcases put_answers w.crates j.store repo item.digest item.mediaType item.bytes item.plan with
    ⟨unhashed,answer⟩ | ⟨missing,-,answer⟩ | ⟨hashed,complete,ok,content⟩
  · rw [answer] at ran
    cases ran
    refine .reported (.aside rfl rfl rfl fun _ _ _ passing => ?_)
    refine ⟨passing.holds,fun other member => mem_append_left _ (passing.among other member),?_,?_,?_⟩
    · intro other member
      rcases mem_append.mp member with before | last
      · exact passing.past other before
      · rw [mem_singleton.mp last]; exact .inr (.inr unhashed)
    · have short := passing.short
      simp only [length_append,length_singleton] at short ⊢
      omega
    · have short := passing.short
      simp only [length_append,length_singleton] at short ⊢
      omega
  · rw [answer] at ran
    cases ran
    refine .aside rfl rfl rfl fun _ _ _ passing => ?_
    refine ⟨passing.holds,?_,?_,?_,?_⟩
    · intro other member
      rcases mem_append.mp member with before | last
      · exact mem_append_left _ (passing.among other before)
      · exact mem_append_right _ last
    · intro other member
      rcases mem_append.mp member with before | last
      · exact (passing.past other before).imp_left (mem_append_left _)
      · exact .inl (mem_append_right _ last)
    · have short := passing.short
      simp only [length_append,length_singleton] at short ⊢
      omega
    · intro same
      simp only [length_append,length_singleton,Nat.add_right_cancel_iff] at same
      obtain ⟨unchanged,stuck⟩ := passing.idle same
      refine ⟨unchanged,fun other member => ?_⟩
      rcases mem_append.mp member with before | last
      · exact stuck other before
      · rw [mem_singleton.mp last,←unchanged]; exact missing
  · cases answer : manifestPut w.crates j.store repo (.digest item.digest) item.mediaType item.bytes item.plan with
    | mk result s =>
      rw [answer] at ran ok content
      cases ok
      cases ran
      refine .reported (.wrote fun _ between passing calms calm => ?_)
      obtain ⟨linked,between',grown⟩ := put_stored named (pending j.store passing.holds) between calm hashed complete content
      refine ⟨⟨lasting _ _ grown passing.holds,fun other member => mem_append_left _ (passing.among other member),?_,?_,?_⟩,
        between',fun t member => putting_between between t member (calms t member),grown⟩
      · intro other member
        rcases mem_append.mp member with before | last
        · exact (passing.past other before).imp_right fun other_ => other_.imp_left (grown.linked repo other.digest)
        · rw [mem_singleton.mp last]; exact .inr (.inl linked)
      · have short := passing.short
        simp only [length_append,length_singleton] at short ⊢; omega
      · have short := passing.short
        simp only [length_append,length_singleton] at short ⊢; omega

theorem pass_length {items : List Waiting}
    (ran : items.foldlM (put w repo) acc = .ok out) : out.2.length ≤ acc.2.length+items.length := by
  induction items generalizing acc with
  | nil => cases ran; exact Nat.le_refl _
  | cons item rest ih =>
    rw [foldlM_cons] at ran
    obtain ⟨next,first,others⟩ := bind_ok ran
    have later := ih others
    have step : next.2.length ≤ acc.2.length+1 := by
      unfold put at first
      dsimp only at first
      split at first
      · cases first; exact Nat.le_succ _
      · cases first; rw [length_append]; exact Nat.le_refl _
      · cases first; exact Nat.le_succ _
      · cases first
    rw [length_cons]
    omega

def Resolved (w : World) (repo : RepoName) (s : OciStore) (item : Waiting) : Prop :=
  s.Linked repo item.digest ∨ ¬Hashed w item ∨ ∃ needed ∈ item.plan.mustExist,¬s.LinkedUnder repo needed

theorem passes_run (lasting : Lasting w v root found c₀ c₁ kept) (named : repo.text ∈ found) {waiting rest : List Waiting}
    (pending : ∀ s,kept s → ∀ item ∈ waiting,Pending w v root c₀ c₁ repo item) (enough : waiting.length < turns)
    (ran : passes w repo turns waiting j = .ok (j',rest)) :
    Run w v root found c₀ c₁ kept j (fun s => kept s ∧ ∀ item ∈ waiting,Resolved w repo s item) j' := by
  induction turns generalizing waiting j kept with
  | zero => omega
  | succ turns ih =>
    unfold passes at ran
    obtain ⟨⟨middle,still⟩,looped,ends⟩ := bind_ok ran
    have passed : Run w v root found c₀ c₁ (Passing w repo kept j.store.toContent [] (j,[])) j
        (Passing w repo kept j.store.toContent waiting (middle,still)) middle :=
      @Run.fold w v root found c₀ c₁ _ _ Prod.fst (put w repo) (Passing w repo kept j.store.toContent) _
        (fun done item member acc next step => put_run lasting named (fun s holds => pending s holds item member) step)
        [] _ _ looped
    have started : Run w v root found c₀ c₁ kept j (Passing w repo kept j.store.toContent waiting (middle,still)) middle := by
      refine passed.mono (fun _ _ holds => ?_) fun _ passing => passing
      exact ⟨holds,(fun _ none => by cases none),(fun _ none => by cases none),Nat.le_refl _,
        fun _ => ⟨rfl,fun _ none => by cases none⟩⟩
    dsimp only at ends
    split at ends
    · rename_i beyond
      cases ends
      refine started.mono (fun _ _ holds => holds) fun s passing => ⟨passing.holds,fun item member => ?_⟩
      rcases passing.past item member with left | linked | unhashed
      · rcases beyond with none | same
        · rw [none] at left; cases left
        · obtain ⟨unchanged,stuck⟩ := passing.idle same
          rw [←unchanged] at stuck; exact .inr (.inr (stuck item member))
      · exact .inl linked
      · exact .inr (.inl unhashed)
    · rename_i more
      have fewer : still.length < turns := by
        have bound := pass_length looped
        have differs : still.length ≠ waiting.length := fun same => more (.inr same)
        simp only [length_nil,Nat.zero_add] at bound; omega
      let carried : OciStore → Prop := fun s => kept s ∧ (∀ item ∈ still,item ∈ waiting) ∧
        ∀ item ∈ waiting,item ∈ still ∨ s.Linked repo item.digest ∨ ¬Hashed w item
      have carry : Lasting w v root found c₀ c₁ carried := by
        rintro s after grown ⟨holds,among,past⟩
        exact ⟨lasting s after grown holds,among,fun item member =>
          (past item member).imp_right fun other => other.imp_left (grown.linked repo item.digest)⟩
      have later := ih carry (fun s holds item member => pending s holds.1 item (holds.2.1 item member)) fewer ends
      refine (started.mono (fun _ _ holds => holds) fun s passing => ⟨passing.holds,passing.among,passing.past⟩).trans
        (later.mono (fun _ _ holds => holds) fun s ends => ⟨ends.1.1,fun item member => ?_⟩)
      rcases ends.1.2.2 item member with left | linked | unhashed
      · exact ends.2 item left
      · exact .inl linked
      · exact .inr (.inl unhashed)

def Complete (w : World) (v : Volume) (root : Path) (c₀ : Content) (repo : RepoName) (s : OciStore) : Prop :=
  ∀ digest,Due w.toReading v root c₀ repo digest → s.Linked repo digest

theorem complete_lasting : Lasting w v root found c₀ c₁ (Complete w v root c₀ repo) :=
  fun _ _ grown complete digest due => grown.linked repo digest (complete digest due)

-- Where every waiting manifest is resolved, what is due is linked: by induction on
-- why it is due.
theorem resolved_complete {origin s : OciStore} (between : Between w.toReading v root found c₀ c₁ s.toContent)
    (start : Between w.toReading v root found c₀ c₁ origin.toContent)
    (grew : ∀ digest,origin.Linked repo digest → s.Linked repo digest) (layered : Layered w v root c₀ repo s)
    (resolved : ∀ item ∈ (linksUnder v (repoDir root repo.text ++ [manifestsDir,"revisions".toList])).filterMap
      (waitsFor w v root repo origin.toContent),Resolved w repo s item) : Complete w v root c₀ repo s := by
  intro digest due
  induction due with
  | layer due => exact layered _ due
  | @manifest digest mediaType bytes plan listed unlinked planned hashed named ih =>
    have asked : Asked w.toReading v root repo digest := .inr (.inl listed)
    by_cases before : origin.LinkedUnder repo digest
    · exact grew digest (start.direct asked unlinked before)
    · have waits := resolved ⟨digest,blobData root digest,mediaType,bytes,plan⟩
        (mem_waiting.mpr ⟨⟨listed,planned⟩,before,rfl⟩)
      rcases waits with linked | unhashed | ⟨needed,member,missing⟩
      · exact linked
      · exact absurd hashed unhashed
      · have wanted : Asked w.toReading v root repo needed := .inr (.inr ⟨digest,listed,_,planned,member⟩)
        have first : ¬c₀.LinkedUnder repo needed := between.under wanted missing
        exact absurd (.inl (ih needed member first)) missing

theorem refusals_same (items : List Waiting) (j : Importing) :
    (items.foldl (refusal repo) j).store = j.store ∧ (items.foldl (refusal repo) j).past = j.past := by
  induction items generalizing j with
  | nil => exact ⟨rfl,rfl⟩
  | cons item rest ih => exact ih (refusal repo j item)

theorem manifests_run (lasting : Lasting w v root found c₀ c₁ kept) (named : repo.text ∈ found)
    (ran : manifests w v root repo j = .ok j') :
    Run w v root found c₀ c₁ (fun s => kept s ∧ Layered w v root c₀ repo s) j
      (fun s => kept s ∧ Complete w v root c₀ repo s) j' := by
  have read := @revisions_wait w v root repo
    (linksUnder v (repoDir root repo.text ++ [manifestsDir,"revisions".toList])) (j,[])
  unfold manifests at ran
  generalize (linksUnder v (repoDir root repo.text ++ [manifestsDir,"revisions".toList])).foldl (revision w v root repo) (j,[]) =
    looked at ran read
  obtain ⟨j₁,waiting⟩ := looked
  obtain ⟨store,past,waits⟩ := read
  rw [nil_append] at waits
  dsimp only at store past waits
  obtain ⟨⟨j₂,rest⟩,passed,ends⟩ := bind_ok ran
  cases ends
  obtain ⟨same,samePast⟩ := @refusals_same repo rest j₂
  let carried : OciStore → Prop := fun s => (kept s ∧ Layered w v root c₀ repo s) ∧
    ∀ item ∈ waiting,Pending w v root c₀ c₁ repo item
  have carry : Lasting w v root found c₀ c₁ carried := fun s after grown holds =>
    ⟨⟨lasting s after grown holds.1.1,layered_lasting s after grown holds.1.2⟩,holds.2⟩
  obtain ⟨new,grew,run⟩ := passes_run carry named (fun s holds item member => holds.2 item member) (Nat.lt_succ_self _) passed
  refine ⟨new,by rw [samePast,grew,past],fun calm between holds calms => ?_⟩
  have pending : ∀ item ∈ waiting,Pending w v root c₀ c₁ repo item := by
    intro item member
    rw [waits] at member
    obtain ⟨revised,unlinked,-⟩ := mem_waiting.mp member
    have asked : Asked w.toReading v root repo item.digest := .inr (.inl revised.listed)
    refine ⟨revised,between.under asked unlinked,fun before => unlinked (.inl (between.since repo item.digest before)),?_⟩
    exact fun layer => unlinked (.inl (holds.2 item.digest layer))
  rw [store] at run
  obtain ⟨⟨⟨⟨last,layered⟩,-⟩,resolved⟩,calm',between',betweens,grown⟩ := run calm between ⟨holds,pending⟩ calms
  rw [same]
  refine ⟨⟨last,?_⟩,calm',between',betweens,grown⟩
  rw [waits] at resolved
  exact resolved_complete between' between (fun digest linked => grown.linked repo digest linked) layered resolved

end Manifests
end HologramLive.Import
