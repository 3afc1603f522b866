import HologramLive.Oci.ImportDue
namespace HologramLive.Import
open Tables Fallible List

-- What is asked of a state of an import: the alias table answers as at the start,
-- and the generator returns an identifier that is not in use.
structure Calm (w : World) (v : Volume) (root : Path) (c₀ : Content) (s : OciStore) : Prop where
  steady : Steady w.toReading v root c₀ s.toContent
  unused : s.Unused (w.draw s)

section Run
variable (w : World) (v : Volume) (root : Path) (found : List Str) (c₀ c₁ : Content)

-- A stretch of an import from one condition to another: on calm states, each of them
-- is between the start and the end.
def Run (pre : OciStore → Prop) (j : Importing) (post : OciStore → Prop) (j' : Importing) : Prop :=
  ∃ new,j'.past = j.past ++ new ∧ (Calm w v root c₀ j.store → Between w.toReading v root found c₀ c₁ j.store.toContent →
    pre j.store → (∀ s ∈ new,Calm w v root c₀ s) →
    post j'.store ∧ Calm w v root c₀ j'.store ∧ Between w.toReading v root found c₀ c₁ j'.store.toContent ∧
      (∀ s ∈ new,Between w.toReading v root found c₀ c₁ s.toContent) ∧ Grown w.toReading v root found c₀ c₁ j.store.toContent j'.store.toContent)

def Lasting (p : OciStore → Prop) : Prop :=
  ∀ s after : OciStore,Grown w.toReading v root found c₀ c₁ s.toContent after.toContent → p s → p after

end Run

section Rules
variable {w : World} {v : Volume} {root : Path} {found : List Str} {c₀ c₁ : Content} {j j' j'' : Importing}
variable {pre post last : OciStore → Prop}

theorem Run.idle (store : j'.store = j.store) (past : j'.past = j.past)
    (carry : Calm w v root c₀ j.store → Between w.toReading v root found c₀ c₁ j.store.toContent → pre j.store → post j.store) :
    Run w v root found c₀ c₁ pre j post j' := by
  refine ⟨[],by rw [past,List.append_nil],fun calm between holds _ => ?_⟩
  rw [store]
  exact ⟨carry calm between holds,calm,between,(fun _ none => by cases none),.refl _⟩

theorem Run.trans (left : Run w v root found c₀ c₁ pre j post j') (right : Run w v root found c₀ c₁ post j' last j'') :
    Run w v root found c₀ c₁ pre j last j'' := by
  obtain ⟨first,past,ran⟩ := left
  obtain ⟨second,past',ran'⟩ := right
  refine ⟨first ++ second,by rw [past',past,List.append_assoc],fun calm between holds calms => ?_⟩
  obtain ⟨calmFirst,calmSecond⟩ := forall_mem_append.mp calms
  obtain ⟨middle,calm',between',betweens,grown⟩ := ran calm between holds calmFirst
  obtain ⟨ends,calm'',between'',betweens',grown'⟩ := ran' calm' between' middle calmSecond
  exact ⟨ends,calm'',between'',forall_mem_append.mpr ⟨betweens,betweens'⟩,grown.trans grown'⟩

theorem Run.keep (lasting : Lasting w v root found c₀ c₁ kept) (run : Run w v root found c₀ c₁ pre j post j') :
    Run w v root found c₀ c₁ (fun s => pre s ∧ kept s) j (fun s => post s ∧ kept s) j' := by
  obtain ⟨new,past,ran⟩ := run
  refine ⟨new,past,fun calm between holds calms => ?_⟩
  obtain ⟨ends,calm',between',betweens,grown⟩ := ran calm between holds.1 calms
  exact ⟨⟨ends,lasting _ _ grown holds.2⟩,calm',between',betweens,grown⟩

theorem Run.mono (run : Run w v root found c₀ c₁ pre j post j')
    (weaker : Calm w v root c₀ j.store → Between w.toReading v root found c₀ c₁ j.store.toContent → pre' j.store → pre j.store)
    (stronger : ∀ s,post s → post' s) : Run w v root found c₀ c₁ pre' j post' j' := by
  obtain ⟨new,past,ran⟩ := run
  refine ⟨new,past,fun calm between holds calms => ?_⟩
  obtain ⟨ends,rest⟩ := ran calm between (weaker calm between holds) calms
  exact ⟨stronger _ ends,rest⟩

theorem Run.reported (run : Run w v root found c₀ c₁ pre j post j') :
    Run w v root found c₀ c₁ pre j post {j' with report := report} := run

theorem Run.wrote
    (step : Calm w v root c₀ j.store → Between w.toReading v root found c₀ c₁ j.store.toContent → pre j.store →
      (∀ t ∈ states,Calm w v root c₀ t) → Calm w v root c₀ s →
      post s ∧ Between w.toReading v root found c₀ c₁ s.toContent ∧ (∀ t ∈ states,Between w.toReading v root found c₀ c₁ t.toContent) ∧
        Grown w.toReading v root found c₀ c₁ j.store.toContent s.toContent) :
    Run w v root found c₀ c₁ pre j post ((j.passed states).wrote s) := by
  refine ⟨states ++ [s],by simp [Importing.wrote,Importing.passed],fun calm between holds calms => ?_⟩
  obtain ⟨passed,written⟩ := forall_mem_append.mp calms
  have calm' := written s List.mem_cons_self
  obtain ⟨ends,between',betweens,grown⟩ := step calm between holds passed calm'
  refine ⟨ends,calm',between',forall_mem_append.mpr ⟨betweens,?_⟩,grown⟩
  intro t member
  rw [List.mem_singleton.mp member]
  exact between'

theorem Run.single
    (step : Calm w v root c₀ j.store → Between w.toReading v root found c₀ c₁ j.store.toContent → pre j.store → Calm w v root c₀ s →
      post s ∧ Between w.toReading v root found c₀ c₁ s.toContent ∧ Grown w.toReading v root found c₀ c₁ j.store.toContent s.toContent) :
    Run w v root found c₀ c₁ pre j post (j.wrote s) := by
  have whole : j.wrote s = (j.passed []).wrote s := by simp [Importing.wrote,Importing.passed]
  rw [whole]
  refine .wrote fun calm between holds _ calm' => ?_
  obtain ⟨ends,between',grown⟩ := step calm between holds calm'
  exact ⟨ends,between',(fun _ none => by cases none),grown⟩

theorem Run.aside (links : s.links = j.store.links) (tags : s.tags = j.store.tags)
    (blobs : s.blobs = j.store.blobs) (carry : Calm w v root c₀ j.store → Between w.toReading v root found c₀ c₁ j.store.toContent →
      Grown w.toReading v root found c₀ c₁ j.store.toContent s.toContent → pre j.store → post s) :
    Run w v root found c₀ c₁ pre j post (j.wrote s) := by
  refine .single fun calm between holds calm' => ?_
  have grown : Grown w.toReading v root found c₀ c₁ j.store.toContent s.toContent := .rest links tags blobs
  refine ⟨carry calm between grown holds,between.rest calm'.steady links tags ?_,grown⟩
  intro digest bytes held
  rw [blobs]
  exact held

theorem Run.fold {α σ : Type} {view : σ → Importing} {step : σ → α → Except OciStoreError σ} {holds : List α → σ → OciStore → Prop}
    {items : List α} (each : ∀ done item,item ∈ items → ∀ acc next,step acc item = .ok next →
      Run w v root found c₀ c₁ (holds done acc) (view acc) (holds (done ++ [item]) next) (view next))
    {done : List α} {acc out : σ} (ran : items.foldlM step acc = .ok out) :
    Run w v root found c₀ c₁ (holds done acc) (view acc) (holds (done ++ items) out) (view out) := by
  induction items generalizing done acc with
  | nil =>
    cases ran
    rw [List.append_nil]
    exact .idle rfl rfl fun _ _ holds => holds
  | cons item rest ih =>
    rw [foldlM_cons] at ran
    obtain ⟨next,first,others⟩ := bind_ok ran
    have later : Run w v root found c₀ c₁ (holds (done ++ [item]) next) (view next) (holds ((done ++ [item]) ++ rest) out) (view out) :=
      ih (fun done other member => each done other (mem_cons_of_mem _ member)) others
    rw [List.append_assoc,singleton_append] at later
    exact (each done item List.mem_cons_self acc next first).trans later

end Rules
end HologramLive.Import

namespace HologramLive.Import
open Tables Fallible

def Feeding (s : OciStore) (id : UploadId) (repo : RepoName) (bytes : Bytes) : Prop :=
  ∃ state session,s.sessions[id]? = some state ∧ state.repo = repo ∧ state.kappaId = id ∧ state.received = bytes.length ∧
    s.uploadSessions[id]? = some session ∧ session.offset = bytes.length ∧ s.staging[id]? = some bytes

theorem begin_feeding {s : OciStore} {id : UploadId} (unused : s.Unused id) (repo : RepoName) (now : Nat) :
    Feeding (s.uploadBegin repo id now).2 id repo [] := by
  obtain ⟨-,-,free,-⟩ := unused
  refine ⟨⟨repo,id,0,some [],now,now,now⟩,⟨0,[]⟩,?_,rfl,rfl,rfl,?_,rfl,?_⟩
  · exact (get_insert _ id id _).trans (if_pos rfl)
  · exact (get_insert _ id id _).trans (if_pos rfl)
  · show (s.staging.insertIfNew id [])[id]? = some []
    have absent : id ∉ s.staging := by
      intro member
      rw [Std.ExtTreeMap.mem_iff_isSome_getElem?,free] at member
      cases member
    rw [Std.ExtTreeMap.getElem?_insertIfNew]
    simp [absent]

theorem append_feeding {id : UploadId} (feeding : Feeding s id repo bytes) (frame : Bytes) (now : Nat) :
    (s.uploadAppend id bytes.length frame now).1 = .ok (bytes ++ frame).length ∧
      Feeding (s.uploadAppend id bytes.length frame now).2 id repo (bytes ++ frame) := by
  obtain ⟨state,session,live,owner,key,received,attached,offset,held⟩ := feeding
  have total : session.offset+frame.length = (bytes ++ frame).length := by rw [offset,List.length_append]
  have part : s.kappaUploadPutPart state.kappaId bytes.length frame = (.ok (bytes ++ frame).length,{s with
      staging := s.staging.insert id (bytes ++ frame)
      uploadSessions := s.uploadSessions.insert id ⟨(bytes ++ frame).length,session.parts ++ [(session.offset,frame)]⟩}) := by
    unfold OciStore.kappaUploadPutPart
    rw [key,attached]
    dsimp only
    rw [if_neg (not_not_intro offset.symm),held]
    dsimp only
    rw [total]
  unfold OciStore.uploadAppend OciStore.appendLocked
  rw [live]
  dsimp only
  rw [if_neg (not_not_intro received.symm),part]
  dsimp only
  split
  · refine ⟨rfl,_,_,(get_insert _ id id _).trans (if_pos rfl),owner,key,rfl,(get_insert _ id id _).trans (if_pos rfl),rfl,?_⟩
    exact (get_insert _ id id _).trans (if_pos rfl)
  · refine ⟨rfl,_,_,(get_insert _ id id _).trans (if_pos rfl),owner,key,rfl,(get_insert _ id id _).trans (if_pos rfl),rfl,?_⟩
    exact (get_insert _ id id _).trans (if_pos rfl)

section Copy
variable {w : World} {v : Volume} {root : Path} {found : List Str} {c₀ c₁ : Content} {repo : RepoName} {digest : Digest}
variable {j j' : Importing} {kept : OciStore → Prop}

def Copying (c₀ : Content) (repo : RepoName) (digest : Digest) (kept : OciStore → Prop) (s : OciStore) : Prop :=
  kept s ∧ ¬s.Linked repo digest ∧ ¬c₀.LinkedUnder repo digest

theorem Copying.aside (lasting : Lasting w v root found c₀ c₁ kept) (links : after.links = s.links)
    (grown : Grown w.toReading v root found c₀ c₁ s.toContent after.toContent)
    (copying : Copying c₀ repo digest kept s) : Copying c₀ repo digest kept after := by
  refine ⟨lasting s after grown copying.1,?_,copying.2.2⟩
  have unlinked := copying.2.1
  unfold Content.Linked Content.linkGet at unlinked ⊢
  rw [links]
  exact unlinked

theorem appendAll_run (lasting : Lasting w v root found c₀ c₁ kept) {id : UploadId} {frames : List Bytes}
    {offset total : Nat} (ran : appendAll w id frames offset j = .ok (total,j')) :
    Run w v root found c₀ c₁ (fun s => Copying c₀ repo digest kept s ∧ Feeding s id repo bytes ∧ offset = bytes.length) j
      (fun s => Copying c₀ repo digest kept s ∧ Feeding s id repo (bytes ++ frames.flatten)) j' := by
  induction frames generalizing bytes offset j with
  | nil =>
    cases ran
    rw [List.flatten_nil,List.append_nil]
    exact .idle rfl rfl fun _ _ holds => ⟨holds.1,holds.2.1⟩
  | cons frame rest ih =>
    unfold appendAll at ran
    split at ran
    · cases ran
    · rename_i next s appended
      have same : s.toContent = j.store.toContent := by
        have content := j.store.uploadAppend_content id offset frame (w.clock j.store)
        rw [appended] at content; exact content
      have later := @ih (j.wrote s) (bytes ++ frame) next ran
      rw [List.append_assoc,←List.flatten_cons] at later
      refine Run.trans (.aside (by rw [same]) (by rw [same]) (by rw [same]) ?_) later
      rintro - - grown ⟨copying,feeding,rfl⟩
      obtain ⟨answered,fed⟩ := append_feeding feeding frame (w.clock j.store)
      rw [appended] at answered fed
      exact ⟨copying.aside lasting (by rw [same]) grown,fed,Except.ok.inj answered⟩

theorem Between.grows {s after : OciStore} (between : Between w.toReading v root found c₀ c₁ s.toContent)
    (calm : Calm w v root c₀ after) (grows : s.toContent.Grows after.toContent) :
    Between w.toReading v root found c₀ c₁ after.toContent := by
  have only := grows.only
  exact between.rest calm.steady (by rw [only]) (by rw [only]) grows.kept

theorem finishing_grows (crates : Crates) (s : OciStore) (id : UploadId) (claimed : Digest) :
    ∀ t ∈ finishing crates s id claimed,s.toContent.Grows t.toContent := by
  intro t member
  unfold finishing at member
  split at member
  · cases member
  · split at member
    · cases member
    · split at member
      · cases member
      · rename_i session staged _ _
        have placed := Content.blobPut_grows s.toContent claimed staged
        have named := Content.linkAdditional_grows claimed (crates.additional claimed staged) (s.blobPut claimed staged).2
        have recorded := Content.persistPartManifest_grows crates
          ((s.blobPut claimed staged).2.linkAdditional claimed (crates.additional claimed staged)) session.parts
        simp only [List.mem_cons,List.not_mem_nil,or_false] at member
        rcases member with rfl | rfl | rfl
        · exact placed
        · exact placed.trans named
        · exact (placed.trans named).trans recorded

theorem finish_run (lasting : Lasting w v root found c₀ c₁ kept) (named : repo.text ∈ found)
    (listed : digest ∈ layerDigests v root repo) (file : isFile v (blobData root digest) = true) {id : UploadId}
    (there : v[blobData root digest]? = some (.file bytes))
    (finished : OciStore.uploadFinish w.crates j.store id digest = (.ok stored,s)) :
    Run w v root found c₀ c₁ (fun s => Copying c₀ repo digest kept s ∧ Feeding s id repo bytes) j
      (fun s => kept s ∧ (Good w.toReading v root digest → s.Linked repo digest))
      ((j.passed (finishing w.crates j.store id digest)).wrote s) := by
  refine .wrote ?_
  rintro - between ⟨⟨holds,unlinked,before⟩,state,session,live,owner,key,-,attached,-,held⟩ calms calm
  rcases j.store.uploadFinish_cases w.crates id digest with ⟨⟨e,failed⟩,-⟩ | ⟨staged,hashed,-,content⟩
  · rw [finished] at failed
    cases failed
  · rw [finished] at content
    have same : staged.state = state := Option.some.inj (staged.live.symm.trans live)
    have own : staged.bytes = bytes := by
      have here := staged.held
      rw [same,key,held] at here
      exact (Option.some.inj here).symm
    rw [own] at hashed content
    have good : Good w.toReading v root digest := ⟨bytes,there,hashed⟩
    have due : LayerDue w.toReading v root c₀ repo digest := ⟨listed,before,file,.inl good⟩
    have wanted : Wanted w.toReading v root found c₀ repo digest := ⟨named,.layer due⟩
    have link : wantedLink w.toReading v root c₀ repo digest = ⟨.blob,none⟩ := if_pos due
    have grows : j.store.toContent.Grows (Content.persistPartManifest w.crates (j.store.store w.crates digest bytes) staged.session.parts) :=
      (Content.store_grows w.crates j.store.toContent digest bytes).trans (Content.persistPartManifest_grows w.crates _ _)
    have only := grows.only
    have links (other : RepoName) (name : Digest) : s.linkGet other name =
        if (repo,digest) = (other,name) then some ⟨.blob,none⟩ else j.store.linkGet other name := by
      have inserted : s.links = j.store.links.insert (repo,digest) ⟨.blob,none⟩ := by
        rw [content,same,owner]
        unfold Content.finished Content.commitFinishedUpload; rw [only]
      unfold Content.linkGet
      rw [inserted,get_insert]
    have tags : s.tags = j.store.tags := by
      rw [content]
      unfold Content.finished Content.commitFinishedUpload
      rw [only]
    have blobs : ∀ (name : Digest) (held : Bytes),j.store.blobs[name]? = some held → s.blobs[name]? = some held := by
      intro name held there
      rw [content]
      exact grows.kept name held there
    have linked : s.Linked repo digest := by
      unfold Content.Linked
      rw [links,if_pos rfl]
      rfl
    have grown : Grown w.toReading v root found c₀ c₁ j.store.toContent s.toContent := by
      refine ⟨fun other name held => ?_,fun other tag held => ?_,fun due => absurd (between.since repo digest (due repo digest wanted)) unlinked⟩
      · unfold Content.Linked; rw [links]
        split
        · rfl
        · exact held
      · rw [tags]; exact held
    refine ⟨⟨lasting _ _ grown holds,fun _ => linked⟩,between.links calm.steady ?_ tags blobs,?_,grown⟩
    · intro other name
      rw [links]
      split
      · rename_i equal
        obtain ⟨rfl,rfl⟩ := Prod.mk.inj equal
        exact .inr ⟨wanted,by rw [link],fun kind => absurd (by rw [link]) kind⟩
      · exact .inl rfl
    · exact fun t member => between.grows (calms t member) (finishing_grows w.crates j.store id digest t member)

theorem refuse_run (lasting : Lasting w v root found c₀ c₁ kept) {id : UploadId}
    (there : v[blobData root digest]? = some (.file bytes))
    (finished : OciStore.uploadFinish w.crates j.store id digest = (.error e,s)) :
    Run w v root found c₀ c₁ (fun s => Copying c₀ repo digest kept s ∧ Feeding s id repo bytes) j
      (fun s => kept s ∧ (Good w.toReading v root digest → s.Linked repo digest)) (j.wrote s) := by
  have same : s.toContent = j.store.toContent := by
    rcases j.store.uploadFinish_cases w.crates id digest with ⟨-,content⟩ | ⟨-,-,ok,-⟩
    · rw [finished] at content
      exact content
    · rw [finished] at ok
      cases ok
  refine .aside (by rw [same]) (by rw [same]) (by rw [same]) ?_
  rintro - - grown ⟨copying,state,session,live,-,key,-,attached,-,held⟩
  refine ⟨lasting _ _ grown copying.1,?_⟩
  rintro ⟨own,there',hashed⟩
  rw [there] at there'
  cases there'
  rw [←key] at attached held
  have matched := OciStore.uploadFinish_matched w.crates ⟨state,session,bytes,live,attached,held⟩ hashed
  rw [finished] at matched
  cases matched.1

theorem copy_run (lasting : Lasting w v root found c₀ c₁ kept) (named : repo.text ∈ found)
    (listed : digest ∈ layerDigests v root repo) (file : isFile v (blobData root digest) = true)
    (ran : copy w v repo digest (blobData root digest) j = .ok j') :
    Run w v root found c₀ c₁ (Copying c₀ repo digest kept) j
      (fun s => kept s ∧ (Good w.toReading v root digest → s.Linked repo digest)) j' := by
  unfold copy at ran
  split at ran
  · rename_i e failed
    cases ran
    refine .idle rfl rfl fun _ _ holds => ⟨holds.1,?_⟩
    rintro ⟨bytes,there,-⟩
    rw [opened,there] at failed
    cases failed
  · rename_i frames failure read
    dsimp only at ran
    split at ran
    · cases ran
    · rename_i total fed appended
      have begun : Run w v root found c₀ c₁ (Copying c₀ repo digest kept) j
          (fun s => Copying c₀ repo digest kept s ∧ Feeding s (w.draw j.store) repo [] ∧ (0 : Nat) = ([] : Bytes).length)
          (j.wrote (j.store.uploadBegin repo (w.draw j.store) (w.clock j.store)).2) :=
        .aside rfl rfl rfl fun calm _ grown copying =>
          ⟨Copying.aside lasting (show (j.store.uploadBegin repo (w.draw j.store) (w.clock j.store)).2.links = j.store.links from rfl) grown copying,begin_feeding calm.unused repo _,rfl⟩
      refine (begun.trans (appendAll_run lasting appended)).trans ?_
      rw [List.nil_append]
      split at ran
      · rename_i e
        have bad : ¬Good w.toReading v root digest := by
          rintro ⟨bytes,there,-⟩
          rw [opened,there] at read; cases read
        split at ran
        · cases ran
        · rename_i s cancelled; cases ran
          have same : s.toContent = fed.store.toContent := by
            have content := fed.store.uploadCancel_content (j.store.uploadBegin repo (w.draw j.store) (w.clock j.store)).1
            rw [cancelled] at content; exact content
          exact .reported (.aside (by rw [same]) (by rw [same]) (by rw [same]) fun _ _ grown holds =>
            ⟨lasting _ _ grown holds.1.1,fun good => absurd good bad⟩)
      · obtain ⟨bytes,there,whole⟩ : ∃ bytes,v[blobData root digest]? = some (.file bytes) ∧ frames.flatten = bytes := by
          unfold opened at read; split at read
          · rename_i bytes there; cases read
            exact ⟨bytes,there,frames_flatten (by decide) (Nat.le_refl _)⟩
          · cases read
          · cases read
          · cases read
          · cases read
          · cases read
        rw [whole]; split at ran
        · rename_i stored s finished; cases ran
          exact .reported (finish_run lasting named listed file there finished)
        · rename_i claimed s finished; cases ran
          exact .reported (refuse_run lasting there finished)
        · cases ran

end Copy

section Layers
variable {w : World} {v : Volume} {root : Path} {found : List Str} {c₀ c₁ : Content} {repo : RepoName}
variable {j j' : Importing} {kept : OciStore → Prop}

theorem layer_listed (member : item ∈ linksUnder v (repoDir root repo.text ++ [layersDir])) (ok : item.1 = .ok digest) :
    digest ∈ layerDigests v root repo :=
  List.mem_filterMap.mpr ⟨item,member,by rw [ok]; rfl⟩

-- What is due and found linked is linked under its own name.
theorem Between.direct {s : OciStore} (between : Between w.toReading v root found c₀ c₁ s.toContent)
    (asked : Asked w.toReading v root repo digest) (before : ¬c₀.LinkedUnder repo digest) (linked : s.LinkedUnder repo digest) :
    s.Linked repo digest := by
  by_contra unlinked
  rcases linkedUnder_iff.mp linked with direct | other
  · exact unlinked direct
  · rw [(between.steady repo digest asked unlinked).1] at other
    exact before (linkedUnder_iff.mpr (.inr other))

def Layering (w : World) (v : Volume) (root : Path) (c₀ : Content) (repo : RepoName) (kept : OciStore → Prop)
    (done : List (Except Str Digest × Path)) (acc : Importing × List Digest) (s : OciStore) : Prop :=
  kept s ∧ (∀ digest ∈ acc.2,LayerDue w.toReading v root c₀ repo digest) ∧
    ∀ item ∈ done,∀ digest,item.1 = .ok digest → LayerDue w.toReading v root c₀ repo digest → s.Linked repo digest ∨ digest ∈ acc.2

theorem layering_lasting (lasting : Lasting w v root found c₀ c₁ kept) (done : List (Except Str Digest × Path))
    (acc : Importing × List Digest) : Lasting w v root found c₀ c₁ (Layering w v root c₀ repo kept done acc) := by
  rintro s after grown ⟨holds,due,looked⟩
  refine ⟨lasting s after grown holds,due,fun item member digest ok layer => ?_⟩
  exact (looked item member digest ok layer).imp_left (grown.linked repo digest)

theorem Layering.next {acc next : Importing × List Digest} (holds : Layering w v root c₀ repo kept done acc s)
    (more : ∀ digest ∈ next.2,digest ∈ acc.2 ∨ LayerDue w.toReading v root c₀ repo digest) (all : ∀ digest ∈ acc.2,digest ∈ next.2)
    (looked : ∀ digest,item.1 = .ok digest → LayerDue w.toReading v root c₀ repo digest → s.Linked repo digest ∨ digest ∈ next.2) :
    Layering w v root c₀ repo kept (done ++ [item]) next s := by
  refine ⟨holds.1,fun digest member => (more digest member).elim (holds.2.1 digest) id,?_⟩
  intro other member digest ok due
  rcases List.mem_append.mp member with before | last
  · exact (holds.2.2 other before digest ok due).imp_right (all digest)
  · rw [List.mem_singleton.mp last] at ok
    exact looked digest ok due

theorem layer_run (lasting : Lasting w v root found c₀ c₁ kept) (named : repo.text ∈ found)
    {item : Except Str Digest × Path} (member : item ∈ linksUnder v (repoDir root repo.text ++ [layersDir])) (ran : layer w v root repo acc item = .ok next) :
    Run w v root found c₀ c₁ (Layering w v root c₀ repo kept done acc) acc.1 (Layering w v root c₀ repo kept (done ++ [item]) next)
      next.1 := by
  obtain ⟨j,shared⟩ := acc
  unfold layer at ran
  dsimp only at ran
  split at ran
  · rename_i detail bad
    cases ran
    exact .reported (.idle rfl rfl fun _ _ holds => holds.next (fun _ there => .inl there) (fun _ there => there)
      fun digest ok => by rw [bad] at ok; cases ok)
  · rename_i digest ok
    have listed := layer_listed member ok
    have asked : Asked w.toReading v root repo digest := .inl listed
    split at ran
    · rename_i linked
      cases ran
      refine .idle rfl rfl fun _ between holds => holds.next (fun _ there => .inl there) (fun _ there => there) ?_
      intro other same due
      cases ok.symm.trans same
      exact .inl (between.direct asked due.2.1 (isOk_requireLink.mp linked))
    · rename_i unlinked
      have apart : ¬j.store.LinkedUnder repo digest := mt isOk_requireLink.mpr unlinked
      have direct : ¬j.store.Linked repo digest := fun linked => apart (.inl linked)
      split at ran
      · rename_i absent; cases ran
        refine .reported (.idle rfl rfl fun _ _ holds => holds.next (fun _ there => .inl there) (fun _ there => there) ?_)
        intro other same due; cases ok.symm.trans same
        rw [due.2.2.1] at absent; cases absent
      · rename_i there
        have file : isFile v (blobData root digest) = true := by simpa using there
        rw [shareable_iff] at ran; split at ran
        · rename_i held; cases ran
          refine .idle rfl rfl fun _ between holds => holds.next ?_ (fun _ inside => List.mem_append_left _ inside) ?_
          · intro other inside
            rcases List.mem_append.mp inside with before | last
            · exact .inl before
            · rw [List.mem_singleton.mp last]
              refine .inr ⟨listed,between.under asked apart,file,?_⟩
              by_cases good : Good w.toReading v root digest
              · exact .inl good
              · exact .inr (((between.steady repo digest asked direct).2 good).symm.trans held)
          · intro other same due; cases ok.symm.trans same
            exact .inr (List.mem_append_right _ List.mem_cons_self)
        · rename_i bare
          obtain ⟨copied,ended,rfl⟩ : ∃ copied,copy w v repo digest (blobData root digest) j = .ok copied ∧ (copied,shared) = next := by
            cases answer : copy w v repo digest (blobData root digest) j with
            | error e => rw [answer] at ran; cases ran
            | ok copied => rw [answer] at ran; exact ⟨copied,rfl,Except.ok.inj ran⟩
          have given : Lasting w v root found c₀ c₁ fun s =>
              Layering w v root c₀ repo kept done (j,shared) s ∧ (LayerDue w.toReading v root c₀ repo digest → Good w.toReading v root digest) :=
            fun s after grown holds => ⟨layering_lasting lasting done (j,shared) s after grown holds.1,holds.2⟩
          refine (copy_run given named listed file ended).mono ?_ ?_
          · intro _ between holds
            refine ⟨⟨holds,fun due => ?_⟩,direct,between.under asked apart⟩
            by_contra bad
            have shared := due.2.2.2.resolve_left bad
            rw [←(between.steady repo digest asked direct).2 bad] at shared; exact bare shared
          · rintro s ⟨⟨holds,own⟩,linked⟩
            refine holds.next (fun _ inside => .inl inside) (fun _ inside => inside) ?_
            intro other same due; cases ok.symm.trans same
            exact .inl (linked (own due))

theorem bulk_linkGet (c : Content) (repo : RepoName) (shared : List Digest) (other : RepoName) (name : Digest) :
    (linksAddBulk c (shared.map fun digest => (repo,digest,(⟨.blob,none⟩ : Link)))).linkGet other name =
      if repo = other ∧ name ∈ shared then some ⟨.blob,none⟩ else c.linkGet other name := by
  induction shared generalizing c with
  | nil => simp [linksAddBulk]
  | cons digest rest ih =>
    have step : linksAddBulk c ((digest :: rest).map fun digest => (repo,digest,(⟨.blob,none⟩ : Link))) =
        linksAddBulk (c.linkAdd repo digest .blob none) (rest.map fun digest => (repo,digest,(⟨.blob,none⟩ : Link))) := rfl
    have first : (c.linkAdd repo digest .blob none).linkGet other name =
        if (repo,digest) = (other,name) then some ⟨.blob,none⟩ else c.linkGet other name := get_insert _ _ _ _
    rw [step,ih,first]
    grind

theorem bulk_rest (c : Content) (rows : List (RepoName × Digest × Link)) :
    (linksAddBulk c rows).tags = c.tags ∧ (linksAddBulk c rows).blobs = c.blobs := by
  induction rows generalizing c with
  | nil => exact ⟨rfl,rfl⟩
  | cons row rest ih => exact ih (c.linkAdd row.1 row.2.1 row.2.2.kind row.2.2.mediaType)

def Layered (w : World) (v : Volume) (root : Path) (c₀ : Content) (repo : RepoName) (s : OciStore) : Prop :=
  ∀ digest,LayerDue w.toReading v root c₀ repo digest → s.Linked repo digest

theorem layered_lasting : Lasting w v root found c₀ c₁ (Layered w v root c₀ repo) :=
  fun _ _ grown layered digest due => grown.linked repo digest (layered digest due)

theorem Layering.all (whole : done = linksUnder v (repoDir root repo.text ++ [layersDir]))
    (holds : Layering w v root c₀ repo kept done acc s) (due : LayerDue w.toReading v root c₀ repo digest) :
    s.Linked repo digest ∨ digest ∈ acc.2 := by
  obtain ⟨item,member,got⟩ := List.mem_filterMap.mp due.1
  have ok : item.1 = .ok digest := ok_of_toOption got
  exact holds.2.2 item (whole ▸ member) digest ok due

theorem layers_run (lasting : Lasting w v root found c₀ c₁ kept) (named : repo.text ∈ found)
    (ran : layers w v root repo j = .ok j') :
    Run w v root found c₀ c₁ kept j (fun s => kept s ∧ Layered w v root c₀ repo s) j' := by
  obtain ⟨⟨middle,shared⟩,looped,ends⟩ := bind_ok ran
  have looked : Run w v root found c₀ c₁ (Layering w v root c₀ repo kept [] (j,[])) j
      (Layering w v root c₀ repo kept (linksUnder v (repoDir root repo.text ++ [layersDir])) (middle,shared)) middle :=
    @Run.fold w v root found c₀ c₁ _ _ Prod.fst (layer w v root repo) (Layering w v root c₀ repo kept) _
      (fun done item member acc next step => layer_run lasting named member step) [] _ _ looped
  have started : Run w v root found c₀ c₁ kept j
      (Layering w v root c₀ repo kept (linksUnder v (repoDir root repo.text ++ [layersDir])) (middle,shared)) middle :=
    looked.mono (fun _ _ holds => ⟨holds,(fun _ none => by cases none),(fun _ none => by cases none)⟩) fun _ holds => holds
  dsimp only at ends
  split at ends
  · rename_i none
    cases ends
    refine started.mono (fun _ _ holds => holds) fun s holds => ⟨holds.1,fun digest due => ?_⟩
    rcases holds.all rfl due with linked | inside
    · exact linked
    · rw [none] at inside; cases inside
  · cases ends
    refine .reported (started.trans (.single fun _ between holds calm => ?_))
    have links := bulk_linkGet middle.store.toContent repo shared
    obtain ⟨tags,blobs⟩ := bulk_rest middle.store.toContent (shared.map fun digest => (repo,digest,(⟨.blob,none⟩ : Link)))
    have grown : Grown w.toReading v root found c₀ c₁ middle.store.toContent
        (linksAddBulk middle.store.toContent (shared.map fun digest => (repo,digest,(⟨.blob,none⟩ : Link)))) := by
      refine ⟨fun other name linked => ?_,fun other tag held => ?_,fun _ => blobs⟩
      · unfold Content.Linked; rw [links]
        split
        · rfl
        · exact linked
      · rw [tags]; exact held
    refine ⟨⟨lasting _ _ grown holds.1,fun digest due => ?_⟩,between.links calm.steady (fun other name => ?_) tags ?_,grown⟩
    · rcases holds.all rfl due with linked | inside
      · exact grown.linked repo digest linked
      · show Content.Linked _ repo digest
        unfold Content.Linked; rw [links,if_pos ⟨rfl,inside⟩]
        rfl
    · show Content.linkGet _ other name = _ ∨ _
      rw [links]
      split
      · rename_i inside
        obtain ⟨rfl,member⟩ := inside
        have due := holds.2.1 name member
        have link : wantedLink w.toReading v root c₀ repo name = ⟨.blob,none⟩ := if_pos due
        exact .inr ⟨⟨named,.layer due⟩,by rw [link],fun kind => absurd (by rw [link]) kind⟩
      · exact .inl rfl
    · intro name bytes held
      show (linksAddBulk _ _).blobs[name]? = some bytes
      rw [blobs]
      exact held

end Layers
end HologramLive.Import
