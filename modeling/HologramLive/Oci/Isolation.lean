import HologramLive.Oci.GcSafety
namespace HologramLive
open Tables Std Content OciStore Names
namespace Isolation
open Content

-- What a push that goes through writes: a link in one repository, and for an
-- upload or a manifest the alias pair of its two names.
structure Push where
  repo : RepoName
  stored : Digest
  other : Option Digest
  kind : LinkKind

def isPush : Op → Bool
  | .finish _ _ => true
  | .mount _ _ _ => true
  | .manifestPut _ _ _ _ _ => true
  | _ => false

def pushOf (crates : Crates) (s : OciStore) : Op → Option Push
  | .finish id claimed => match s.sessions[id]?,s.stagedOf id with
    | some state,some (_,bytes) =>
      if crates.Names claimed bytes then some ⟨state.repo,claimed,some (otherName crates claimed bytes),.blob⟩ else none
    | _,_ => none
  | .mount target source asked => match s.blobStat source asked with
    | .ok stat => some ⟨target,stat.storedAs,none,.blob⟩
    | .error _ => none
  | .manifestPut repo reference _ bytes plan => match putDigest crates reference bytes with
    | .ok digest =>
      if (s.missingReferences repo plan.mustExist).isEmpty then
        some ⟨repo,digest,some (otherName crates digest bytes),plan.kind⟩
      else none
    | .error _ => none
  | _ => none

-- The content after the push, as far as reads see it.
structure Pushed (c after : Content) (push : Push) : Prop where
  kept : ∀ (digest : Digest) (bytes : Bytes),c.blobs[digest]? = some bytes → after.blobs[digest]? = some bytes
  placed : ∃ bytes : Bytes,after.blobs[push.stored]? = some bytes
  links : ∃ link : Link,link.kind = push.kind ∧ after.links = c.links.insert (push.repo,push.stored) link
  aliases : ∀ name,after.aliasOf name = match push.other with
    | none => c.aliasOf name
    | some other => if other = name then some push.stored else if push.stored = name then some other else c.aliasOf name
  repos : ∀ repo ∈ c.repos,repo ∈ after.repos

theorem stored_pushed (crates : Crates) (c : Content) (repo : RepoName) (digest : Digest) (mediaType : Str) (bytes : Bytes)
    (plan : ManifestPlan) : Pushed c (c.manifestStored crates repo digest mediaType bytes plan)
      ⟨repo,digest,some (otherName crates digest bytes),plan.kind⟩ := by
  have grown := store_grows crates c digest bytes
  have only := grown.only
  refine ⟨grown.kept,store_held crates c digest bytes,⟨(⟨plan.kind,some mediaType⟩ : Link).durable,rfl,?_⟩,
    fun name => ?_,fun other member => ?_⟩
  · unfold manifestStored manifestCommit aliasPut
    simp only
    rw [only]
  · have same : (c.store crates digest bytes).aliasOf name = c.aliasOf name := by rw [only]; rfl
    rw [←same]
    exact aliasPut_get (c.store crates digest bytes) digest (otherName crates digest bytes) name
  · unfold manifestStored manifestCommit aliasPut
    simp only
    rw [only]
    exact ExtTreeSet.mem_insert.mpr (.inr member)

theorem finished_pushed (crates : Crates) (c : Content) (repo : RepoName) (claimed other : Digest) (staged : Bytes)
    (parts : List (Nat × Bytes)) :
    Pushed c (c.finished crates repo claimed other staged parts) ⟨repo,claimed,some other,.blob⟩ := by
  have recorded := persistPartManifest_grows crates (c.store crates claimed staged) parts
  have grown := (store_grows crates c claimed staged).trans recorded
  have only := grown.only
  obtain ⟨held,found⟩ := store_held crates c claimed staged
  refine ⟨grown.kept,⟨held,recorded.kept claimed held found⟩,⟨⟨.blob,none⟩,rfl,?_⟩,fun name => ?_,fun other member => ?_⟩
  · unfold finished commitFinishedUpload
    simp only
    rw [only]
  · have same : (persistPartManifest crates (c.store crates claimed staged) parts).aliasOf name = c.aliasOf name := by
      rw [only]; rfl
    rw [←same]
    exact aliasPut_get (persistPartManifest crates (c.store crates claimed staged) parts) claimed other name
  · unfold finished commitFinishedUpload
    simp only
    rw [only]
    exact ExtTreeSet.mem_insert.mpr (.inr member)

-- One call: a push that goes through has written that, and one that does not has
-- left the content alone.
theorem push_effect
    (distinguishes : crates.Distinguishes held) (hashed : Names.Hashed crates held s.toContent) (agrees : Names.Agrees s)
    (handles : s.Handles crates held op) (pushes : isPush op = true) :
    match pushOf crates s op with
    | none => (s.step crates op).toContent = s.toContent
    | some push => Pushed s.toContent (s.step crates op).toContent push := by
  cases op with
  | finish id claimed =>
    rcases uploadFinish_cases crates s id claimed with ⟨⟨e,failed⟩,unchanged⟩ | ⟨staged,named,-,content⟩
    · cases found : pushOf crates s (.finish id claimed) with
      | none => exact unchanged
      | some push =>
        simp only [pushOf] at found
        cases live : s.sessions[id]? with
        | none => simp [live] at found
        | some state => cases attached : s.stagedOf id with
          | none => simp [live,attached] at found
          | some entry =>
            obtain ⟨staged,same⟩ := stagedOf_some attached
            by_cases named : crates.Names claimed entry.2
            · rw [←same] at named; rw [(uploadFinish_matched crates staged named).1] at failed
              cases failed
            · simp [live,attached,named] at found
    · have known := (handles _ staged.found).1
      have paired := staged_other distinguishes hashed agrees staged known named
      have pushed : pushOf crates s (.finish id claimed) =
          some ⟨staged.state.repo,claimed,some (otherName crates claimed staged.bytes),.blob⟩ := by
        simp only [pushOf,staged.live,staged.found]; exact if_pos named
      rw [pushed]
      simp only [step]
      rw [content,paired]
      exact finished_pushed ..
  | mount target source asked =>
    simp only [pushOf,step]
    unfold Content.mount
    cases found : s.blobStat source asked with
    | error e => cases e <;> rfl
    | ok stat =>
      obtain ⟨-,bytes,stored,-⟩ := blobStat_ok.mp found
      exact ⟨fun _ _ held => held,⟨bytes,stored.held⟩,⟨(⟨.blob,none⟩ : Link).durable,rfl,rfl⟩,fun _ => rfl,
        fun _ member => ExtTreeSet.mem_insert.mpr (.inr member)⟩
  | manifestPut repo reference mediaType bytes plan =>
    simp only [pushOf,step]
    cases address : putDigest crates reference bytes with
    | error e => unfold OciStore.manifestPut; rw [address]
    | ok digest =>
      by_cases complete : (s.missingReferences repo plan.mustExist).isEmpty = true
      · simp only [complete,if_true]
        rw [(manifestPut_matched crates s repo reference mediaType bytes plan address complete).2]
        have pushed := stored_pushed crates s.toContent repo digest mediaType bytes plan
        cases reference with
        | digest _ => exact pushed
        | tag _ => exact ⟨pushed.kept,pushed.placed,pushed.links,pushed.aliases,pushed.repos⟩
      · simp only [complete,Bool.false_eq_true,if_false]
        unfold OciStore.manifestPut; simp only [address,complete,Bool.not_false,if_true]
  | _ => cases pushes

-- The push takes a name of repository `repo` away: the name is read through its
-- alias there, and the alias moves to a name the repository does not link.
def Takes (c : Content) (push : Push) (repo : RepoName) (name : Digest) : Prop :=
  repo ≠ push.repo ∧ ¬c.Linked repo name ∧ ∃ other,push.other = some other ∧
    ((name = other ∧ ¬c.Linked repo push.stored) ∨ (name = push.stored ∧ ¬c.Linked repo other))

-- The push hides a manifest: the link it is read through becomes a blob's, or the
-- alias it is read through moves to a name that is no manifest's there.
def Hides (c : Content) (push : Push) (repo : RepoName) (name : Digest) : Prop :=
  (repo = push.repo ∧ push.kind = .blob ∧
    (name = push.stored ∨ ¬c.Linked repo name ∧ (push.other = some name ∨ c.aliasOf name = some push.stored))) ∨
  (repo ≠ push.repo ∧ ¬c.Linked repo name ∧ ∃ other,push.other = some other ∧
    ((name = other ∧ ¬c.Candidate repo push.stored) ∨ (name = push.stored ∧ ¬c.Candidate repo other)))

section Pushed
variable {crates : Crates} {held : Bytes → Prop} {c after : Content} {push : Push}

theorem pushed_linked (pushed : Pushed c after push) (repo : RepoName) (name : Digest) :
    after.Linked repo name ↔ (repo = push.repo ∧ name = push.stored) ∨ c.Linked repo name := by
  obtain ⟨written,-,links⟩ := pushed.links
  simp only [GcSafety.linked_iff]
  rw [links]
  simp only [get_insert,Prod.mk.injEq]
  split
  · rename_i same
    exact ⟨fun _ => .inl ⟨same.1.symm,same.2.symm⟩,fun _ => ⟨written,rfl⟩⟩
  · rename_i apart
    exact ⟨.inr,fun either => either.resolve_left fun same => apart ⟨same.1.symm,same.2.symm⟩⟩

variable {repo : RepoName} {name : Digest}

theorem pushed_keeps (pushed : Pushed c after push) (linked : c.Linked repo name) :
    after.Linked repo name := (pushed_linked pushed repo name).mpr (.inr linked)

variable {storedAs : Digest} {bytes : Bytes}

theorem stored_names (hashed : Names.Hashed crates held c)
    (distinguishes : crates.Distinguishes held) (stored : StoredUnder c name storedAs bytes) :
    held bytes ∧ crates.Names name bytes := by
  cases stored with
  | own found => exact hashed.stored name bytes found
  | other missing named found =>
    obtain ⟨known,names⟩ := hashed.stored _ bytes found
    obtain ⟨row,pair⟩ := hashed.paired name _ named
    obtain rfl := names_unique distinguishes known pair.known names pair.right_names
    exact ⟨known,pair.left_names⟩

theorem pushed_stored (distinguishes : crates.Distinguishes held) (before : Names.Hashed crates held c)
    (hashed : Names.Hashed crates held after) (pushed : Pushed c after push)
    (stored : StoredUnder c name storedAs bytes) : ∃ place,StoredUnder after name place bytes := by
  have found : ∃ place bytes',StoredUnder after name place bytes' := by
    cases own : after.blobs[name]? with
    | some file => exact ⟨name,file,.own own⟩
    | none =>
      cases stored with
      | own present => rw [pushed.kept name bytes present] at own; cases own
      | other missing named present =>
        have moved := pushed.aliases name
        obtain ⟨file,placed⟩ := pushed.placed
        cases pair : push.other with
        | none =>
          rw [pair] at moved
          exact ⟨_,bytes,.other own (moved.trans named) (pushed.kept _ bytes present)⟩
        | some other =>
          rw [pair] at moved; simp only at moved
          by_cases here : other = name
          · rw [if_pos here] at moved; exact ⟨_,file,.other own moved placed⟩
          · by_cases there : push.stored = name
            · rw [there,own] at placed; cases placed
            · rw [if_neg here,if_neg there] at moved
              exact ⟨_,bytes,.other own (moved.trans named) (pushed.kept _ bytes present)⟩
  obtain ⟨place,bytes',still⟩ := found
  obtain ⟨known,names⟩ := stored_names before distinguishes stored
  obtain ⟨known',names'⟩ := stored_names hashed distinguishes still
  obtain rfl := names_unique distinguishes known known' names names'
  exact ⟨place,still⟩

theorem away_linked (pushed : Pushed c after push) (away : repo ≠ push.repo) :
    after.Linked repo name ↔ c.Linked repo name := by
  rw [pushed_linked pushed]
  simp [away]

theorem pushed_under (pushed : Pushed c after push) (under : c.LinkedUnder repo name) :
    after.LinkedUnder repo name ↔ ¬Takes c push repo name := by
  have moved := pushed.aliases name
  constructor
  · intro still ⟨away,unlinked,other,pair,sides⟩
    rw [pair] at moved
    simp only at moved
    rcases still with own | ⟨place,named,reached⟩
    · exact unlinked ((away_linked pushed away).mp own)
    · rw [away_linked pushed away] at reached
      rcases sides with ⟨rfl,absent⟩ | ⟨rfl,absent⟩
      · rw [if_pos rfl] at moved
        obtain rfl := Option.some.inj (moved.symm.trans named)
        exact absent reached
      · by_cases same : other = push.stored
        · rw [if_pos same] at moved
          obtain rfl := Option.some.inj (moved.symm.trans named)
          exact unlinked reached
        · rw [if_neg same,if_pos rfl] at moved
          obtain rfl := Option.some.inj (moved.symm.trans named)
          exact absent reached
  · intro kept
    by_cases own : c.Linked repo name
    · exact .inl (pushed_keeps pushed own)
    · rcases under with direct | ⟨place,named,reached⟩
      · exact absurd direct own
      · cases pair : push.other with
        | none =>
          rw [pair] at moved; exact .inr ⟨place,moved.trans named,pushed_keeps pushed reached⟩
        | some other =>
          rw [pair] at moved; simp only at moved
          have here : repo = push.repo → after.Linked repo push.stored := fun same =>
            (pushed_linked pushed repo push.stored).mpr (.inl ⟨same,rfl⟩)
          by_cases first : other = name
          · rw [if_pos first] at moved
            refine .inr ⟨push.stored,moved,?_⟩
            by_contra absent
            have away : repo ≠ push.repo := fun same => absent (here same)
            exact kept ⟨away,own,other,pair,.inl ⟨first.symm,fun linked => absent (pushed_keeps pushed linked)⟩⟩
          · rw [if_neg first] at moved
            by_cases second : push.stored = name
            · rw [if_pos second] at moved
              by_cases same : repo = push.repo
              · exact .inl (second ▸ here same)
              · refine .inr ⟨other,moved,?_⟩
                by_contra absent
                exact kept ⟨same,own,other,pair,.inr ⟨second.symm,fun linked => absent (pushed_keeps pushed linked)⟩⟩
            · rw [if_neg second] at moved
              exact .inr ⟨place,moved.trans named,pushed_keeps pushed reached⟩

theorem pushed_reads (distinguishes : crates.Distinguishes held) (before : Names.Hashed crates held c)
    (hashed : Names.Hashed crates held after) (pushed : Pushed c after push)
    (reads : c.Reads repo name bytes) : after.Reads repo name bytes ↔ ¬Takes c push repo name := by
  obtain ⟨under,storedAs,stored⟩ := reads_iff.mp reads
  rw [reads_iff,pushed_under pushed under]
  exact and_iff_left (pushed_stored distinguishes before hashed pushed stored)

theorem manifestLink_iff : c.manifestLink repo name = some link ↔ c.links[(repo,name)]? = some link ∨
      ¬c.Linked repo name ∧ ∃ other,c.aliasOf name = some other ∧ c.links[(repo,other)]? = some link := by
  unfold manifestLink Linked linkGet
  cases own : c.links[(repo,name)]? with
  | some row => simp
  | none => cases named : c.aliasOf name <;> simp

theorem manifest_candidate : (∃ link,c.manifestLink repo name = some link ∧ link.kind ≠ .blob) ↔ c.Candidate repo name ∨
      ¬c.Linked repo name ∧ ∃ other,c.aliasOf name = some other ∧ c.Candidate repo other := by
  simp only [manifestLink_iff]
  constructor
  · rintro ⟨link,own | ⟨unlinked,other,named,found⟩,kind⟩
    · exact .inl ⟨link,own,kind⟩
    · exact .inr ⟨unlinked,other,named,link,found,kind⟩
  · rintro (⟨link,own,kind⟩ | ⟨unlinked,other,named,link,found,kind⟩)
    · exact ⟨link,.inl own,kind⟩
    · exact ⟨link,.inr ⟨unlinked,other,named,found⟩,kind⟩

theorem pushed_candidate (pushed : Pushed c after push) (repo : RepoName) (name : Digest) : after.Candidate repo name ↔
      if repo = push.repo ∧ name = push.stored then push.kind ≠ .blob else c.Candidate repo name := by
  obtain ⟨written,kind,links⟩ := pushed.links
  unfold Candidate
  rw [links]
  simp only [get_insert,Prod.mk.injEq]
  split
  · rename_i same
    rw [if_pos ⟨same.1.symm,same.2.symm⟩]
    constructor
    · rintro ⟨link,found,manifest⟩
      cases found
      exact kind ▸ manifest
    · exact fun manifest => ⟨written,rfl,kind ▸ manifest⟩
  · rename_i apart
    rw [if_neg fun same => apart ⟨same.1.symm,same.2.symm⟩]

theorem candidate_linked {c : Content} {repo : RepoName} {name : Digest} (manifest : c.Candidate repo name) :
    c.Linked repo name := by
  obtain ⟨link,row,-⟩ := manifest
  exact GcSafety.linked_iff.mpr ⟨link,row⟩

theorem pushed_manifest (pushed : Pushed c after push)
    (manifest : ∃ link,c.manifestLink repo name = some link ∧ link.kind ≠ .blob) :
    (∃ link,after.manifestLink repo name = some link ∧ link.kind ≠ .blob) ↔ ¬Hides c push repo name := by
  have moved := pushed.aliases name
  rw [manifest_candidate] at manifest ⊢
  simp only [pushed_candidate pushed,pushed_linked pushed]
  unfold Hides
  have own := @candidate_linked c repo name
  by_cases here : repo = push.repo
  · by_cases stored : name = push.stored
    · simp only [here,stored,true_and,true_or,if_true,not_true,false_and,or_false,and_true,ne_eq]
    · cases pair : push.other with
      | none =>
        rw [pair] at moved; simp only [moved,here,stored]
        grind
      | some other =>
        rw [pair] at moved; simp only at moved
        grind
  · cases pair : push.other with
    | none =>
      rw [pair] at moved
      simp only [moved,here]
      grind
    | some other =>
      rw [pair] at moved
      simp only at moved
      grind

end Pushed

-- What a push owes a name of a repository: it reads the same bytes as a blob, and
-- as a manifest.
def Unharmed (s t : OciStore) (repo : RepoName) (name : Digest) : Prop :=
  (∀ bytes,s.Reads repo name bytes → t.Reads repo name bytes) ∧
  ∀ manifest,(s.manifestGet repo (.digest name)).1 = .ok manifest →
    ∃ after,(t.manifestGet repo (.digest name)).1 = .ok after ∧ after.bytes = manifest.bytes

theorem manifestGet_ok {s : OciStore} :
    (s.manifestGet repo (.digest name)).1 = .ok manifest ↔ repo ∈ s.repos ∧ s.manifestRead repo name = .ok manifest := by
  unfold manifestGet
  by_cases listed : repo ∈ s.repos
  · simp [listed]
  · simp [listed]

-- A push leaves a name of a repository unharmed exactly when it neither takes it
-- from where it reads nor hides it where it is a manifest.
theorem push_unharmed_iff {crates : Crates} {held : Bytes → Prop} {s : OciStore} {op : Op}
    (distinguishes : crates.Distinguishes held) (reached : OciStore.Reachable crates held s)
    (handles : s.Handles crates held op) (pushes : isPush op = true) (repo : RepoName) (name : Digest) :
    Unharmed s (s.step crates op) repo name ↔ ∀ push,pushOf crates s op = some push →
      ((∃ bytes,s.Reads repo name bytes) → ¬Takes s.toContent push repo name) ∧
      ((∃ manifest,(s.manifestGet repo (.digest name)).1 = .ok manifest) → ¬Hides s.toContent push repo name) := by
  obtain ⟨hashed,agrees⟩ := reached_hashed distinguishes reached
  have allowed : s.Allowed op := by cases op <;> trivial
  have after := step_hashed distinguishes hashed agrees allowed handles
  have effect := push_effect distinguishes hashed agrees handles pushes
  unfold Unharmed
  simp only [manifestGet_ok]
  cases found : pushOf crates s op with
  | none =>
    rw [found] at effect
    simp only at effect
    rw [effect]
    simp only [reduceCtorEq,false_implies,implies_true,iff_true]
    exact ⟨fun _ reads => reads,fun manifest read => ⟨manifest,read,rfl⟩⟩
  | some push =>
    rw [found] at effect
    simp only at effect
    simp only [Option.some.injEq,forall_eq']
    apply and_congr
    · constructor
      · rintro kept ⟨bytes,reads⟩
        exact (pushed_reads distinguishes hashed after effect reads).mp (kept bytes reads)
      · intro kept bytes reads
        exact (pushed_reads distinguishes hashed after effect reads).mpr (kept ⟨bytes,reads⟩)
    · constructor
      · rintro kept ⟨manifest,listed,read⟩
        obtain ⟨link,storedAs,bytes,linked,kind,-⟩ := manifestRead_ok.mp read
        obtain ⟨still,⟨-,read'⟩,-⟩ := kept manifest ⟨listed,read⟩
        obtain ⟨row,-,-,present,manifest',-⟩ := manifestRead_ok.mp read'
        exact (pushed_manifest effect ⟨link,linked,kind⟩).mp ⟨row,present,manifest'⟩
      · rintro kept manifest ⟨listed,read⟩
        obtain ⟨link,storedAs,bytes,linked,kind,stored,small,rfl⟩ := manifestRead_ok.mp read
        obtain ⟨row,present,manifest'⟩ := (pushed_manifest effect ⟨link,linked,kind⟩).mpr (kept ⟨_,listed,read⟩)
        obtain ⟨place,still⟩ := pushed_stored distinguishes hashed after effect stored
        exact ⟨_,⟨effect.repos repo listed,manifestRead_ok.mpr ⟨row,place,bytes,present,manifest',still,small,rfl⟩⟩,rfl⟩

section Runs
open Sample

def layered : List Op := Sample.push app first layer .sha256 ++ (Sample.push base second layer .sha512).dropLast
def crossing : Op := .finish second (name .sha512 layer)

theorem layered_reachable : OciStore.Reachable crates Held (after layered) := .run (.start rfl) (by decide)

theorem crossing_harms : ¬Unharmed (after layered) ((after layered).step crates crossing) app (name .blake3 layer) := by
  intro unharmed
  have before : (after layered).Reads app (name .blake3 layer) layer := ⟨⟨1,name .sha256 layer⟩,by decide +kernel⟩
  obtain ⟨stat,still⟩ := unharmed.1 layer before
  have gone : ((after layered).step crates crossing).blobStat app (name .blake3 layer) =
      .error (notHere app (name .blake3 layer)) := by decide +kernel
  rw [blobOpen,gone] at still
  cases still

def beside : List Op := .manifestPut app (.tag latest) defaultMediaType plainManifest plain ::
  (Sample.push app first plainManifest .sha256).dropLast
def covering : Op := .finish first (name .sha256 plainManifest)

theorem beside_reachable : OciStore.Reachable crates Held (after beside) := .run (.start rfl) (by decide)

theorem covering_harms :
    ¬Unharmed (after beside) ((after beside).step crates covering) app (name .sha256 plainManifest) := by
  intro unharmed
  obtain ⟨again,read,-⟩ := unharmed.2 ⟨name .sha256 plainManifest,defaultMediaType,plainManifest⟩ (by decide)
  have gone : (((after beside).step crates covering).manifestGet app (.digest (name .sha256 plainManifest))).1 =
      .error (notHere app (name .sha256 plainManifest)) := by decide +kernel
  rw [gone] at read
  cases read

theorem push_harms_names : (OciStore.Reachable crates Held (after layered) ∧
      ¬Unharmed (after layered) ((after layered).step crates crossing) app (name .blake3 layer)) ∧
    OciStore.Reachable crates Held (after beside) ∧
      ¬Unharmed (after beside) ((after beside).step crates covering) app (name .sha256 plainManifest) :=
  ⟨⟨layered_reachable,crossing_harms⟩,beside_reachable,covering_harms⟩

theorem crossing_takes : ¬∀ push,pushOf crates (after layered) crossing = some push →
    ((∃ bytes,(after layered).Reads app (name .blake3 layer) bytes) →
      ¬Takes (after layered).toContent push app (name .blake3 layer)) ∧
    ((∃ manifest,((after layered).manifestGet app (.digest (name .blake3 layer))).1 = .ok manifest) →
      ¬Hides (after layered).toContent push app (name .blake3 layer)) := fun condition =>
  crossing_harms ((push_unharmed_iff distinguishes layered_reachable (by decide) rfl app (name .blake3 layer)).mpr
    condition)

end Runs
end Isolation
end HologramLive
