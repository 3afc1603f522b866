import HologramLive.Artifact.ReferenceGrammar
import HologramLive.Oci.ImportManifests
namespace HologramLive.Import
open Tables Fallible List

section Tags
variable {w : World} {v : Volume} {root : Path} {found : List Str} {c₀ c₁ : Content} {repo : RepoName}
variable {j j' : Importing} {kept : OciStore → Prop}

theorem dueTag_none {tag : Tag} (asked : tagAsked v root found repo tag = none) :
    dueTag w.toReading v root found c₀ repo tag = c₀.tags[(repo,tag)]? := by
  unfold dueTag
  rw [asked]

open Classical in
theorem dueTag_some {tag : Tag} (asked : tagAsked v root found repo tag = some digest) :
    dueTag w.toReading v root found c₀ repo tag =
      if (∃ link ∈ finalLink w.toReading v root found c₀ repo digest,link.kind ≠ .blob) ∧
        (c₀.tags[(repo,tag)]?).map (·.kappa) ≠ some digest then some (entryFor c₀ repo tag digest)
      else c₀.tags[(repo,tag)]? := by
  unfold dueTag
  rw [asked]

theorem tagResolve_iff {c : Content} {tag : Tag} :
    (c.tagResolve repo tag).toOption = some digest ↔ (c.tags[(repo,tag)]?).map (·.kappa) = some digest := by
  unfold Content.tagResolve
  cases c.tags[(repo,tag)]? with
  | none => simp [Except.toOption]
  | some entry => simp [Except.toOption]

theorem Between.tag_there (between : Between w.toReading v root found c₀ c₁ c) {tag : Tag}
    (asked : tagAsked v root found repo tag = some digest) (there : (c.tags[(repo,tag)]?).map (·.kappa) = some digest) :
    c.tags[(repo,tag)]? = dueTag w.toReading v root found c₀ repo tag := by
  rcases between.tags repo tag with same | due
  · rw [same] at there ⊢
    rw [dueTag_some asked,if_neg fun both => both.2 there]
  · exact due

theorem Between.tag_start (between : Between w.toReading v root found c₀ c₁ c) {tag : Tag}
    (asked : tagAsked v root found repo tag = some digest) (other : (c.tags[(repo,tag)]?).map (·.kappa) ≠ some digest) :
    c.tags[(repo,tag)]? = c₀.tags[(repo,tag)]? := by
  rcases between.tags repo tag with same | due
  · exact same
  · rw [dueTag_some asked] at due
    split at due
    · rw [due] at other
      exact absurd rfl other
    · exact due

theorem Between.untagged (between : Between w.toReading v root found c₀ c₁ c) {tag : Tag}
    (asked : tagAsked v root found repo tag = none) : c.tags[(repo,tag)]? = dueTag w.toReading v root found c₀ repo tag := by
  rcases between.tags repo tag with same | due
  · rw [same,dueTag_none asked]
  · exact due

-- The link a tag of the tree is set by, or left alone for want of.
theorem Between.linkFor (between : Between w.toReading v root found c₀ c₁ s.toContent)
    (complete : Complete w v root c₀ repo s) (digest : Digest) :
    finalLink w.toReading v root found c₀ repo digest = s.linkGet repo digest ∨
      (s.linkGet repo digest = none ∧ finalLink w.toReading v root found c₀ repo digest = none) := by
  cases held : s.linkGet repo digest with
  | some link => exact .inl (between.final held)
  | none =>
    refine .inr ⟨rfl,?_⟩
    unfold finalLink
    cases first : c₀.linkGet repo digest with
    | some link => rw [between.kept repo digest link first] at held; cases held
    | none =>
      refine if_neg fun wanted => ?_
      obtain ⟨link,there⟩ := linkGet_of_linked (complete digest wanted.2)
      rw [held] at there
      cases there

def Tagging (w : World) (v : Volume) (root : Path) (found : List Str) (c₀ : Content) (repo : RepoName)
    (kept : OciStore → Prop) (done : List Str) (s : OciStore) : Prop :=
  kept s ∧ Complete w v root c₀ repo s ∧
    ∀ name ∈ done,∀ tag : Tag,tag.text = name → s.tags[(repo,tag)]? = dueTag w.toReading v root found c₀ repo tag

theorem tagging_lasting (lasting : Lasting w v root found c₀ c₁ kept) (done : List Str) :
    Lasting w v root found c₀ c₁ (Tagging w v root found c₀ repo kept done) := by
  rintro s after grown ⟨holds,complete,tagged⟩
  exact ⟨lasting s after grown holds,complete_lasting s after grown complete,fun name member tag text =>
    grown.tagged repo tag (tagged name member tag text)⟩

theorem Tagging.next (tagging : Tagging w v root found c₀ repo kept done s)
    (tagged : ∀ tag : Tag,tag.text = name → s.tags[(repo,tag)]? = dueTag w.toReading v root found c₀ repo tag) :
    Tagging w v root found c₀ repo kept (done ++ [name]) s := by
  refine ⟨tagging.1,tagging.2.1,fun other member tag text => ?_⟩
  rcases mem_append.mp member with before | last
  · exact tagging.2.2 other before tag text
  · rw [mem_singleton.mp last] at text
    exact tagged tag text

theorem tagSet_answers (s : OciStore) (repo : RepoName) (tag : Tag) (digest : Digest) :
    ((∀ link,s.linkGet repo digest = some link → link.kind = .blob) ∧
      tagSet s repo tag digest = (.error (Content.notHere repo digest),s)) ∨
    ∃ link,s.linkGet repo digest = some link ∧ link.kind ≠ .blob ∧
      tagSet s repo tag digest = (.ok (),{s.namespaceResolveOrCreate repo with toContent := s.toContent.tagSet repo tag digest}) := by
  unfold tagSet
  cases held : s.linkGet repo digest with
  | none => exact .inl ⟨(fun _ none => by cases none),rfl⟩
  | some link =>
    dsimp only
    by_cases kind : link.kind = .blob
    · rw [if_pos kind]
      refine .inl ⟨fun other same => ?_,rfl⟩
      cases same
      exact kind
    · rw [if_neg kind]
      exact .inr ⟨link,rfl,kind,rfl⟩

theorem tag_run (lasting : Lasting w v root found c₀ c₁ kept) (named : repo.text ∈ found) {done names : List Str} {name : Str}
    (listed : readDir v (tagsDir root repo) = .ok names) (member : name ∈ names)
    (ran : tag v repo (tagsDir root repo) j name = .ok j') :
    Run w v root found c₀ c₁ (Tagging w v root found c₀ repo kept done) j
      (Tagging w v root found c₀ repo kept (done ++ [name])) j' := by
  unfold tag at ran
  dsimp only at ran
  split at ran
  · rename_i e bad
    cases ran
    refine .reported (.idle rfl rfl fun _ _ tagging => tagging.next fun tag text => ?_)
    have parsed : Tag.parse tag.text = .ok tag := by unfold Tag.parse; rw [dif_pos tag.valid]
    rw [text,bad] at parsed
    cases parsed
  · rename_i tag parsed
    have text : tag.text = name := by
      unfold Tag.parse at parsed
      split at parsed
      · cases parsed; rfl
      · cases parsed
    have only (other : Tag) (same : other.text = name) : other = tag := Tag.text_injective (same.trans text.symm)
    have listing : tagNames v root repo = names := by unfold tagNames; rw [listed]
    have asked : tagAsked v root found repo tag =
        (tagLink v (tagsDir root repo ++ [name] ++ ["current".toList,"link".toList])).toOption := by
      unfold tagAsked
      rw [text,listing]
      exact if_pos ⟨named,member⟩
    split at ran
    · rename_i detail bad
      cases ran
      rw [bad] at asked
      refine .reported (.idle rfl rfl fun _ between tagging => tagging.next fun other same => ?_)
      rw [only other same]
      exact between.untagged asked
    · rename_i digest ok
      rw [ok] at asked
      have resolved : Run w v root found c₀ c₁ (Tagging w v root found c₀ repo kept done) j
          (Tagging w v root found c₀ repo kept done) (j.wrote (j.store.namespaceResolveOrCreate repo)) :=
        .aside rfl rfl rfl fun _ _ grown tagging => tagging_lasting lasting done _ _ grown tagging
      refine resolved.trans ?_
      split at ran
      · rename_i there; cases ran
        refine .idle rfl rfl fun _ between tagging => tagging.next fun other same => ?_
        rw [only other same]; exact between.tag_there asked (tagResolve_iff.mp there)
      · rename_i other
        have moved := mt tagResolve_iff.mpr other
        rcases tagSet_answers (j.store.namespaceResolveOrCreate repo) repo tag digest with ⟨absent,answer⟩ | ⟨link,held,kind,answer⟩
        · rw [show (j.wrote (j.store.namespaceResolveOrCreate repo)).store = j.store.namespaceResolveOrCreate repo from rfl,
            answer] at ran
          cases ran
          refine .reported (.idle rfl rfl fun _ between tagging => tagging.next fun other_ same => ?_)
          rw [only other_ same]
          refine (between.tag_start asked moved).trans ?_
          rw [dueTag_some asked,if_neg]
          rintro ⟨⟨link,ends,kind⟩,-⟩
          rcases between.linkFor tagging.2.1 digest with same | ⟨-,none⟩
          · exact kind (absent link (same.symm.trans ends))
          · rw [none] at ends; cases ends
        · rw [show (j.wrote (j.store.namespaceResolveOrCreate repo)).store = j.store.namespaceResolveOrCreate repo from rfl,
            answer] at ran
          cases ran
          refine .reported (.single fun _ between tagging calm => ?_)
          have start := between.tag_start asked moved
          have due : dueTag w.toReading v root found c₀ repo tag = some (entryFor c₀ repo tag digest) := by
            rw [dueTag_some asked,if_pos ⟨⟨link,between.final held,kind⟩,by rw [←start]; exact moved⟩]
          have entry : entryFor c₀ repo tag digest = entryFor (j.store.namespaceResolveOrCreate repo).toContent repo tag digest := by
            have same : (j.store.namespaceResolveOrCreate repo).tags[(repo,tag)]? = c₀.tags[(repo,tag)]? := start
            unfold entryFor; rw [same]
          have set : (Content.tagSet (j.store.namespaceResolveOrCreate repo).toContent repo tag digest).tags =
              (j.store.namespaceResolveOrCreate repo).tags.insert (repo,tag) (entryFor c₀ repo tag digest) := by
            rw [entry]; rfl
          have tags (other : RepoName) (name : Tag) :
              (Content.tagSet (j.store.namespaceResolveOrCreate repo).toContent repo tag digest).tags[(other,name)]? =
                if (repo,tag) = (other,name) then some (entryFor c₀ repo tag digest)
                else (j.store.namespaceResolveOrCreate repo).tags[(other,name)]? := by
            rw [set,get_insert]
          have grown : Grown w.toReading v root found c₀ c₁ (j.store.namespaceResolveOrCreate repo).toContent
              (Content.tagSet (j.store.namespaceResolveOrCreate repo).toContent repo tag digest) := by
            refine ⟨fun _ _ linked => linked,fun other name there => ?_,fun _ => rfl⟩
            rw [tags]; split
            · rename_i equal
              obtain ⟨rfl,rfl⟩ := Prod.mk.inj equal
              exact due.symm
            · exact there
          refine ⟨?_,between.tag due.symm rfl rfl rfl set,grown⟩
          refine Tagging.next (tagging_lasting lasting done (j.store.namespaceResolveOrCreate repo) _ grown tagging) ?_
          intro other same; rw [only other same]
          show (Content.tagSet (j.store.namespaceResolveOrCreate repo).toContent repo tag digest).tags[(repo,tag)]? = _
          rw [tags,if_pos rfl,due]

def Tagged (w : World) (v : Volume) (root : Path) (found : List Str) (c₀ : Content) (repo : RepoName) (s : OciStore) : Prop :=
  ∀ tag,s.tags[(repo,tag)]? = dueTag w.toReading v root found c₀ repo tag

def Reached (w : World) (v : Volume) (root : Path) (found : List Str) (c₀ : Content) (repo : RepoName) (s : OciStore) : Prop :=
  Complete w v root c₀ repo s ∧ Tagged w v root found c₀ repo s

theorem reached_lasting : Lasting w v root found c₀ c₁ (Reached w v root found c₀ repo) :=
  fun s after grown reached => ⟨complete_lasting s after grown reached.1,fun tag => grown.tagged repo tag (reached.2 tag)⟩

theorem tags_run (lasting : Lasting w v root found c₀ c₁ kept) (named : repo.text ∈ found)
    (ran : tags v root repo j = .ok j') : Run w v root found c₀ c₁ (fun s => kept s ∧ Complete w v root c₀ repo s) j
      (fun s => kept s ∧ Reached w v root found c₀ repo s) j' := by
  unfold tags at ran
  dsimp only at ran
  split at ran
  · rename_i e shut
    cases ran
    refine .idle rfl rfl fun _ between holds => ⟨holds.1,holds.2,fun tag => between.untagged (if_neg ?_)⟩
    rintro ⟨-,member⟩
    rw [tagNames,tagsDir,shut] at member
    cases member
  · rename_i names listed
    have looped : Run w v root found c₀ c₁ (Tagging w v root found c₀ repo kept []) j
        (Tagging w v root found c₀ repo kept names) j' :=
      @Run.fold w v root found c₀ c₁ _ _ id (tag v repo (tagsDir root repo)) (fun done _ => Tagging w v root found c₀ repo kept done)
        _ (fun done name member acc next step => tag_run lasting named listed member step) [] _ _ ran
    obtain ⟨new,past,run⟩ := looped
    refine ⟨new,past,fun calm between holds calms => ?_⟩
    obtain ⟨tagging,calm',between',betweens,grown⟩ := run calm between ⟨holds.1,holds.2,fun _ none => by cases none⟩ calms
    refine ⟨⟨tagging.1,tagging.2.1,fun tag => ?_⟩,calm',between',betweens,grown⟩
    by_cases member : tag.text ∈ names
    · exact tagging.2.2 tag.text member tag rfl
    · refine between'.untagged (if_neg ?_)
      rintro ⟨-,inside⟩
      rw [tagNames,tagsDir,listed] at inside
      exact member inside

def Through (w : World) (v : Volume) (root : Path) (found : List Str) (c₀ : Content) (done : List Str) (s : OciStore) : Prop :=
  ∀ repo : RepoName,repo.text ∈ done → Reached w v root found c₀ repo s

theorem through_lasting (done : List Str) : Lasting w v root found c₀ c₁ (Through w v root found c₀ done) :=
  fun s after grown through repo member => reached_lasting s after grown (through repo member)

theorem repository_run (member : name ∈ found) (ran : repository w v root j name = .ok j') :
    Run w v root found c₀ c₁ (Through w v root found c₀ done) j (Through w v root found c₀ (done ++ [name])) j' := by
  unfold repository at ran
  split at ran
  · rename_i e bad
    cases ran
    refine .reported (.idle rfl rfl fun _ _ through repo inside => ?_)
    rcases mem_append.mp inside with before | last
    · exact through repo before
    · have parsed : RepoName.parse repo.text = .ok repo := by unfold RepoName.parse; rw [dif_pos repo.valid]
      rw [mem_singleton.mp last,bad] at parsed
      cases parsed
  · rename_i repo parsed
    have text : repo.text = name := by
      unfold RepoName.parse at parsed
      split at parsed
      · cases parsed; rfl
      · cases parsed
    have named : repo.text ∈ found := text ▸ member
    obtain ⟨first,layered,ran⟩ := bind_ok ran
    obtain ⟨second,manifested,tagged⟩ := bind_ok ran
    have lasting := @through_lasting w v root found c₀ c₁ done
    have run := ((layers_run lasting named layered).trans (manifests_run lasting named manifested)).trans
      (tags_run lasting named tagged)
    refine Run.trans (.idle rfl rfl fun _ _ through => through) (run.mono (fun _ _ through => through) fun s ends other inside => ?_)
    rcases mem_append.mp inside with before | last
    · exact ends.1 other before
    · have same : other = repo := RepoName.text_injective ((mem_singleton.mp last).trans text.symm)
      rw [same]
      exact ends.2

end Tags

section Again
variable {w : World} {v : Volume} {source : Path} {found : List Str} {c₀ c₁ : Content} {s : OciStore} {j : Importing}

theorem import_run (named : names v source = .ok found) (ran : «import» w v source s = .ok j) :
    Run w v (v2 source) found c₀ c₁ (fun _ => True) (start s) (Through w v (v2 source) found c₀ found) j := by
  obtain ⟨names_,found_,ran⟩ := bind_ok ran
  cases named.symm.trans found_
  have looped : Run w v (v2 source) found c₀ c₁ (Through w v (v2 source) found c₀ []) (start s)
      (Through w v (v2 source) found c₀ found) j :=
    @Run.fold w v (v2 source) found c₀ c₁ _ _ id (repository w v (v2 source)) (fun done _ => Through w v (v2 source) found c₀ done)
      _ (fun done name member acc next step => repository_run member step) [] _ _ ran
  exact looped.mono (fun _ _ _ _ none => by cases none) fun _ ends => ends

theorem Between.ended (between : Between w.toReading v (v2 source) found c₀ c₁ s.toContent)
    (through : Through w v (v2 source) found c₀ found s) :
    (∀ repo digest,s.linkGet repo digest = finalLink w.toReading v (v2 source) found c₀ repo digest) ∧
      ∀ (repo : RepoName) (tag : Tag),s.tags[(repo,tag)]? = dueTag w.toReading v (v2 source) found c₀ repo tag := by
  refine ⟨fun repo digest => ?_,fun repo tag => ?_⟩
  · by_cases named : repo.text ∈ found
    · rcases between.linkFor (through repo named).1 digest with same | ⟨absent,none⟩
      · exact same.symm
      · rw [absent,none]
    · cases held : s.linkGet repo digest with
      | some link => exact (between.final held).symm
      | none =>
        unfold finalLink
        cases first : c₀.linkGet repo digest with
        | some link => rw [between.kept repo digest link first] at held; cases held
        | none => exact (if_neg fun wanted => named wanted.1).symm
  · by_cases named : repo.text ∈ found
    · exact (through repo named).2 tag
    · exact between.untagged (if_neg fun both => named both.1)

-- Where the alias table answers alike throughout, an import that is stopped
-- anywhere and run again, from whatever reached the disk, ends where the whole one
-- does, and one that follows a whole one adds nothing.
theorem import_again (w : World) (draw : OciStore → UploadId) (clock : OciStore → Nat) (v : Volume) (source : Path)
    (s : OciStore) {whole : Importing} (ran : «import» w v source s = .ok whole)
    (calm : ∀ t ∈ s :: whole.past,Calm w v (v2 source) s.toContent t) {stopped again : OciStore}
    (stop : stopped = whole.store ∨ stopped ∈ s :: whole.past) (same : again.toContent = stopped.toContent) {rerun : Importing}
    (reran : «import» ⟨w.toReading,draw,clock⟩ v source again = .ok rerun)
    (calm' : ∀ t ∈ again :: rerun.past,Calm ⟨w.toReading,draw,clock⟩ v (v2 source) s.toContent t) :
    rerun.store.links = whole.store.links ∧ rerun.store.tags = whole.store.tags ∧
      (∀ repo digest link,whole.store.linkGet repo digest = some link → s.linkGet repo digest = none → link.kind ≠ .blob →
        (whole.store.blobs[digest]?).isSome ∧ (rerun.store.blobs[digest]?).isSome) ∧
      (stopped = whole.store → rerun.store.blobs = whole.store.blobs) := by
  obtain ⟨found,named,-⟩ := bind_ok ran
  obtain ⟨calmStart,calms⟩ := forall_mem_cons.mp calm
  obtain ⟨calmAgain,calms'⟩ := forall_mem_cons.mp calm'
  obtain ⟨new,past,run⟩ := @import_run w v source found s.toContent s.toContent s whole named ran
  rw [show whole.past = new from past] at calms stop
  obtain ⟨through,-,between,betweens,-⟩ := run calmStart (.refl _) trivial calms
  have reached : Between w.toReading v (v2 source) found s.toContent s.toContent stopped.toContent := by
    rcases stop with rfl | here
    · exact between
    · rcases mem_cons.mp here with rfl | later
      · exact .refl _
      · exact betweens stopped later
  obtain ⟨new',past',run'⟩ := @import_run ⟨w.toReading,draw,clock⟩ v source found s.toContent again.toContent again rerun named reran
  rw [show rerun.past = new' from past'] at calms'
  have begins : Between w.toReading v (v2 source) found s.toContent again.toContent again.toContent := by
    rw [same]
    exact reached.again
  obtain ⟨through',-,between',-,grown⟩ := run' calmAgain begins trivial calms'
  obtain ⟨links,tags⟩ := between.ended through
  obtain ⟨links',tags'⟩ := between'.ended through'
  refine ⟨table_ext fun key => ?_,table_ext fun key => ?_,fun repo digest link held fresh kind => ?_,fun ended => ?_⟩
  · exact (links' key.1 key.2).trans (links key.1 key.2).symm
  · exact (tags' key.1 key.2).trans (tags key.1 key.2).symm
  · refine ⟨Option.isSome_iff_exists.mpr (between.held repo digest link held fresh kind),?_⟩
    have held' : rerun.store.linkGet repo digest = some link := (links' repo digest).trans ((links repo digest).symm.trans held)
    exact Option.isSome_iff_exists.mpr (between'.held repo digest link held' fresh kind)
  · have settled : AllDue w.toReading v (v2 source) found s.toContent again.toContent := by
      intro repo digest wanted
      rw [same,ended]
      exact (through repo wanted.1).1 digest wanted.2
    have blobs := grown.settled settled
    rw [blobs]
    show again.blobs = _
    rw [same,ended]

end Again

namespace Sample
open HologramLive.Sample

def twin : Digest := name .sha512 plainManifest
def source : Path := ["old".toList]
def appDir : Path := v2 source ++ ["repositories".toList,"app".toList]
def revisionsDir : Path := appDir ++ [manifestsDir,"revisions".toList]
def latestDir : Path := appDir ++ [manifestsDir,"tags".toList,"latest".toList]
def dirs : List Path := [v2 source ++ ["blobs".toList],appDir.dropLast,appDir,appDir ++ [manifestsDir],revisionsDir,
  revisionsDir ++ ["sha512".toList],revisionsDir ++ ["sha512".toList,twin.hex],appDir ++ [manifestsDir,"tags".toList],latestDir,
  latestDir ++ ["current".toList]]
def files : List (Path × Bytes) := [(blobData (v2 source) twin,plainManifest),
  (revisionsDir ++ ["sha512".toList,twin.hex,"link".toList],toUtf8 twin.asStr),
  (latestDir ++ ["current".toList,"link".toList],toUtf8 twin.asStr)]
def tree : Volume :=
  files.foldl (fun v row => v.insert row.1 (.file row.2)) (dirs.foldl (fun v path => v.insert path .dir) ∅)
def world : World := ⟨⟨crates,fun mediaType _ => .ok (mediaType,HologramLive.Sample.plain)⟩,fun _ => first,fun _ => 0⟩

def pushed : OciStore :=
  after [.manifestPut app (.digest (name .blake3 plainManifest)) defaultMediaType plainManifest HologramLive.Sample.plain]

theorem pushed_reachable : OciStore.Reachable crates Held pushed := .run (.start rfl) (by decide)

def stops (w : World) (v : Volume) (source : Path) (s : OciStore) (writes : Nat) : Option (Importing × OciStore × Importing) := do
  let whole ← («import» w v source s).toOption
  let stopped ← whole.past[writes]?
  let rerun ← («import» w v source stopped.restart).toOption
  return (whole,stopped,rerun)

theorem stops_some {w : World} {v : Volume} {source : Path} {s : OciStore} {writes : Nat} {whole rerun : Importing}
    {stopped : OciStore} (found : stops w v source s writes = some (whole,stopped,rerun)) :
    «import» w v source s = .ok whole ∧ stopped ∈ whole.past ∧ «import» w v source stopped.restart = .ok rerun := by
  obtain ⟨first,ran,found⟩ := Option.bind_eq_some_iff.mp found
  obtain ⟨middle,there,found⟩ := Option.bind_eq_some_iff.mp found
  obtain ⟨second,reran,found⟩ := Option.bind_eq_some_iff.mp found
  cases found
  exact ⟨ok_of_toOption ran,mem_of_getElem? there,ok_of_toOption reran⟩

-- A kill between the alias rows and the link leaves a manifest that looks linked, so
-- that the next import skips it and drops its tag.
theorem stopped_import_loses_tag : OciStore.Reachable crates Held pushed ∧
    ∃ whole stopped rerun,«import» world tree source pushed = .ok whole ∧ stopped ∈ whole.past ∧
      «import» world tree source stopped.restart = .ok rerun ∧
      whole.store.links ≠ rerun.store.links ∧ whole.store.tags ≠ rerun.store.tags := by
  refine ⟨pushed_reachable,?_⟩
  have shown : (stops world tree source pushed 2).any (fun run => (run.1.store.links[(app,twin)]?).isSome &&
      (run.2.2.store.links[(app,twin)]?).isNone && (run.1.store.tags[(app,latest)]?).isSome &&
      (run.2.2.store.tags[(app,latest)]?).isNone) = true := by decide +kernel
  obtain ⟨⟨whole,stopped,rerun⟩,found,seen⟩ := (Option.any_eq_true _ _).mp shown
  obtain ⟨ran,stop,reran⟩ := stops_some found
  simp only [Bool.and_eq_true] at seen
  obtain ⟨⟨⟨linked,unlinked⟩,tagged⟩,untagged⟩ := seen
  refine ⟨whole,stopped,rerun,ran,stop,reran,fun same => ?_,fun same => ?_⟩
  · rw [same,Option.isNone_iff_eq_none.mp unlinked] at linked
    cases linked
  · rw [same,Option.isNone_iff_eq_none.mp untagged] at tagged
    cases tagged

theorem listed_dir (member : item ∈ linksUnder v dir) : dir ∈ v.keys := by
  unfold linksUnder readDir at member
  rw [Std.ExtTreeMap.mem_keys,Std.ExtTreeMap.mem_iff_isSome_getElem?]
  cases there : v[dir]? with
  | some node => rfl
  | none => rw [there] at member; cases member

theorem app_only (same : repoDir (v2 source) repo.text ++ [manifestsDir,"revisions".toList] = revisionsDir) :
    repo = app := by
  have dirs : v2 source ++ ["repositories".toList] ++ repo.text.splitOn '/' = v2 source ++ ["repositories".toList] ++ ["app".toList] :=
    append_cancel_right same
  have parts := append_cancel_left dirs
  have text := congrArg ['/'].intercalate parts
  rw [intercalate_splitOn,intercalate_singleton] at text
  exact RepoName.text_injective text

theorem tree_read : (∀ path ∈ tree.keys,path.getLast? ≠ some layersDir) ∧
    (∀ path ∈ tree.keys,path.getLast? = some "revisions".toList → path = revisionsDir) ∧
    (∀ name ∈ revisionDigests tree (v2 source) app,name = twin) ∧
    ((planned world.toReading tree (v2 source) twin).all fun found => found.2.2.mustExist.isEmpty) ∧
    tree[blobData (v2 source) twin]? = some (.file plainManifest) ∧
    crates.digestOf twin.algorithm plainManifest = twin := by decide +kernel

theorem asked_only (asked : Asked world.toReading tree (v2 source) repo digest) : repo = app ∧ digest = twin := by
  obtain ⟨noLayers,revisions,all,nothing,-⟩ := tree_read
  have own (other : RepoName) {name : Digest} (member : name ∈ revisionDigests tree (v2 source) other) :
      other = app ∧ name = twin := by
    obtain ⟨item,listed,-⟩ := mem_filterMap.mp member
    have same := app_only (revisions _ (listed_dir listed) (by simp))
    subst same
    exact ⟨rfl,all name member⟩
  rcases asked with layer | revision | ⟨other,revision,found,read,needed⟩
  · obtain ⟨item,listed,-⟩ := mem_filterMap.mp layer
    exact absurd (by simp) (noLayers _ (listed_dir listed))
  · exact own repo revision
  · obtain ⟨here,named⟩ := own repo revision
    rw [named] at read
    rw [read] at nothing
    rw [isEmpty_iff.mp nothing] at needed
    cases needed

theorem twin_good : Good world.toReading tree (v2 source) twin :=
  ⟨plainManifest,tree_read.2.2.2.2⟩

def calmly (s : OciStore) : Bool :=
  (decide (s.Linked app twin) || !aliasLinked s.toContent app twin) && decide (s.Unused first)

theorem calmly_calm (shown : calmly s = true) : Calm world tree (v2 source) OciStore.created.toContent s := by
  obtain ⟨steady,unused⟩ := Bool.and_eq_true_iff.mp shown
  refine ⟨fun repo digest asked unlinked => ?_,of_decide_eq_true unused⟩
  obtain ⟨here,named⟩ := asked_only asked
  rw [here,named] at unlinked ⊢
  refine ⟨?_,fun bad => absurd twin_good bad⟩
  have aside : aliasLinked OciStore.created.toContent app twin = false := by decide
  rw [aside]
  simpa [unlinked] using steady

theorem stopped_import_recovers : ∃ whole stopped rerun,«import» world tree source .created = .ok whole ∧
    stopped ∈ whole.past ∧ «import» world tree source stopped.restart = .ok rerun ∧
    rerun.store.links = whole.store.links ∧ rerun.store.tags = whole.store.tags := by
  have shown : (stops world tree source .created 2).any (fun run => calmly .created && run.1.past.all calmly &&
      calmly run.2.1.restart && run.2.2.past.all calmly) = true := by decide +kernel
  obtain ⟨⟨whole,stopped,rerun⟩,found,seen⟩ := (Option.any_eq_true _ _).mp shown
  obtain ⟨ran,stop,reran⟩ := stops_some found
  simp only [Bool.and_eq_true,all_eq_true] at seen
  obtain ⟨⟨⟨starts,states⟩,restarts⟩,restates⟩ := seen
  have ends := import_again world world.draw world.clock tree source .created ran
    (forall_mem_cons.mpr ⟨calmly_calm starts,fun t member => calmly_calm (states t member)⟩)
    (.inr (mem_cons_of_mem _ stop)) stopped.restart_content reran
    (forall_mem_cons.mpr ⟨calmly_calm restarts,fun t member => calmly_calm (restates t member)⟩)
  exact ⟨whole,stopped,rerun,ran,stop,reran,ends.1,ends.2.1⟩

end Sample
end HologramLive.Import
