import HologramLive.Oci.Blame
namespace HologramLive.Verify
open Tables Std OciStore List

def names (s : OciStore) (label : Str) : List Str :=
  label :: ((Digest.parse label).toOption.bind s.aliasOf).toList.map Digest.asStr

section Wanted
variable {s : OciStore}

theorem want_get (wanted : Table Str Str) (entry : Damaged) (name : Str) :
    (want s wanted entry)[name]? = if name ∈ names s entry.digest then some entry.digest else wanted[name]? := by
  unfold want names
  cases parsed : Digest.parse entry.digest with
  | error e =>
    simp only [Except.toOption,Option.bind_none,Option.toList_none,map_nil,mem_singleton]
    rw [get_insert]
    exact if_congr eq_comm rfl rfl
  | ok digest =>
    cases paired : s.aliasOf digest with
    | none =>
      simp only [Except.toOption,Option.bind_some,paired,Option.toList_none,map_nil,mem_singleton]
      rw [get_insert]
      exact if_congr eq_comm rfl rfl
    | some other =>
      simp only [Except.toOption,Option.bind_some,paired,Option.toList_some,map_cons,map_nil,mem_cons,
        not_mem_nil,or_false]
      rw [get_insert,get_insert]
      by_cases first : other.asStr = name
      · rw [if_pos first,if_pos (.inr first.symm)]
      · rw [if_neg first]
        by_cases second : entry.digest = name
        · rw [if_pos second,if_pos (.inl second.symm)]
        · rw [if_neg second,if_neg]
          rintro (same | same)
          · exact second same.symm
          · exact first same.symm

theorem wanted_says (damaged : List Damaged) (wanted : Table Str Str)
    (found : (damaged.foldl (want s) wanted)[name]? = some label) :
    wanted[name]? = some label ∨ ∃ entry ∈ damaged,entry.digest = label ∧ name ∈ names s label := by
  induction damaged generalizing wanted with
  | nil => exact .inl found
  | cons entry rest ih =>
    rcases ih _ found with start | ⟨other,member,same,named⟩
    · rw [want_get] at start
      split at start
      · rename_i named; cases start
        exact .inr ⟨entry,mem_cons_self,rfl,named⟩
      · exact .inl start
    · exact .inr ⟨other,mem_cons_of_mem _ member,same,named⟩

theorem wanted_known (damaged : List Damaged) (wanted : Table Str Str)
    (member : entry ∈ damaged) (named : name ∈ names s entry.digest) :
    ∃ label,(damaged.foldl (want s) wanted)[name]? = some label := by
  have kept (later : List Damaged) (wanted : Table Str Str) {label : Str} (known : wanted[name]? = some label) :
      ∃ label,(later.foldl (want s) wanted)[name]? = some label := by
    induction later generalizing wanted label with
    | nil => exact ⟨label,known⟩
    | cons first rest ih =>
      have stepped := @want_get s wanted first name
      split at stepped
      · exact ih _ stepped
      · exact ih _ (stepped.trans known)
  induction damaged generalizing wanted with
  | nil => cases member
  | cons first rest ih =>
    rcases mem_cons.mp member with rfl | later
    · exact kept rest _ ((want_get wanted entry name).trans (if_pos named))
    · exact ih _ later

def Alone (s : OciStore) (damaged : List Damaged) (entry : Damaged) : Prop :=
  ∀ other ∈ damaged,other.digest ≠ entry.digest → ∀ name ∈ names s entry.digest,name ∉ names s other.digest

theorem wanted_alone {damaged : List Damaged} {entry : Damaged} (member : entry ∈ damaged)
    (alone : Alone s damaged entry) (name : Str) :
    (damaged.foldl (want s) ∅)[name]? = some entry.digest ↔ name ∈ names s entry.digest := by
  constructor
  · intro found
    rcases wanted_says damaged ∅ found with start | ⟨_,_,_,named⟩
    · simp at start
    · exact named
  · intro named
    obtain ⟨label,found⟩ := wanted_known damaged ∅ member named
    rcases wanted_says damaged ∅ found with start | ⟨other,listed,same,shared⟩
    · simp at start
    · by_cases equal : other.digest = entry.digest
      · rw [found,←same,equal]
      · exact absurd (same ▸ shared) (alone other listed equal name named)

end Wanted

section Marks

-- What one link or one reached digest adds to the report.
structure Mark where
  damaged : Str
  repo : Str
  tag : Option Str

def Out.add (out : Out) (mark : Mark) : Out := note out mark.damaged mark.repo mark.tag

def marked (out : Out) (damaged repo : Str) : Option (KeySet Str) := out[damaged]?.bind fun repos => repos[repo]?

theorem marked_add (out : Out) (mark : Mark) (damaged repo : Str) : marked (out.add mark) damaged repo =
      if mark.damaged = damaged ∧ mark.repo = repo then
        some (mark.tag.toList.foldl (fun tags tag => tags.insert tag) ((marked out damaged repo).getD ∅))
      else marked out damaged repo := by
  unfold marked Out.add note
  dsimp only
  rw [get_insert]
  by_cases same : mark.damaged = damaged
  · subst same
    rw [if_pos rfl,Option.bind_some,get_insert]
    by_cases here : mark.repo = repo
    · subst here
      rw [if_pos rfl,if_pos ⟨rfl,rfl⟩]
      cases out[mark.damaged]? <;> cases mark.tag <;> simp
    · rw [if_neg here,if_neg fun both => here both.2]
      cases out[mark.damaged]? <;> simp
  · rw [if_neg same,if_neg fun both => same both.1]

structure Records (out : Out) (marks : List Mark) : Prop where
  noted : ∀ damaged repo,(marked out damaged repo).isSome ↔ ∃ tag,⟨damaged,repo,tag⟩ ∈ marks
  tagged : ∀ damaged repo tags,marked out damaged repo = some tags → ∀ tag,tag ∈ tags ↔ ⟨damaged,repo,some tag⟩ ∈ marks

theorem Records.none : Records ∅ [] :=
  ⟨fun _ _ => by simp [marked],fun _ _ _ found => by simp [marked] at found⟩

theorem Records.add (records : Records out marks) (mark : Mark) : Records (out.add mark) (marks ++ [mark]) := by
  refine ⟨fun damaged repo => ?_,fun damaged repo tags found tag => ?_⟩
  · rw [marked_add]
    split
    · rename_i here
      obtain ⟨rfl,rfl⟩ := here
      exact ⟨fun _ => ⟨mark.tag,mem_append_right _ (mem_singleton.mpr rfl)⟩,fun _ => rfl⟩
    · rename_i other
      rw [records.noted]
      refine exists_congr fun tag => ⟨mem_append_left _,fun member => ?_⟩
      rcases mem_append.mp member with before | last
      · exact before
      · cases mem_singleton.mp last; exact absurd ⟨rfl,rfl⟩ other
  · rw [marked_add] at found
    split at found
    · rename_i here
      obtain ⟨rfl,rfl⟩ := here
      have earlier : tag ∈ (marked out mark.damaged mark.repo).getD ∅ ↔ ⟨mark.damaged,mark.repo,some tag⟩ ∈ marks := by
        cases before : marked out mark.damaged mark.repo with
        | none =>
          refine ⟨fun member => by simp at member,fun member => ?_⟩
          have noted := (records.noted mark.damaged mark.repo).mpr ⟨_,member⟩
          rw [before] at noted; cases noted
        | some tags => exact records.tagged _ _ tags before tag
      cases found
      rw [mem_append,←earlier]
      cases given : mark.tag with
      | none =>
        refine ⟨.inl,fun member => ?_⟩
        rcases member with before | last
        · exact before
        · have same := congrArg Mark.tag (mem_singleton.mp last)
          rw [given] at same; cases same
      | some own =>
        simp only [Option.toList_some,foldl_cons,foldl_nil,ExtTreeSet.mem_insert,Std.compare_eq_iff_eq]
        constructor
        · rintro (rfl | before)
          · exact .inr (mem_singleton.mpr (by rw [←given]))
          · exact .inl before
        · rintro (before | last)
          · exact .inr before
          · have same := congrArg Mark.tag (mem_singleton.mp last)
            rw [given] at same; exact .inl (Option.some.inj same).symm
    · rename_i other
      rw [records.tagged damaged repo tags found tag]
      refine ⟨mem_append_left _,fun member => ?_⟩
      rcases mem_append.mp member with before | last
      · exact before
      · cases mem_singleton.mp last; exact absurd ⟨rfl,rfl⟩ other

theorem Records.all (records : Records out marks) (more : List Mark) :
    Records (more.foldl Out.add out) (marks ++ more) := by
  induction more generalizing out marks with
  | nil => rw [append_nil]; exact records
  | cons mark rest ih =>
    have stepped := ih (records.add mark)
    rw [append_assoc] at stepped
    exact stepped

end Marks

section Reach
variable (crates : Crates) (s : OciStore)

-- What a reference of a repository reaches: the digest it stands for, and all
-- the documents below name.
inductive Reached (repo : RepoName) : Reference → Str → Prop
  | address (digest : Digest) : Reached repo (.digest digest) digest.asStr
  | tagged {tag : Tag} {digest : Digest} (resolved : s.tagResolve repo tag = .ok digest) : Reached repo (.tag tag) digest.asStr
  | leaf {reference : Reference} {value : OciJson} {text : Str} (read : documentOf crates s repo reference = some value)
      (said : text ∈ leafTexts value) : Reached repo reference text
  | deeper {reference : Reference} {value : OciJson} {digest : Digest} {text : Str}
      (read : documentOf crates s repo reference = some value) (child : digest ∈ children value)
      (reached : Reached repo (.digest digest) text) : Reached repo reference text

-- A tag the walk follows to the end: its own manifest can be read, no chain of
-- manifests goes past the bound, and no document names a manifest as its config
-- or a layer that an index lists.
structure Followed (repo : RepoName) (tag : Tag) : Prop where
  read : (manifestOf s repo (.tag tag)).isSome
  fits : Descent.Fits (manifests crates s repo) (maxDepth + 1) [] (.tag tag)
  apart : Descent.Apart (manifests crates s repo) (.tag tag)

variable {crates} {s}

variable {repo : RepoName} {reference : Reference}

theorem manifestOf_digest
    (found : manifestOf s repo reference = some manifest) : Reached crates s repo reference manifest.digest.asStr := by
  unfold manifestOf manifestGet at found
  split at found
  · cases found
  · have got := Fallible.ok_of_toOption found
    cases reference with
    | digest digest => rw [manifestRead_digest got]; exact .address digest
    | tag tag =>
      dsimp only at got
      split at got
      · cases got
      · rename_i digest resolved
        have same : s.manifestRead repo digest = .ok manifest := got
        rw [manifestRead_digest same]; exact .tagged resolved

variable {name : Str}

theorem reached_below (listed : child ∈ belowOf crates s repo reference) (reached : Reached crates s repo child name) :
    Reached crates s repo reference name := by
  unfold belowOf at listed
  split at listed
  · rename_i value read
    obtain ⟨digest,below,rfl⟩ := mem_map.mp listed
    exact .deeper read below reached
  · cases listed

theorem reaches_reached
    (reaches : Descent.Reaches (manifests crates s repo) reference name) : Reached crates s repo reference name := by
  induction reaches with
  | @own item name named =>
    rcases mem_append.mp named with outer | read
    · cases item with
      | tag tag => cases outer
      | digest digest => rw [mem_singleton.mp outer]; exact .address digest
    · rw [Option.mem_toList] at read
      obtain ⟨manifest,found,rfl⟩ := Option.map_eq_some_iff.mp read
      exact manifestOf_digest found
  | @leaf item name said =>
    have listed : name ∈ leavesOf crates s repo item := said
    unfold leavesOf at listed
    split at listed
    · rename_i value read
      exact .leaf read listed
    · cases listed
  | deeper child _ ih => exact reached_below child ih

theorem reached_reaches (reached : Reached crates s repo reference name) :
    (∀ tag,reference = .tag tag → (manifestOf s repo (.tag tag)).isSome) →
      Descent.Reaches (manifests crates s repo) reference name := by
  induction reached with
  | address digest => exact fun _ => .own (mem_append_left _ (mem_singleton.mpr rfl))
  | @tagged tag digest resolved =>
    intro readable
    obtain ⟨manifest,found⟩ := Option.isSome_iff_exists.mp (readable tag rfl)
    have same : manifest.digest = digest := by
      have got := found
      unfold manifestOf manifestGet at got
      split at got
      · cases got
      · have answer := Fallible.ok_of_toOption got
        dsimp only at answer
        have known : (s.namespaceResolveOrCreate repo).tagResolve repo tag = .ok digest := resolved
        rw [known] at answer; exact manifestRead_digest answer
    refine .own (mem_append_right _ ?_)
    rw [Option.mem_toList,found,←same]
    rfl
  | @leaf reference value text read said =>
    intro _
    have listed : text ∈ leavesOf crates s repo reference := by
      unfold leavesOf
      rw [read]
      exact said
    exact .leaf listed
  | @deeper reference value digest text read child _ ih =>
    intro _
    have listed : Reference.digest digest ∈ belowOf crates s repo reference := by
      unfold belowOf
      rw [read]
      exact mem_map.mpr ⟨digest,child,rfl⟩
    exact .deeper listed (ih fun _ same => by cases same)

theorem walk_reached (repo : RepoName) (left : Nat) (reference : Reference)
    (met : name ∈ walk crates s repo left reference ∅) : Reached crates s repo reference name := by
  rw [walk_tree] at met
  have tree : ∀ item,∀ called ∈ (manifests crates s repo).outer item,called ∈ (manifests crates s repo).own item := outer_own
  rcases Descent.walk_sound tree left reference ∅ met with start | reaches
  · simp at start
  · exact reaches_reached reaches

theorem walk_follows (followed : Followed crates s repo tag)
    (reached : Reached crates s repo (.tag tag) name) : name ∈ walk crates s repo (maxDepth + 1) (.tag tag) ∅ := by
  rw [walk_tree]
  refine Descent.walk_complete followed.apart followed.fits (reached_reaches reached ?_)
  intro other same
  cases same
  exact followed.read

end Reach

section Report
variable (crates : Crates) (s : OciStore) (wanted : Table Str Str)

-- What a repository adds: a mark for each link to a damaged name, and one for each
-- damaged name a tag reaches.
def linkMarks (repo : RepoName) : List Mark :=
  (s.linksOf repo).filterMap fun row => wanted[row.1.asStr]?.map fun damaged => ⟨damaged,repo.text,none⟩

def tagMarks (repo : RepoName) (tag : Tag) : List Mark :=
  (walk crates s repo (maxDepth + 1) (.tag tag) ∅).toList.filterMap fun digest =>
    wanted[digest]?.map fun damaged => ⟨damaged,repo.text,some tag.text⟩

def repoMarks (repo : RepoName) : List Mark :=
  linkMarks s wanted repo ++ ((s.tagList repo).map (·.1)).flatMap (tagMarks crates s wanted repo)

variable {crates} {s} {wanted}

theorem noteTag_marks (repo : RepoName) (out : Out) (tag : Tag) :
    noteTag crates s wanted repo out tag = (tagMarks crates s wanted repo tag).foldl Out.add out := by
  unfold noteTag tagMarks
  rw [foldl_filterMap]
  congr 1
  funext out digest
  cases wanted[digest]? <;> rfl

variable {repo : RepoName}

theorem noteRepo_marks (listed : repo ∈ s.repos) (out : Out) :
    noteRepo crates s wanted out repo = .ok ((repoMarks crates s wanted repo).foldl Out.add out) := by
  have links : noteLinks s wanted repo out = (linkMarks s wanted repo).foldl Out.add out := by
    unfold noteLinks linkMarks
    rw [links_drained,foldl_map,foldl_filterMap]
    congr 1
    funext out row
    cases wanted[row.1.asStr]? <;> rfl
  have steps : noteTag crates s wanted repo = fun out tag => (tagMarks crates s wanted repo tag).foldl Out.add out := by
    funext out tag
    exact noteTag_marks repo out tag
  unfold noteRepo allTags repoMarks
  rw [if_neg (not_not_intro listed),tags_drained s repo listed,links]
  dsimp only
  rw [foldl_append,foldl_flatMap,steps]

theorem noteRepos_marks (repos : List RepoName) (listed : ∀ repo ∈ repos,repo ∈ s.repos) (out : Out) :
    repos.foldlM (noteRepo crates s wanted) out = .ok ((repos.flatMap (repoMarks crates s wanted)).foldl Out.add out) := by
  induction repos generalizing out with
  | nil => rfl
  | cons repo rest ih =>
    rw [foldlM_cons,noteRepo_marks (listed repo mem_cons_self),flatMap_cons,foldl_append]
    exact ih (fun other member => listed other (mem_cons_of_mem _ member)) _

variable {mark : Mark}

theorem mem_linkMarks : mark ∈ linkMarks s wanted repo ↔ mark.repo = repo.text ∧ mark.tag = none ∧
      ∃ (digest : Digest) (link : Link),s.links[(repo,digest)]? = some link ∧ wanted[digest.asStr]? = some mark.damaged := by
  unfold linkMarks Content.linksOf
  rw [mem_filterMap]
  constructor
  · rintro ⟨⟨digest,link⟩,member,equal⟩
    obtain ⟨damaged,known,rfl⟩ := Option.map_eq_some_iff.mp equal
    exact ⟨rfl,rfl,digest,link,mem_rowsUnder.mp member,known⟩
  · rintro ⟨here,plain,digest,link,held,known⟩
    refine ⟨(digest,link),mem_rowsUnder.mpr held,?_⟩
    rw [known,←here,←plain]
    rfl

theorem mem_tagMarks : mark ∈ tagMarks crates s wanted repo tag ↔ mark.repo = repo.text ∧ mark.tag = some tag.text ∧
      ∃ name ∈ walk crates s repo (maxDepth + 1) (.tag tag) ∅,wanted[name]? = some mark.damaged := by
  unfold tagMarks
  rw [mem_filterMap]
  constructor
  · rintro ⟨name,member,equal⟩
    obtain ⟨damaged,known,rfl⟩ := Option.map_eq_some_iff.mp equal
    exact ⟨rfl,rfl,name,ExtTreeSet.mem_toList.mp member,known⟩
  · rintro ⟨here,own,name,met,known⟩
    refine ⟨name,ExtTreeSet.mem_toList.mpr met,?_⟩
    rw [known,←here,←own]
    rfl

theorem mem_repoMarks : mark ∈ repoMarks crates s wanted repo ↔
    mark ∈ linkMarks s wanted repo ∨ ∃ tag,(s.tags[(repo,tag)]?).isSome ∧ mark ∈ tagMarks crates s wanted repo tag := by
  unfold repoMarks Content.tagList
  rw [mem_append,mem_flatMap]
  refine or_congr Iff.rfl (exists_congr fun tag => and_congr_left fun _ => ?_)
  rw [mem_map,Option.isSome_iff_exists]
  constructor
  · rintro ⟨⟨other,entry⟩,member,rfl⟩
    exact ⟨entry,mem_rowsUnder.mp member⟩
  · rintro ⟨entry,held⟩
    exact ⟨(tag,entry),mem_rowsUnder.mpr held,rfl⟩

def blame (out : Out) (label : Str) : List Reach :=
  (out[label]?.map fun repos => repos.toList.map fun row => (⟨row.1,row.2.toList⟩ : Reach)).getD []

theorem mem_blame :
    reach ∈ blame out label ↔ ∃ tags,marked out label reach.name = some tags ∧ reach.tags = tags.toList := by
  unfold blame marked
  cases out[label]? with
  | none => simp
  | some repos =>
    simp only [Option.map_some,Option.getD_some,Option.bind_some,mem_map]
    constructor
    · rintro ⟨⟨name,tags⟩,member,rfl⟩
      exact ⟨tags,ExtTreeMap.mem_toList_iff_getElem?_eq_some.mp member,rfl⟩
    · rintro ⟨tags,held,same⟩
      exact ⟨(reach.name,tags),ExtTreeMap.mem_toList_iff_getElem?_eq_some.mpr held,by rw [←same]⟩

theorem blame_once (out : Out) (label : Str) : ((blame out label).map Reach.name).Nodup := by
  unfold blame
  cases out[label]? with
  | none => exact nodup_nil
  | some repos =>
    rw [Option.map_some,Option.getD_some,map_map]
    exact pairwise_map.mpr (ExtTreeMap.distinct_keys_toList.imp fun apart same => apart (Std.compare_eq_iff_eq.mpr same))

theorem tags_once (tags : KeySet Str) : tags.toList.Nodup :=
  ExtTreeSet.distinct_toList.imp fun apart same => apart (Std.compare_eq_iff_eq.mpr same)

theorem reachOf_marks (damaged : List Damaged) : ∃ out reach,
    reachOf crates s damaged = .ok reach ∧ (∀ label : Str,reach[label]?.getD [] = blame out label) ∧
      Records out (s.repos.toList.flatMap (repoMarks crates s (damaged.foldl (want s) ∅))) := by
  let out := (s.repos.toList.flatMap (repoMarks crates s (damaged.foldl (want s) ∅))).foldl Out.add ∅
  refine ⟨out,out.map fun _ repos => repos.toList.map fun row => ⟨row.1,row.2.toList⟩,?_,?_,?_⟩
  · unfold reachOf
    rw [repos_drained,noteRepos_marks s.repos.toList fun repo member => ExtTreeSet.mem_toList.mp member]
    rfl
  · intro label
    rw [ExtTreeMap.getElem?_map]
    rfl
  · exact Records.none.all _

variable (crates) (s)

-- One damaged object's list: each repository that links it and each tag the walk
-- follows is there, and what is there is such a repository and reaches the object.
structure Exact (label : Str) (repositories : List Reach) : Prop where
  once : (repositories.map Reach.name).Nodup
  linked : ∀ repo ∈ s.repos,∀ (digest : Digest) (link : Link),s.links[(repo,digest)]? = some link → digest.asStr ∈ names s label →
    ∃ reach ∈ repositories,reach.name = repo.text
  reached : ∀ repo ∈ s.repos,∀ tag,(s.tags[(repo,tag)]?).isSome → Followed crates s repo tag →
    ∀ name ∈ names s label,Reached crates s repo (.tag tag) name →
      ∃ reach ∈ repositories,reach.name = repo.text ∧ tag.text ∈ reach.tags
  listed : ∀ reach ∈ repositories,∃ repo ∈ s.repos,reach.name = repo.text ∧ reach.tags.Nodup ∧
    (reach.tags = [] → ∃ (digest : Digest) (link : Link),s.links[(repo,digest)]? = some link ∧ digest.asStr ∈ names s label) ∧
    ∀ text ∈ reach.tags,∃ tag : Tag,tag.text = text ∧ (s.tags[(repo,tag)]?).isSome ∧
      ∃ name ∈ names s label,Reached crates s repo (.tag tag) name

variable {crates} {s}

theorem repo_same (same : repo.text = other.text) : repo = other := by
  cases repo
  cases other
  cases same
  rfl

theorem blame_alone (member : entry ∈ damaged) (alone : Alone s damaged entry) (records : Records out (s.repos.toList.flatMap (repoMarks crates s (damaged.foldl (want s) ∅)))) :
    Exact crates s entry.digest (blame out entry.digest) := by
  have known := @wanted_alone s _ _ member alone
  have mark_repo {mark : Mark} : mark ∈ s.repos.toList.flatMap (repoMarks crates s (damaged.foldl (want s) ∅)) ↔
      ∃ repo ∈ s.repos,mark ∈ repoMarks crates s (damaged.foldl (want s) ∅) repo := by
    simp only [mem_flatMap,ExtTreeSet.mem_toList]
  refine ⟨blame_once out _,fun repo listed digest link held named => ?_,fun repo listed tag held followed name named reached => ?_,
    fun reach shown => ?_⟩
  · have mark : (⟨entry.digest,repo.text,none⟩ : Mark) ∈ s.repos.toList.flatMap (repoMarks crates s (damaged.foldl (want s) ∅)) :=
      mark_repo.mpr ⟨repo,listed,mem_repoMarks.mpr (.inl (mem_linkMarks.mpr ⟨rfl,rfl,digest,link,held,(known _).mpr named⟩))⟩
    obtain ⟨tags,found⟩ := Option.isSome_iff_exists.mp ((records.noted _ _).mpr ⟨none,mark⟩)
    exact ⟨⟨repo.text,tags.toList⟩,mem_blame.mpr ⟨tags,found,rfl⟩,rfl⟩
  · have mark : (⟨entry.digest,repo.text,some tag.text⟩ : Mark) ∈
        s.repos.toList.flatMap (repoMarks crates s (damaged.foldl (want s) ∅)) :=
      mark_repo.mpr ⟨repo,listed,mem_repoMarks.mpr (.inr ⟨tag,held,mem_tagMarks.mpr
        ⟨rfl,rfl,name,walk_follows followed reached,(known _).mpr named⟩⟩)⟩
    obtain ⟨tags,found⟩ := Option.isSome_iff_exists.mp ((records.noted _ _).mpr ⟨_,mark⟩)
    exact ⟨⟨repo.text,tags.toList⟩,mem_blame.mpr ⟨tags,found,rfl⟩,rfl,
      ExtTreeSet.mem_toList.mpr ((records.tagged _ _ tags found _).mpr mark)⟩
  · obtain ⟨tags,found,texts⟩ := mem_blame.mp shown
    obtain ⟨first,noted⟩ := (records.noted _ _).mp (Option.isSome_iff_exists.mpr ⟨tags,found⟩)
    obtain ⟨repo,listed,mine⟩ := mark_repo.mp noted
    have here : reach.name = repo.text := by
      rcases mem_repoMarks.mp mine with link | ⟨tag,_,reached⟩
      · exact (mem_linkMarks.mp link).1
      · exact (mem_tagMarks.mp reached).1
    refine ⟨repo,listed,here,texts ▸ tags_once tags,fun empty => ?_,fun text member => ?_⟩
    · rcases mem_repoMarks.mp mine with link | ⟨tag,_,reached⟩
      · obtain ⟨_,_,digest,link,held,wanted⟩ := mem_linkMarks.mp link
        exact ⟨digest,link,held,(known _).mp wanted⟩
      · -- A mark with a tag leaves a tag in the list.
        obtain ⟨_,own,_⟩ := mem_tagMarks.mp reached
        have tagged : first = some tag.text := own
        have present := (records.tagged _ _ tags found tag.text).mpr (tagged ▸ noted)
        rw [texts] at empty; rw [←ExtTreeSet.mem_toList,empty] at present
        cases present
    · rw [texts] at member
      have noted := (records.tagged _ _ tags found text).mp (ExtTreeSet.mem_toList.mp member)
      obtain ⟨other,_,theirs⟩ := mark_repo.mp noted
      rcases mem_repoMarks.mp theirs with link | ⟨tag,held,reached⟩
      · exact absurd (mem_linkMarks.mp link).2.1 (by simp)
      · obtain ⟨there,own,name,met,wanted⟩ := mem_tagMarks.mp reached
        have same : other = repo := repo_same (there.symm.trans here)
        subst same
        exact ⟨tag,(Option.some.inj own).symm,held,name,(known _).mp wanted,walk_reached _ _ _ met⟩

variable (crates) (s)

-- A report is what the scan found; the list of each object that shares no name with
-- another damaged one is exact.
theorem blame_exact (disk : Disk) : match scan crates disk with
    | .error e => verify crates s disk = .error e
    | .ok found => ∃ repositories : Str → List Reach,
        verify crates s disk = .ok {found with damaged := found.damaged.map fun entry =>
          {entry with repositories := repositories entry.digest}} ∧
        ∀ entry ∈ found.damaged,Alone s found.damaged entry → Exact crates s entry.digest (repositories entry.digest) := by
  cases scanned : scan crates disk with
  | error e =>
    dsimp only
    unfold verify
    rw [scanned]
  | ok found =>
    dsimp only
    obtain ⟨out,reach,answered,lists,records⟩ := @reachOf_marks crates s found.damaged
    refine ⟨blame out,?_,fun entry member alone => blame_alone member alone records⟩
    unfold verify
    rw [scanned]
    dsimp only
    split
    · rename_i whole
      have nothing : found.damaged = [] := isEmpty_iff.mp whole
      rw [nothing,map_nil,←nothing]
    · rw [answered]
      simp only [lists]

end Report

section Samples
open OciStore Sample

def sha (hex : Nat) : Digest := .ofHex .sha256 (hexText 64 hex [])
def layerName : Digest := .ofHex .sha256 (layerRow.hex .sha256)
def layerTwin : Digest := .ofHex .blake3 (layerRow.hex .blake3)

-- {"config":{"digest":"…"}} and {"manifests":[{"digest":"…"}]}, as bytes and as read.
structure Document where
  name : Digest
  bytes : Bytes
  value : OciJson

def named (digest : Digest) : OciJson := .object [("digest".toList,.string digest.asStr)]
def quoted (digest : Digest) : Bytes :=
  asciiBytes "\x7b\"digest\":\"" ++ digest.asStr.map (fun c => UInt8.ofNat c.toNat) ++ asciiBytes "\"\x7d"
def imageOf (name config : Digest) : Document :=
  ⟨name,asciiBytes "\x7b\"config\":" ++ quoted config ++ asciiBytes "\x7d",.object [("config".toList,named config)]⟩
def indexOf (name child : Digest) : Document :=
  ⟨name,asciiBytes "\x7b\"manifests\":[" ++ quoted child ++ asciiBytes "]\x7d",
    .object [("manifests".toList,.array [named child])]⟩
def crossedOf (name child : Digest) : Document :=
  ⟨name,asciiBytes "\x7b\"config\":" ++ quoted child ++ asciiBytes ",\"manifests\":[" ++ quoted child ++ asciiBytes "]\x7d",
    .object [("config".toList,named child),("manifests".toList,.array [named child])]⟩

def picture : Document := imageOf (sha 0x5968a65326931d22cb3248c76256166f5851dc779f9f8e581162b480f534275a) layerName
def chain : List Document :=
  ([0x5c8cc885240129d77ceff606a27ac1d8836e1a039ef0a6a5092557a956d1bb89,
    0xc72606428702ff0dd815e50cb0ba55412a47d62c850607aa21de83c90ee9cc41,
    0xb45f8c8861a6464900cbabda3d11ae0e6bad5197c52c9f00e2a20b7f6238b0ff,
    0xba52774abba344d0811e13ea75053190e1cf19296b09e39119c8c5e8ec6da780,
    0x05aa9372485d2e1b6569756340e7992e9a81513a235d8502a15473a54fa814c7,
    0x6efbf35b8bf79150ee2e20e17bed61f8db9c4b6dc1330781bce5be8ab02582cb,
    0x301de2a2f5999b99b0e06ac9cfc56840f4c97a921c947653e9ed3e43a14b36d4,
    0x355611b5401a1dc98aec20f1ca589b22f58f56980f3f900314ce7fd92302a2e0,
    0xf92518e62b246fef48a2e883fe06f58e8ee00c904c8abf78edce4226d278385c].map sha).foldl
    (fun made name => indexOf name ((made.head?.map Document.name).getD picture.name) :: made) []
def single : Document := indexOf (sha 0x5c8cc885240129d77ceff606a27ac1d8836e1a039ef0a6a5092557a956d1bb89) picture.name
def crossed : Document := crossedOf (sha 0x36e687c714808a5997dd3399b326a52122ee777626c767a6b6ec5f791cbdd253) single.name

def documents : List Document := chain ++ [picture,crossed]
def readers : Crates :=
  .tabled (layerRow :: documents.map fun document => ⟨document.bytes,fun algorithm => if algorithm = .sha256 then document.name.hex else []⟩)
    (documents.map fun document => (document.bytes,document.value)) fun _ => []

def place (s : OciStore) (repo : RepoName) (document : Document) : OciStore :=
  {s with toContent := {s.linkAdd repo document.name .manifest none with blobs := s.blobs.insert document.name document.bytes}}
def tagged (s : OciStore) (repo : RepoName) (tag : Tag) (digest : Digest) : OciStore :=
  {s with tags := s.tags.insert (repo,tag) ⟨digest,1⟩}
def layered (repo : RepoName) : OciStore :=
  {created with toContent := {created.linkAdd repo layerName .blob none with
    blobs := created.blobs.insert layerName layer}}

def torn (s : OciStore) (files : List Digest) : Disk where
  leaves := .ok (files.map fun digest => ⟨digest.algorithm.name,digest.hex,.entries [⟨digest.hex,some .file⟩]⟩)
  blob digest := if digest ∈ files then .refused "Permission denied (os error 13)".toList
    else match s.blobs[digest]? with
      | some bytes => .whole bytes
      | none => .notFound

def blamed (s : OciStore) (files : List Digest) (digest : Digest) : Option (List Reach) :=
  match verify readers s (torn s files) with
  | .ok report => (report.damaged.find? fun entry => entry.digest = digest.asStr).map Damaged.repositories
  | .error _ => none

-- A layer under both its names; the chain over its image; an index whose own file is
-- damaged; an index whose child was unlinked; an index that names its child as config.
def twice : OciStore :=
  {layered app with aliases := ((∅ : Table Digest Digest).insert layerName layerTwin).insert layerTwin layerName}
def deep : OciStore := tagged (documents.dropLast.foldl (fun s document => place s app document) (layered app)) app latest
  (sha 0xf92518e62b246fef48a2e883fe06f58e8ee00c904c8abf78edce4226d278385c)
def lost : OciStore := {tagged (place created app single) app latest single.name with blobs := ∅}
def unlinked : OciStore := tagged (place created app single) app latest single.name
def folded : OciStore :=
  tagged (place (place (place (layered app) app picture) app single) app crossed) app latest crossed.name

theorem blame_inexact :
    (blamed twice [layerTwin,layerName] layerTwin = some [] ∧ layerName.asStr ∈ names twice layerTwin.asStr ∧
      (twice.linkGet app layerName).isSome) ∧
    (blamed deep [layerName] layerName = some [⟨app.text,[]⟩] ∧ Reached readers deep app (.tag latest) layerName.asStr) ∧
    (blamed lost [single.name] single.name = some [⟨app.text,[]⟩] ∧
      Reached readers lost app (.tag latest) single.name.asStr) ∧
    (blamed unlinked [picture.name] picture.name = some [⟨app.text,[latest.text]⟩] ∧
      names unlinked picture.name.asStr = [picture.name.asStr] ∧ unlinked.linkGet app picture.name = none) ∧
    (blamed folded [layerName] layerName = some [⟨app.text,[]⟩] ∧ Reached readers folded app (.tag latest) layerName.asStr) := by
  refine ⟨⟨?_,?_,?_⟩,⟨?_,?_⟩,⟨?_,?_⟩,⟨?_,?_,?_⟩,?_,?_⟩
  · decide +kernel
  · decide +kernel
  · decide +kernel
  · decide +kernel
  · exact walk_reached _ 11 _ (by decide +kernel)
  · decide +kernel
  · exact .tagged rfl
  · decide +kernel
  · decide +kernel
  · decide +kernel
  · decide +kernel
  · have listed : Reference.digest single.name ∈ belowOf readers folded app (.tag latest) := by decide +kernel
    exact reached_below listed (walk_reached _ 3 _ (by decide +kernel))

end Samples
end HologramLive.Verify
