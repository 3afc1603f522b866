import HologramLive.Oci.GcRead
import HologramLive.Registry.PageLinks
namespace HologramLive.Listing
open Tables Pages Std List

structure Plain (last : Str) : Prop where
  given : last ≠ []
  chars : ∀ c ∈ last,nameChar c = true

theorem repo_plain (repo : RepoName) : Plain repo.text := by
  refine ⟨?_,repo_nameChar repo⟩
  intro empty
  have legal := repo.valid
  rw [empty] at legal
  exact absurd legal (by decide)

theorem tag_plain (tag : Tag) : Plain tag.text := by
  refine ⟨?_,tag_nameChar tag⟩
  intro empty
  have legal := tag.valid
  rw [empty] at legal
  exact absurd legal (by decide)

def cursorQuery (n : Nat) : Option Str → Str
  | none => firstQuery n
  | some last => nextQuery last n

theorem no_cursor : ∀ last ∈ (none : Option Str),Plain last := by
  intro last member
  cases member

variable {n : Nat}

theorem page_cursor {after : Option Str} (plain : ∀ last ∈ after,Plain last) (fits : n < USize.size) :
    page (some (cursorQuery n after)) = .ok ⟨some n,after⟩ := by
  cases after with
  | none => exact page_first fits
  | some last => exact page_next (plain last rfl).chars (plain last rfl).given fits

theorem firstUrl_cursor (path : Str) (n : Nat) : firstUrl path n = path ++ '?' :: cursorQuery n none := by
  unfold firstUrl cursorQuery firstQuery
  rw [append_assoc]
  rfl

-- One request as the client sees it: the names of the page, and the cursor in the
-- link when there is one.
def Answers (key path : Str) (n : Nat) (s : OciStore) (after : Option Str) (got : List Str × Option Str) : Prop :=
  ∃ response s',get s (path ++ '?' :: cursorQuery n after) = (.ok response,s') ∧ s'.toContent = s.toContent ∧
    names key response.body = got.1 ∧
    response.link.bind linkTarget = got.2.map fun last => path ++ '?' :: cursorQuery n (some last)

variable {c : Content}

theorem follow_chase {α : Type} {text : α → Str} {asked : Option Str → List α × Option Str}
    (answers : ∀ (s : OciStore) after,s.toContent = c → (∀ last ∈ after,Plain last) →
      Answers key path n s after ((asked after).1.map text,(asked after).2))
    (plain : ∀ after last,(asked after).2 = some last → Plain last) (turns : Nat) (s : OciStore) (after : Option Str)
    (same : s.toContent = c) (started : ∀ last ∈ after,Plain last) :
    follow key turns s (path ++ '?' :: cursorQuery n after) =
      (chase asked turns after).map fun rows => .ok (rows.map text) := by
  induction turns generalizing s after with
  | zero => rfl
  | succ turns ih =>
    obtain ⟨response,s',answered,kept,read,linked⟩ := answers s after same started
    unfold follow chase
    rw [answered]
    dsimp only
    rw [linked,read]
    cases next : (asked after).2 with
    | none => rfl
    | some last =>
      have valid : ∀ other ∈ some last,Plain other := by
        intro other member; cases member
        exact plain after _ next
      dsimp only [Option.map_some]
      rw [ih s' (some last) (kept.trans same) valid]
      cases chase asked turns (some last) with
      | none => rfl
      | some rows => simp only [Option.map_some,map_append]; rfl

theorem filterMap_strings {α : Type} (text : α → Str) (items : List α) :
    (items.map fun item => OciJson.string (text item)).filterMap OciJson.asStr = items.map text := by
  rw [filterMap_map]
  exact filterMap_eq_map_iff_forall_eq_some.mpr fun _ _ => rfl

theorem trimmed_plain {α : Type} {text : α → Str} {found : List α} (plain : ∀ item,Plain (text item))
    (cursor : (trimmed text limit found).2 = some last) : Plain last := by
  unfold trimmed at cursor
  dsimp only at cursor
  split at cursor
  · obtain ⟨item,-,rfl⟩ := Option.map_eq_some_iff.mp cursor
    exact plain item
  · cases cursor

theorem nextLink_trim {α : Type} (text : α → Str) (path : Str) (limit : Nat) (found : List α) :
    nextLink path text limit (trim found limit).2 (trim found limit).1 =
      (trimmed text limit found).2.map fun last => linkNext path last limit := by
  unfold nextLink trim trimmed
  dsimp only
  by_cases more : limit < found.length
  · rw [if_pos more,decide_eq_true more]
    cases (found.take limit).getLast? <;> rfl
  · rw [if_neg more,decide_eq_false more]
    rfl

theorem link_cursor {α : Type} {text : α → Str} {limit : Nat} {found : List α} (plainPath : ∀ c ∈ path,nameChar c = true)
    (plain : ∀ item,Plain (text item)) (body : OciJson) :
    (respond body (nextLink path text limit (trim found limit).2 (trim found limit).1)).link.bind linkTarget =
      (trimmed text limit found).2.map fun last => path ++ '?' :: cursorQuery limit (some last) := by
  rw [nextLink_trim]
  unfold respond
  cases cursor : (trimmed text limit found).2 with
  | none => rfl
  | some last =>
    dsimp only [Option.map_some,Option.bind_some]
    exact linkNext_target limit plainPath (trimmed_plain plain cursor).chars

def tagRows (c : Content) (repo : RepoName) : List Tag := (c.tagList repo).map (·.1)

theorem tagRows_sorted (c : Content) (repo : RepoName) :
    Sorted Tag.text (fun a b => compare a b == .lt) (tagRows c repo) :=
  .of_keys (pairwise_map.mpr (rowsUnder_sorted c.tags repo))

theorem repos_sorted (c : Content) : Sorted RepoName.text (fun a b => compare a b == .lt) c.repos.toList := by
  have ordered : c.repos.toList.Pairwise fun a b => compare a b = .lt := ExtTreeSet.ordered_toList
  refine .of_keys (ordered.imp fun {a b} before => ?_)
  have texts : compare a.text b.text = .lt := before
  simp [texts]

theorem holdsAManifest_eq (c : Content) (repo : RepoName) : holdsAManifest c repo = (c.linksOf repo).any manifestLinked :=
  search_rows (.of_keys (rowsUnder_sorted c.links repo)) manifestLinked (by decide : 0 < scanPage)
    (by omega : (c.linksOf repo).length-0 < _)

theorem tagsPath_nameChar (repo : RepoName) : ∀ c ∈ tagsPath repo,nameChar c = true := by
  have words : (∀ c ∈ "/v2/".toList,nameChar c = true) ∧ ∀ c ∈ tagsListWord,nameChar c = true := by decide
  intro c member
  rcases mem_append.mp member with start | word
  · rcases mem_append.mp start with route | name
    · exact words.1 c route
    · exact repo_nameChar repo c name
  · exact words.2 c word

variable {repo : RepoName}

theorem tags_answers (listed : repo ∈ c.repos)
    (known : tagRows c repo ≠ [] ∨ holdsAManifest c repo = true) (fits : n < USize.size)
    (s : OciStore) (after : Option Str) (same : s.toContent = c) (plain : ∀ last ∈ after,Plain last) :
    let got := trimmed Tag.text n (pageAfter Tag.text (fun a b => compare a b == .lt) (tagRows c repo) after (n+1))
    Answers "tags".toList (tagsPath repo) n s after (got.1.map Tag.text,got.2) := by
  intro got
  have read : s.tagsPage repo after (n+1) =
      (.ok (pageAfter Tag.text (fun a b => compare a b == .lt) (tagRows c repo) after (n+1)),s.namespaceResolveOrCreate repo) := by
    subst same
    unfold OciStore.tagsPage pageAfter
    rw [if_neg (not_not_intro listed)]
    rfl
  unfold Answers
  rw [get_tags,tags,page_cursor plain fits]
  dsimp only [Option.getD_some]
  rw [read]
  dsimp only
  have answered : ((pageAfter Tag.text (fun a b => compare a b == .lt) (tagRows c repo) after (n+1)).isEmpty && after.isNone &&
      !holdsAManifest (s.namespaceResolveOrCreate repo).toContent repo) = false := by
    have content : (s.namespaceResolveOrCreate repo).toContent = c := same
    rw [content]
    rcases known with tagged | linked
    · cases after with
      | some last => simp
      | none =>
        have first : pageAfter Tag.text (fun a b => compare a b == .lt) (tagRows c repo) none (n+1) ≠ [] := by
          simp [pageAfter,tagged]
        simp [first]
    · rw [linked]
      simp
  rw [answered]
  refine ⟨_,_,rfl,rfl,?_,?_⟩
  · show filterMap OciJson.asStr _ = _
    exact filterMap_strings Tag.text _
  · exact link_cursor (tagsPath_nameChar repo) tag_plain _

theorem keepListed_eq (c : Content) (limit : Nat) (repos : List RepoName) (room : out.length ≤ limit) :
    keepListed c limit out repos =
      ((out ++ repos.filter (holdsAManifest c)).take (limit+1),decide (limit < (out ++ repos.filter (holdsAManifest c)).length)) := by
  induction repos generalizing out with
  | nil => rw [filter_nil,append_nil,take_of_length_le (by omega),decide_eq_false (by omega)]; rfl
  | cons repo rest ih =>
    unfold keepListed
    rw [filter_cons]
    split
    · dsimp only
      rw [show out ++ repo :: rest.filter (holdsAManifest c) = (out ++ [repo]) ++ rest.filter (holdsAManifest c) by simp]
      split
      · rename_i full
        have exact_ : (out ++ [repo]).length = limit+1 := by
          rw [length_append,length_singleton] at full ⊢; omega
        rw [←exact_,take_left,decide_eq_true (by rw [length_append]; omega)]
      · exact ih (by omega)
    · exact ih room

theorem catalogScan_eq (c : Content) (limit : Nat) (rest : List RepoName) (start : Option Str)
    (paged : ∀ count,reposAfter c (((rest.take count).getLast?.map (·.text)).or start) scanPage = (rest.drop count).take scanPage)
    {turns count : Nat} (enough : rest.length-count < turns) {out : List RepoName} (room : out.length ≤ limit) :
    catalogScan c limit turns (((rest.take count).getLast?.map (·.text)).or start) out =
      (out ++ (rest.drop count).filter (holdsAManifest c)).take (limit+1) := by
  induction turns generalizing count out with
  | zero => omega
  | succ turns ih =>
    unfold catalogScan
    rw [paged]
    dsimp only
    rw [keepListed_eq c limit _ room]
    have joined : out ++ (rest.drop count).filter (holdsAManifest c) =
        (out ++ ((rest.drop count).take scanPage).filter (holdsAManifest c)) ++
          (rest.drop (count+scanPage)).filter (holdsAManifest c) := by
      rw [append_assoc,←filter_append,←drop_drop,take_append_drop]
    split
    · rename_i ends
      rcases Bool.or_eq_true_iff.mp ends with full | short
      · rw [joined,take_append_of_le_length (Nat.succ_le_of_lt (of_decide_eq_true full))]
      · rw [drop_take_eq (of_decide_eq_true short)]
    · rename_i goes
      obtain ⟨open_,long⟩ := not_or.mp (mt Bool.or_eq_true_iff.mpr goes)
      have below : (out ++ ((rest.drop count).take scanPage).filter (holdsAManifest c)).length ≤ limit := by
        simpa using open_
      have whole : ¬((rest.drop count).take scanPage).length < scanPage := by simpa using long
      have bound := whole
      rw [length_take,length_drop] at bound
      have page : 0 < scanPage := by decide
      have filled : (rest.drop count).take scanPage ≠ [] := by
        intro empty; rw [empty] at whole
        exact whole page
      obtain ⟨last,got⟩ := Option.ne_none_iff_exists'.mp (mt List.getLast?_eq_none_iff.mp filled)
      have cursor : ((rest.drop count).take scanPage).getLast?.map (·.text) =
          ((rest.take (count+scanPage)).getLast?.map (·.text)).or start := by
        rw [got,getLast?_take_add got]
        rfl
      have settled : (out ++ ((rest.drop count).take scanPage).filter (holdsAManifest c)).take (limit+1) =
          out ++ ((rest.drop count).take scanPage).filter (holdsAManifest c) := take_of_length_le (by omega)
      rw [settled,cursor,ih (by omega) below,←joined]

theorem reposAfter_paged (c : Content) (start : Option Str) (count : Nat) :
    let rest := c.repos.toList.filter fun repo => start.all fun last => compare last repo.text == .lt
    reposAfter c (((rest.take count).getLast?.map (·.text)).or start) scanPage = (rest.drop count).take scanPage := by
  intro rest
  have sorted : Sorted RepoName.text (fun a b => compare a b == .lt) rest := (repos_sorted c).filter _
  rw [←pageAfter_take sorted]
  cases got : (rest.take count).getLast? with
  | none =>
    show pageAfter _ _ _ start _ = pageAfter _ _ _ none _
    simp only [pageAfter,Option.all_none,filter_true]
    rfl
  | some last =>
    have member : last ∈ rest := mem_of_mem_take (mem_of_getLast? got)
    have after := (mem_filter.mp member).2
    show pageAfter _ _ _ (some last.text) _ = pageAfter _ _ _ (some last.text) _
    cases start with
    | none =>
      have unfiltered : rest = c.repos.toList := filter_eq_self.mpr fun _ _ => rfl
      rw [unfiltered]
    | some first => exact pageAfter_within (repos_sorted c) after scanPage

theorem catalog_scanned (c : Content) (limit : Nat) (after : Option Str) :
    catalogScan c limit (c.repos.toList.length+1) after [] =
      pageAfter RepoName.text (fun a b => compare a b == .lt) (c.repos.toList.filter (holdsAManifest c)) after (limit+1) := by
  have bound := length_filter_le (fun repo => after.all fun last => compare last repo.text == .lt) c.repos.toList
  have scanned := @catalogScan_eq c limit _ after (reposAfter_paged c after) (c.repos.toList.length+1) 0 (by omega) []
    (Nat.zero_le _)
  rw [take_zero,drop_zero,nil_append,filter_filter] at scanned
  unfold pageAfter
  rw [filter_filter]
  simp only [Bool.and_comm] at scanned ⊢
  exact scanned

theorem catalog_answers (fits : n < USize.size) (s : OciStore) (after : Option Str)
    (same : s.toContent = c) (plain : ∀ last ∈ after,Plain last) :
    let got := trimmed RepoName.text n
      (pageAfter RepoName.text (fun a b => compare a b == .lt) (c.repos.toList.filter (holdsAManifest c)) after (n+1))
    Answers "repositories".toList catalogPath n s after (got.1.map RepoName.text,got.2) := by
  intro got
  subst same
  have asked : catalog s.toContent (some (cursorQuery n after)) = .ok (respond
      (.object [("repositories".toList,.array (got.1.map fun repo => .string repo.text))])
      (nextLink catalogPath RepoName.text n
        (trim (catalogScan s.toContent n (s.repos.toList.length+1) after []) n).2
        (trim (catalogScan s.toContent n (s.repos.toList.length+1) after []) n).1)) := by
    unfold catalog
    rw [page_cursor plain fits,←show _ = got from congrArg (trimmed RepoName.text n) (catalog_scanned s.toContent n after)]
    rfl
  refine ⟨_,s,(get_catalog s _).trans (congrArg (·,s) asked),rfl,filterMap_strings RepoName.text _,?_⟩
  rw [link_cursor (by decide) repo_plain,catalog_scanned]

theorem nameChar_byte {c : Char} (plain : nameChar c = true) : String.utf8EncodeChar c = [c.val.toUInt8] ∧ c.val.toUInt8.toNat = c.val.toNat := by
  have small := (nameChar_visible plain).2
  rw [Char.le_def,UInt32.le_iff_toNat_le] at small
  have tilde : '~'.val.toNat = 126 := by decide
  refine ⟨String.utf8EncodeChar_eq_singleton ?_,?_⟩
  · unfold Char.utf8Size
    rw [if_pos (UInt32.le_iff_toNat_le.mpr (show c.val.toNat ≤ 127 by omega))]
  · rw [UInt32.toNat_toUInt8]
    omega

theorem compare_byte {c d : Char} (left : nameChar c = true) (right : nameChar d = true) :
    compare c.val.toUInt8 d.val.toUInt8 = compare c d := by
  have small := (nameChar_byte left).2
  have other := (nameChar_byte right).2
  have less : c.val.toUInt8 < d.val.toUInt8 ↔ c < d := by
    rw [UInt8.lt_iff_toNat_lt,small,other,Char.lt_def,UInt32.lt_iff_toNat_lt]
  have equal : c.val.toUInt8 = d.val.toUInt8 ↔ c = d := by
    rw [←UInt8.toNat_inj,small,other,UInt32.toNat_inj,Char.val_inj]
  show compareOfLessAndEq _ _ = compareOfLessAndEq _ _
  unfold compareOfLessAndEq
  simp only [less,equal]

theorem compare_utf8 {a b : Str} (left : ∀ c ∈ a,nameChar c = true) (right : ∀ c ∈ b,nameChar c = true) :
    compare (toUtf8 a) (toUtf8 b) = compare a b := by
  induction a generalizing b with
  | nil => cases b with
    | nil => rfl
    | cons d rest =>
      obtain ⟨plain,-⟩ := forall_mem_cons.mp right
      simp [toUtf8,(nameChar_byte plain).1]
  | cons c more ih =>
    obtain ⟨plain,others⟩ := forall_mem_cons.mp left
    cases b with
    | nil => simp [toUtf8,(nameChar_byte plain).1]
    | cons d rest =>
      obtain ⟨plain',others'⟩ := forall_mem_cons.mp right
      have later := ih others others'
      unfold toUtf8 at later ⊢
      rw [flatMap_cons,flatMap_cons,(nameChar_byte plain).1,(nameChar_byte plain').1,singleton_append,
        singleton_append,List.compare_cons_cons,List.compare_cons_cons,later,compare_byte plain plain']

-- A walk that ends with no more requests than one and one for each name, and hands
-- over the wanted names once each, in byte order.
def Complete (walk : Nat → Option (Except OciError (List Str))) (wanted : Str → Prop) : Prop :=
  ∃ names : List Str,(∀ turns,names.length < turns → walk turns = some (.ok names)) ∧
    (names.Pairwise fun a b => compare (toUtf8 a) (toUtf8 b) = .lt) ∧ ∀ name,name ∈ names ↔ wanted name

def Tagged (c : Content) (repo : RepoName) (name : Str) : Prop :=
  ∃ (tag : Tag) (entry : TagEntry),c.tags[(repo,tag)]? = some entry ∧ tag.text = name
def HoldsManifest (c : Content) (repo : RepoName) : Prop :=
  ∃ (digest : Digest) (link : Link),c.linkGet repo digest = some link ∧ link.kind ≠ .blob
def Known (c : Content) (repo : RepoName) : Prop := repo ∈ c.repos ∧ ((∃ name,Tagged c repo name) ∨ HoldsManifest c repo)

theorem holdsAManifest_iff (c : Content) (repo : RepoName) : holdsAManifest c repo = true ↔ HoldsManifest c repo := by
  rw [holdsAManifest_eq,any_eq_true]
  constructor
  · rintro ⟨⟨digest,link⟩,member,kind⟩
    exact ⟨digest,link,mem_rowsUnder.mp member,of_decide_eq_true kind⟩
  · rintro ⟨digest,link,found,kind⟩
    exact ⟨(digest,link),mem_rowsUnder.mpr found,decide_eq_true kind⟩

theorem mem_tagRows : tag ∈ tagRows c repo ↔ ∃ entry,c.tags[(repo,tag)]? = some entry := by
  constructor
  · intro member
    obtain ⟨⟨tag,entry⟩,row,rfl⟩ := mem_map.mp member
    exact ⟨entry,mem_rowsUnder.mp row⟩
  · rintro ⟨entry,found⟩
    exact mem_map.mpr ⟨(tag,entry),mem_rowsUnder.mpr found,rfl⟩

theorem tagged_iff : Tagged c repo name ↔ name ∈ (tagRows c repo).map Tag.text := by
  constructor
  · rintro ⟨tag,entry,found,rfl⟩
    exact mem_map.mpr ⟨tag,mem_tagRows.mpr ⟨entry,found⟩,rfl⟩
  · intro member
    obtain ⟨tag,row,rfl⟩ := mem_map.mp member
    obtain ⟨entry,found⟩ := mem_tagRows.mp row
    exact ⟨tag,entry,found,rfl⟩

theorem known_iff : Known c repo ↔ repo ∈ c.repos ∧ (tagRows c repo ≠ [] ∨ holdsAManifest c repo = true) := by
  unfold Known
  rw [holdsAManifest_iff]
  simp only [tagged_iff]
  refine and_congr_right fun _ => or_congr_left ?_
  constructor
  · rintro ⟨name,member⟩ empty
    rw [empty] at member
    cases member
  · intro given
    obtain ⟨tag,row⟩ := exists_mem_of_ne_nil _ given
    exact ⟨tag.text,mem_map_of_mem row⟩

theorem walk_complete {α : Type} {text : α → Str} {rows : List α} (sorted : Sorted text (fun a b => compare a b == .lt) rows)
    (plain : ∀ item,Plain (text item)) {key path : Str} (positive : 0 < n) (s : OciStore)
    (answers : ∀ (s' : OciStore) after,s'.toContent = s.toContent → (∀ last ∈ after,Plain last) →
      let got := trimmed text n (pageAfter text (fun a b => compare a b == .lt) rows after (n+1))
      Answers key path n s' after (got.1.map text,got.2)) :
    Complete (fun turns => follow key turns s (firstUrl path n)) (· ∈ rows.map text) := by
  refine ⟨rows.map text,?_,?_,fun _ => Iff.rfl⟩
  · intro turns enough
    rw [length_map] at enough
    have walked := follow_chase answers (fun _ _ cursor => trimmed_plain plain cursor) turns s none rfl no_cursor
    have chased := chase_rows sorted positive (by omega : rows.length-0 < turns)
    rw [firstUrl_cursor]
    refine walked.trans ?_
    exact congrArg (Option.map fun rows => (.ok (rows.map text) : Except OciError (List Str))) chased
  · rw [pairwise_map]
    refine sorted.ordered.imp fun {a b} before => ?_
    rw [compare_utf8 (plain a).chars (plain b).chars]
    simpa using before

theorem tags_unknown {s : OciStore} (unknown : ¬Known s.toContent repo) (fits : n < USize.size) :
    ∃ s',get s (firstUrl (tagsPath repo) n) = (.error (.fromStore (.unknownRepository repo.text) .tags),s') := by
  rw [firstUrl_cursor,get_tags,tags,page_cursor no_cursor fits]
  dsimp only [Option.getD_some]
  by_cases listed : repo ∈ s.repos
  · have rest : ¬(tagRows s.toContent repo ≠ [] ∨ holdsAManifest s.toContent repo = true) :=
      fun known => unknown (known_iff.mpr ⟨listed,known⟩)
    obtain ⟨untagged,unlinked⟩ := not_or.mp rest
    have read : s.tagsPage repo none (n+1) = (.ok [],s.namespaceResolveOrCreate repo) := by
      unfold OciStore.tagsPage
      rw [if_neg (not_not_intro listed)]
      have none : ((s.namespaceResolveOrCreate repo).tagList repo).map (·.1) = [] := not_not.mp untagged
      simp [none]
    have missing : holdsAManifest (s.namespaceResolveOrCreate repo).toContent repo = false := eq_false_of_ne_true unlinked
    rw [read]
    simp [missing]
  · refine ⟨s,?_⟩
    have read : s.tagsPage repo none (n+1) = (.error (.unknownRepository repo.text),s) := if_pos listed
    rw [read]

-- A client that follows the links of either listing, from the first page on, is
-- handed what the store lists there. A repository with neither a tag nor a manifest
-- is no repository to this route.
theorem pagination_complete (s : OciStore) (n : USize) (positive : 0 < n.toNat) : (∀ repo,Known s.toContent repo →
      Complete (fun turns => follow "tags".toList turns s (firstUrl (tagsPath repo) n.toNat)) (Tagged s.toContent repo)) ∧
    (∀ repo,¬Known s.toContent repo → ∀ turns,follow "tags".toList (turns+1) s (firstUrl (tagsPath repo) n.toNat) =
      some (.error (.fromStore (.unknownRepository repo.text) .tags))) ∧
    Complete (fun turns => follow "repositories".toList turns s (firstUrl catalogPath n.toNat))
      fun name => ∃ repo ∈ s.repos,HoldsManifest s.toContent repo ∧ repo.text = name := by
  have fits : n.toNat < USize.size := n.toNat_lt_size
  refine ⟨fun repo known => ?_,fun repo unknown turns => ?_,?_⟩
  · obtain ⟨listed,held⟩ := known_iff.mp known
    have walked := walk_complete (tagRows_sorted s.toContent repo) tag_plain positive s (tags_answers listed held fits)
    obtain ⟨names,ends,ordered,exactly⟩ := walked
    exact ⟨names,ends,ordered,fun name => (exactly name).trans tagged_iff.symm⟩
  · obtain ⟨s',answered⟩ := tags_unknown unknown fits
    unfold follow
    rw [answered]
  · have walked := walk_complete ((repos_sorted s.toContent).filter (holdsAManifest s.toContent)) repo_plain positive s
      (catalog_answers fits)
    obtain ⟨names,ends,ordered,exactly⟩ := walked
    refine ⟨names,ends,ordered,fun name => (exactly name).trans ?_⟩
    simp only [mem_map,mem_filter,ExtTreeSet.mem_toList,holdsAManifest_iff,and_assoc]

def tagged : OciStore := Sample.after (Sample.push Sample.app Sample.first Sample.layer .sha256 ++
  [.manifestPut Sample.app (.tag Sample.latest) defaultMediaType Sample.imageManifest Sample.image])

theorem tagged_walks : Known tagged.toContent Sample.app ∧
    Complete (fun turns => follow "tags".toList turns tagged (firstUrl (tagsPath Sample.app) (1 : USize).toNat))
      (Tagged tagged.toContent Sample.app) ∧
    Complete (fun turns => follow "repositories".toList turns tagged (firstUrl catalogPath (1 : USize).toNat))
      fun name => ∃ repo ∈ tagged.repos,HoldsManifest tagged.toContent repo ∧ repo.text = name := by
  have positive : 0 < (1 : USize).toNat := by simp
  have known : Known tagged.toContent Sample.app := by
    rw [known_iff]
    decide +kernel
  obtain ⟨tags,-,repos⟩ := pagination_complete tagged 1 positive
  exact ⟨known,tags Sample.app known,repos⟩

end HologramLive.Listing
