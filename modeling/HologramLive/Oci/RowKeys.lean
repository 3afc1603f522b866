import HologramLive.Lib.KeyRanges
import HologramLive.Registry.PageLinks
namespace HologramLive
open KeyRanges Tables Std Bound OciStore List RepoName

variable (repo : RepoName)

def linkKey (digest : Digest) : Str := repo.text ++ '\x00' :: digest.asStr
def referrerKey (subject referrer : Digest) : Str :=
  repo.text ++ '\x00' :: (subject.asStr ++ '\x00' :: referrer.asStr)
def tagKey (ns : RepoName) (name : Tag) : Str := ns.text ++ '\x00' :: name.text

def prefixRange (part : Str) : Str × Str := (part ++ ['\x00'],part ++ ['\x01'])

-- The least byte string above every one that starts with the given one: the last
-- byte that can grow is raised, and what follows it dropped. Read from the end.
def raiseLast : Bytes → Option Bytes
  | [] => none
  | last :: earlier => if last < 0xFF then some ((last + 1) :: earlier) else raiseLast earlier
def prefixSuccessor (bytes : Bytes) : Option Bytes := (raiseLast bytes.reverse).map reverse

-- `rsplit('\0').next()`.
def lastPart (key : Str) : Str := (key.reverse.takeWhile (· ≠ '\x00')).reverse

-- The tables that are read by key ranges, under the texts they are keyed by:
-- three of `links.redb` and the tags of the Kappa store. A row's value is the
-- record it is read back as.
structure LinksRedb where
  links : Table Str Link
  repos : KeySet Str
  referrers : Table Str ReferrerDescriptor
  tags : Table Str TagEntry

namespace LinksRedb

def created : LinksRedb := ⟨∅,∅,∅,∅⟩

variable (db : LinksRedb)

def linkAdd (repo : RepoName) (digest : Digest) (kind : LinkKind) (mediaType : Option Str) : LinksRedb :=
  {db with
    links := db.links.insert (linkKey repo digest) (Link.durable ⟨kind,mediaType⟩)
    repos := db.repos.insert repo.text}

def linkRemove (repo : RepoName) (digest : Digest) : Bool × LinksRedb :=
  let (start,last) := prefixRange repo.text
  let stale := ((range db.referrers (.included start) (.excluded last)).filter fun row =>
    ('\x00' :: digest.asStr).isSuffixOf row.1).map (·.1)
  (db.links.contains (linkKey repo digest),
    {db with links := db.links.erase (linkKey repo digest),referrers := eraseKeys db.referrers stale})

def linksPage (repo : RepoName) (after : Option Digest) (limit : Nat) : Except OciStoreError (List (Digest × Link)) :=
  let (first,last) := prefixRange repo.text
  let start := match after with
    | some digest => excluded (linkKey repo digest)
    | none => .included first
  ((range db.links start (.excluded last)).take limit).mapM fun row => do
    let digest ← Digest.parse (lastPart row.1)
    pure (digest,row.2)

def repoTouch (repo : RepoName) : LinksRedb := {db with repos := db.repos.insert repo.text}

def referrerAdd (repo : RepoName) (subject referrer : Digest) (descriptor : ReferrerDescriptor) : LinksRedb :=
  {db with referrers := db.referrers.insert (referrerKey repo subject referrer) descriptor}

def subjectPart (subject : Digest) : Str := repo.text ++ '\x00' :: subject.asStr

def referrersOf (repo : RepoName) (subject : Digest) : List ReferrerDescriptor :=
  let (start,last) := prefixRange (subjectPart repo subject)
  (range db.referrers (.included start) (.excluded last)).map (·.2)

def tagSet (repo : RepoName) (tag : Tag) (digest : Digest) : LinksRedb :=
  let version := match db.tags[tagKey repo tag]? with
    | some entry => entry.version
    | none => 0
  {db with tags := db.tags.insert (tagKey repo tag) ⟨digest,version + 1⟩}

def tagDelete (repo : RepoName) (tag : Tag) : LinksRedb :=
  {db with tags := db.tags.erase (tagKey repo tag)}

-- The rows of a namespace: up to the successor of `ns\0`, or, where there is
-- none, up to the first key that does not start with it.
def tagList (ns : RepoName) : Except StoreError (List (Str × TagEntry)) :=
  let part := ns.text ++ ['\x00']
  let entry := fun row : Str × TagEntry => match stripPrefix part row.1 with
    | some name => .ok (name,row.2)
    | none => .error (.io "prefix mismatch".toList)
  match prefixSuccessor (toUtf8 part) with
  | some endBytes => match fromUtf8 endBytes with
    | some last => (range db.tags (.included part) (.excluded last)).mapM entry
    | none => .error (.io "utf8".toList)
  | none => ((range db.tags (.included part) .unbounded).takeWhile fun row => part.isPrefixOf row.1).mapM entry

def tagsPage (repo : RepoName) (after : Option Str) (limit : Nat) : Except OciStoreError (List Tag) :=
  if repo.text ∉ db.repos then .error (.unknownRepository repo.text)
  else match db.tagList repo with
    | .error e => .error (storeIo "list tags".toList e)
    | .ok entries =>
      let names := (entries.map (·.1)).filter fun name => after.all fun text => compare text name == .lt
      ((names.mergeSort fun a b => compare a b != .gt).take limit).mapM Tag.parse

end LinksRedb

-- What writes these tables, one row at a time. A manifest `PUT`, an import and a
-- manifest delete are several of them.
inductive RowWrite where
  | linkAdd (repo : RepoName) (digest : Digest) (kind : LinkKind) (mediaType : Option Str)
  | linkRemove (repo : RepoName) (digest : Digest)
  | repoTouch (repo : RepoName)
  | referrerAdd (repo : RepoName) (subject referrer : Digest) (descriptor : ReferrerDescriptor)
  | tagSet (repo : RepoName) (tag : Tag) (digest : Digest)
  | tagDelete (repo : RepoName) (tag : Tag)

def LinksRedb.write (db : LinksRedb) : RowWrite → LinksRedb
  | .linkAdd repo digest kind mediaType => db.linkAdd repo digest kind mediaType
  | .linkRemove repo digest => (db.linkRemove repo digest).2
  | .repoTouch repo => db.repoTouch repo
  | .referrerAdd repo subject referrer descriptor => db.referrerAdd repo subject referrer descriptor
  | .tagSet repo tag digest => db.tagSet repo tag digest
  | .tagDelete repo tag => db.tagDelete repo tag

def Content.write (c : Content) : RowWrite → Content
  | .linkAdd repo digest kind mediaType => c.linkAdd repo digest kind mediaType
  | .linkRemove repo digest => (c.linkRemove repo digest).2
  | .repoTouch repo => {c with repos := c.repos.insert repo}
  | .referrerAdd repo subject referrer descriptor => {c with referrers := c.referrers.insert (repo,subject,referrer) descriptor}
  | .tagSet repo tag digest => c.tagSet repo tag digest
  | .tagDelete repo tag => c.tagRemove repo tag

namespace RowKeys

theorem nul_first : Adjacent '\x00' '\x01' := by
  have lt_iff (a b : Char) : compare a b = .lt ↔ a.toNat < b.toNat := by
    rw [show compare a b = compareOfLessAndEq a b from rfl,compareOfLessAndEq_eq_lt]
    rfl
  have same_iff (a b : Char) : a = b ↔ a.toNat = b.toNat := Char.toNat_inj.symm
  constructor
  · intro a other
    rw [lt_iff]
    rw [ne_eq,same_iff] at other
    have zero : ('\x00' : Char).toNat = 0 := rfl
    omega
  · intro a
    rw [lt_iff,same_iff]
    have zero : ('\x00' : Char).toNat = 0 := rfl
    have one : ('\x01' : Char).toNat = 1 := rfl
    omega

theorem repo_apart : '\x00' ∉ repo.text := fun member =>
  absurd (Listing.repo_nameChar repo _ member) (by decide)

theorem digest_apart (digest : Digest) : '\x00' ∉ digest.asStr := by
  obtain ⟨algorithm,hex,valid⟩ := digest
  have letters := (Bool.and_eq_true_iff.mp valid).2
  intro member
  rcases mem_append.mp member with named | coded
  · have apart : '\x00' ∉ algorithm.name := by cases algorithm <;> decide
    exact apart named
  · rcases mem_cons.mp coded with colon | inside
    · exact absurd colon (by decide)
    · exact absurd (all_eq_true.mp letters _ inside) (by decide)

theorem links_spelled : Spelling fun key : RepoName × Digest => linkKey key.1 key.2 :=
  ⟨fun a b => compare_joined nul_first (repo_apart a.1) (repo_apart b.1) ..⟩

theorem tags_spelled : Spelling fun key : RepoName × Tag => tagKey key.1 key.2 :=
  ⟨fun a b => compare_joined nul_first (repo_apart a.1) (repo_apart b.1) ..⟩

theorem referrers_spelled : Spelling fun key : RepoName × Digest × Digest => referrerKey key.1 key.2.1 key.2.2 := by
  refine ⟨fun a b => (compare_joined nul_first (repo_apart a.1) (repo_apart b.1) ..).trans ?_⟩
  rw [compare_joined nul_first (digest_apart a.2.1) (digest_apart b.2.1)]
  rfl

def Within (bounds : Str × Str) (key : Str) : Prop := compare bounds.1 key ≠ .gt ∧ compare key bounds.2 = .lt

theorem prefix_within (part key : Str) : Within (prefixRange part) key ↔ ∃ rest,key = part ++ '\x00' :: rest :=
  within_part nul_first part key

theorem bounds_within (part key : Str) : ((included (prefixRange part).1).opens key &&
    (excluded (prefixRange part).2).closes key) = true ↔ Within (prefixRange part) key := by
  simp [opens,closes,Within]

theorem joined_inj {left right a b : Str} (one : '\x00' ∉ left) (two : '\x00' ∉ right)
    (same : left ++ '\x00' :: a = right ++ '\x00' :: b) : left = right ∧ a = b := by
  have cut := congrArg (splitOnce '\x00') same
  rw [splitOnce_append one,splitOnce_append two] at cut
  exact Prod.mk.inj (Option.some.inj cut)

theorem joined_within (one : '\x00' ∉ part) (two : '\x00' ∉ left) (rest : Str) :
    Within (prefixRange part) (left ++ '\x00' :: rest) ↔ left = part := by
  rw [prefix_within]
  constructor
  · rintro ⟨other,same⟩
    exact (joined_inj two one same).1
  · intro same
    exact ⟨rest,by rw [same]⟩

theorem link_within (repo other : RepoName) (digest : Digest) :
    Within (prefixRange repo.text) (linkKey other digest) ↔ other = repo :=
  (joined_within (repo_apart repo) (repo_apart other) _).trans text_injective.eq_iff

theorem tag_within (ns other : RepoName) (name : Tag) : Within (prefixRange ns.text) (tagKey other name) ↔ other = ns :=
  (joined_within (repo_apart ns) (repo_apart other) _).trans text_injective.eq_iff

theorem referrer_within (repo other : RepoName) (subject referrer : Digest) :
    Within (prefixRange repo.text) (referrerKey other subject referrer) ↔ other = repo :=
  (joined_within (repo_apart repo) (repo_apart other) _).trans text_injective.eq_iff

theorem subject_within (repo other : RepoName) (subject about referrer : Digest) :
    Within (prefixRange (LinksRedb.subjectPart repo subject)) (referrerKey other about referrer) ↔
      other = repo ∧ about = subject := by
  rw [prefix_within]
  constructor
  · rintro ⟨rest,same⟩
    have split : other.text ++ '\x00' :: (about.asStr ++ '\x00' :: referrer.asStr) =
        repo.text ++ '\x00' :: (subject.asStr ++ '\x00' :: rest) := same.trans (append_assoc ..)
    obtain ⟨first,later⟩ := joined_inj (repo_apart other) (repo_apart repo) split
    obtain ⟨second,_⟩ := joined_inj (digest_apart about) (digest_apart subject) later
    exact ⟨text_injective first,Digest.asStr_injective second⟩
  · rintro ⟨rfl,rfl⟩
    exact ⟨referrer.asStr,by simp [referrerKey,LinksRedb.subjectPart]⟩

theorem lastPart_joined {rest : Str} (apart : '\x00' ∉ rest) (part : Str) : lastPart (part ++ '\x00' :: rest) = rest := by
  have clear : ∀ c ∈ rest.reverse,decide (c ≠ '\x00') = true := by
    intro c member
    have other : c ≠ '\x00' := fun same => apart (same ▸ mem_reverse.mp member)
    simpa using other
  have turned : (part ++ '\x00' :: rest).reverse = rest.reverse ++ '\x00' :: part.reverse := by simp
  rw [lastPart,turned,takeWhile_append_of_pos clear]
  simp

theorem suffix_joined {name rest : Str} (one : '\x00' ∉ name) (two : '\x00' ∉ rest) (part : Str) :
    ('\x00' :: name).isSuffixOf (part ++ '\x00' :: rest) = decide (rest = name) := by
  rw [Bool.eq_iff_iff,decide_eq_true_iff,isSuffixOf_iff_suffix]
  constructor
  · rintro ⟨before,same⟩
    have last := congrArg lastPart same
    rw [lastPart_joined one,lastPart_joined two] at last
    exact last.symm
  · rintro rfl
    exact suffix_append ..

theorem successor_part (text : Str) : prefixSuccessor (toUtf8 (text ++ ['\x00'])) = some (toUtf8 (text ++ ['\x01'])) := by
  have zero : String.utf8EncodeChar '\x00' = [0] := by decide
  have one : String.utf8EncodeChar '\x01' = [1] := by decide
  simp [prefixSuccessor,toUtf8,zero,one,raiseLast]

theorem tagList_range (db : LinksRedb) (ns : RepoName) : db.tagList ns =
    (range db.tags (.included (prefixRange ns.text).1) (.excluded (prefixRange ns.text).2)).mapM fun row =>
      match stripPrefix (prefixRange ns.text).1 row.1 with
      | some name => .ok (name,row.2)
      | none => .error (.io "prefix mismatch".toList) := by
  have decoded : fromUtf8 (toUtf8 (ns.text ++ ['\x01'])) = some (ns.text ++ ['\x01']) := fromUtf8_iff.mpr rfl
  simp only [LinksRedb.tagList,successor_part,decoded]
  rfl

-- The tables under their texts hold the rows of the tables under tuples.
structure Stored (db : LinksRedb) (c : Content) : Prop where
  links : Spells (fun key => linkKey key.1 key.2) db.links c.links
  referrers : Spells (fun key => referrerKey key.1 key.2.1 key.2.2) db.referrers c.referrers
  tags : Spells (fun key => tagKey key.1 key.2) db.tags c.tags
  repos : ∀ repo : RepoName,repo.text ∈ db.repos ↔ repo ∈ c.repos

theorem created_stored : Stored .created created.toContent :=
  ⟨.empty,.empty,.empty,fun repo => by simp [LinksRedb.created,created]⟩

section Writes
variable {db : LinksRedb} {c : Content}

theorem repos_insert (known : ∀ repo : RepoName,repo.text ∈ db.repos ↔ repo ∈ c.repos) (added repo : RepoName) :
    repo.text ∈ db.repos.insert added.text ↔ repo ∈ c.repos.insert added := by
  rw [ExtTreeSet.mem_insert,ExtTreeSet.mem_insert,known,Std.compare_eq_iff_eq,Std.compare_eq_iff_eq,
    text_injective.eq_iff]

theorem remove_referrers (stored : Stored db c) (repo : RepoName) (digest : Digest) :
    Spells (fun key => referrerKey key.1 key.2.1 key.2.2) (db.linkRemove repo digest).2.referrers
      (c.linkRemove repo digest).2.referrers := by
  have collected : (db.linkRemove repo digest).2.referrers = eraseWhere db.referrers fun key =>
      (included (prefixRange repo.text).1).opens key && (excluded (prefixRange repo.text).2).closes key &&
        ('\x00' :: digest.asStr).isSuffixOf key := eraseRange ..
  rw [collected]
  refine stored.referrers.eraseWhere fun key => ?_
  have ends : ('\x00' :: digest.asStr).isSuffixOf (referrerKey key.1 key.2.1 key.2.2) = decide (key.2.2 = digest) := by
    have shape : referrerKey key.1 key.2.1 key.2.2 = LinksRedb.subjectPart key.1 key.2.1 ++ '\x00' :: key.2.2.asStr := by
      simp [referrerKey,LinksRedb.subjectPart]
    rw [shape,suffix_joined (digest_apart _) (digest_apart _)]
    exact decide_eq_decide.mpr Digest.asStr_injective.eq_iff
  rw [ends]
  congr 1
  rw [Bool.eq_iff_iff,bounds_within,referrer_within]
  simp

theorem write_stored (stored : Stored db c) (write : RowWrite) : Stored (db.write write) (c.write write) := by
  cases write with
  | linkAdd repo digest kind mediaType =>
    exact ⟨stored.links.insert links_spelled (repo,digest) _,stored.referrers,stored.tags,repos_insert stored.repos repo⟩
  | linkRemove repo digest =>
    exact ⟨stored.links.erase links_spelled (repo,digest),remove_referrers stored repo digest,stored.tags,stored.repos⟩
  | repoTouch repo => exact ⟨stored.links,stored.referrers,stored.tags,repos_insert stored.repos repo⟩
  | referrerAdd repo subject referrer descriptor =>
    exact ⟨stored.links,stored.referrers.insert referrers_spelled (repo,subject,referrer) descriptor,stored.tags,stored.repos⟩
  | tagSet repo tag digest =>
    have version : db.tags[tagKey repo tag]? = c.tags[(repo,tag)]? := stored.tags.kept (repo,tag)
    refine ⟨stored.links,stored.referrers,?_,stored.repos⟩
    simp only [LinksRedb.write,LinksRedb.tagSet,Content.write,Content.tagSet,version]
    exact stored.tags.insert tags_spelled (repo,tag) _
  | tagDelete repo tag => exact ⟨stored.links,stored.referrers,stored.tags.erase tags_spelled (repo,tag),stored.repos⟩

theorem writes_stored (stored : Stored db c) (writes : List RowWrite) :
    Stored (writes.foldl LinksRedb.write db) (writes.foldl Content.write c) := by
  induction writes generalizing db c with
  | nil => exact stored
  | cons write rest ih => exact ih (write_stored stored write)

end Writes

section Reads
variable {db : LinksRedb} {c : Content}

theorem after_within (inside : Within bounds last) (key : Str) :
    (compare last key = .lt ∧ compare key bounds.2 = .lt) ↔ Within bounds key ∧ compare last key = .lt := by
  constructor
  · rintro ⟨later,ends⟩
    have starts : (compare bounds.1 last).isLE = true := by simpa [Ordering.isLE_iff_ne_gt] using inside.1
    have before : compare bounds.1 key = .lt := TransCmp.lt_of_isLE_of_lt starts later
    exact ⟨⟨by simp [before],ends⟩,later⟩
  · rintro ⟨⟨_,ends⟩,later⟩
    exact ⟨later,ends⟩

theorem page_bounds (after : Option Digest) (key : RepoName × Digest) :
    ((match after with
        | some digest => excluded (linkKey repo digest)
        | none => .included (prefixRange repo.text).1).opens (linkKey key.1 key.2) &&
      (excluded (prefixRange repo.text).2).closes (linkKey key.1 key.2)) =
    (decide (key.1 = repo) && after.all fun last => compare last key.2 == .lt) := by
  obtain ⟨other,digest⟩ := key
  have within := link_within repo other digest
  rw [Bool.eq_iff_iff]
  cases after with
  | none => rw [bounds_within,within]; simp
  | some last =>
    have inside : Within (prefixRange repo.text) (linkKey repo last) := (link_within repo repo last).mpr rfl
    have ordered : compare (linkKey repo last) (linkKey other digest) = (compare repo other).then (compare last digest) :=
      links_spelled.ordered (repo,last) (other,digest)
    simp only [opens,closes,Bool.and_eq_true,beq_iff_eq,Option.all_some,decide_eq_true_eq]
    rw [after_within inside,within,ordered]
    refine and_congr_right fun same => ?_
    rw [same,compare_self]
    rfl

theorem linksPage_stored (stored : Stored db c) (repo : RepoName) (after : Option Digest) (limit : Nat) :
    db.linksPage repo after limit = .ok (c.linksPage repo after limit) := by
  have rows := stored.links.under links_spelled repo _ _ (fun digest => after.all fun last => compare last digest == .lt)
    (page_bounds repo after)
  unfold LinksRedb.linksPage Content.linksPage
  dsimp only
  rw [rows,←map_take]
  refine Fallible.mapM_returns fun row listed => ?_
  rw [show lastPart (linkKey repo row.1) = row.1.asStr from lastPart_joined (digest_apart row.1) _,Digest.parse_asStr]
  rfl

theorem referrersOf_stored (stored : Stored db c) (repo : RepoName) (subject : Digest) :
    db.referrersOf repo subject = c.referrersOf repo subject := by
  unfold LinksRedb.referrersOf Content.referrersOf
  dsimp only
  rw [stored.referrers.range referrers_spelled,map_map]
  have asks : (fun row : (RepoName × Digest × Digest) × ReferrerDescriptor =>
      (included (prefixRange (LinksRedb.subjectPart repo subject)).1).opens (referrerKey row.1.1 row.1.2.1 row.1.2.2) &&
        (excluded (prefixRange (LinksRedb.subjectPart repo subject)).2).closes
          (referrerKey row.1.1 row.1.2.1 row.1.2.2)) =
      fun row => decide (row.1.1 = repo) && decide (row.1.2.1 = subject) := by
    funext row
    rw [Bool.eq_iff_iff,bounds_within,subject_within]
    simp
  rw [asks]
  rfl

theorem tagList_stored (stored : Stored db c) (ns : RepoName) :
    db.tagList ns = .ok ((c.tagList ns).map fun row => (row.1.text,row.2)) := by
  have asks (key : RepoName × Tag) : ((included (prefixRange ns.text).1).opens (tagKey key.1 key.2) &&
      (excluded (prefixRange ns.text).2).closes (tagKey key.1 key.2)) = (decide (key.1 = ns) && true) := by
    rw [Bool.eq_iff_iff,bounds_within,tag_within]
    simp
  have rows := stored.tags.under tags_spelled ns _ _ (fun _ => true) asks
  have every : (rowsUnder c.tags ns).filter (fun _ => true) = c.tagList ns := filter_true _
  rw [tagList_range,rows,every,mapM_map]
  have stripped (row : Tag × TagEntry) : stripPrefix (prefixRange ns.text).1 (tagKey ns row.1) = some row.1.text := by
    have shape : tagKey ns row.1 = (prefixRange ns.text).1 ++ row.1.text := by simp [tagKey,prefixRange]
    rw [shape,stripPrefix,if_pos (prefix_append ..),drop_left]
  simp only [Function.comp_def,stripped]
  exact mapM_pure

theorem tagsPage_stored {s : OciStore} (stored : Stored db s.toContent) (repo : RepoName) (after : Option Str) (limit : Nat) :
    db.tagsPage repo after limit = (s.tagsPage repo after limit).1 := by
  unfold LinksRedb.tagsPage tagsPage
  rw [tagList_stored stored]
  by_cases known : repo ∈ s.repos
  · have listed : repo.text ∈ db.repos := (stored.repos repo).mpr known
    rw [if_neg (not_not_intro listed),if_neg (not_not_intro known)]
    have named : ((s.tagList repo).map fun row => (row.1.text,row.2)).map (·.1) =
        ((s.tagList repo).map (·.1)).map Tag.text := by simp
    have sorted : (((s.tagList repo).map (·.1)).map Tag.text).Pairwise fun a b => (compare a b != .gt) = true := by
      rw [pairwise_map,pairwise_map]
      refine (rowsUnder_sorted s.tags repo).imp fun {a b} before => ?_
      have order : compare a.1.text b.1.text = .lt := beq_iff_eq.mp before
      simp [order]
    dsimp only
    rw [named,mergeSort_of_pairwise (sorted.filter _),filter_map,←map_take]
    exact Fallible.mapM_returns fun tag _ => dif_pos tag.valid
  · have unlisted : repo.text ∉ db.repos := fun member => known ((stored.repos repo).mp member)
    rw [if_pos unlisted,if_pos known]

end Reads

-- The rows of a table whose keys are in a range: their keys are the ones of a
-- kind, and they come all and in the order of what the keys end in.
structure Lists {κ ν : Type} [Ord κ] (raw : Table Str ν) (bounds : Str × Str) (key : κ → Str) (rows : List (κ × ν)) :
    Prop where
  within : ∀ text v,raw[text]? = some v → (Within bounds text ↔ ∃ k,text = key k)
  sorted : rows.Pairwise fun a b => compare a.1 b.1 = .lt
  exact : ∀ k v,(k,v) ∈ rows ↔ raw[key k]? = some v

section Listed
variable {κ ν : Type} [Ord κ] [TransOrd κ] [LawfulEqOrd κ] {spell : RepoName × κ → Str} {raw : Table Str ν}
  {table : Table (RepoName × κ) ν}

theorem under_lists (spells : Spells spell raw table) {repo : RepoName}
    (within : ∀ key,Within (prefixRange repo.text) (spell key) ↔ key.1 = repo) :
    Lists raw (prefixRange repo.text) (fun rest => spell (repo,rest)) (rowsUnder table repo) := by
  refine ⟨fun text v found => ?_,(rowsUnder_sorted table repo).imp fun {a b} before => by simpa using before,fun k v => ?_⟩
  · constructor
    · intro inside
      obtain ⟨key,rfl⟩ := spells.written text v found
      have here := (within key).mp inside
      exact ⟨key.2,by rw [←here]⟩
    · rintro ⟨k,rfl⟩
      exact (within (repo,k)).mpr rfl
  · rw [mem_rowsUnder,spells.kept]

end Listed

theorem referrers_listed (stored : Stored db c) (repo : RepoName) (subject : Digest) :
    ∃ rows,Lists db.referrers (prefixRange (LinksRedb.subjectPart repo subject)) (referrerKey repo subject) rows ∧
      c.referrersOf repo subject = rows.map (·.2) := by
  refine ⟨(c.referrers.toList.filter fun row => row.1.1 = repo && row.1.2.1 = subject).map fun row => (row.1.2.2,row.2),
    ⟨fun text v found => ?_,?_,fun referrer descriptor => ?_⟩,by simp [Content.referrersOf]⟩
  · obtain ⟨⟨other,about,referrer⟩,rfl⟩ := stored.referrers.written text v found
    rw [subject_within]
    constructor
    · rintro ⟨rfl,rfl⟩
      exact ⟨referrer,rfl⟩
    · rintro ⟨name,same⟩
      have key : (other,about,referrer) = (repo,subject,name) := referrers_spelled.injective same
      obtain ⟨rfl,rest⟩ := Prod.mk.inj key
      exact ⟨rfl,(Prod.mk.inj rest).1⟩
  · rw [pairwise_map,pairwise_filter]
    refine ExtTreeMap.ordered_keys_toList.imp fun {a b} before hereA hereB => ?_
    obtain ⟨⟨repoA,subjectA,referrerA⟩,_⟩ := a
    obtain ⟨⟨repoB,subjectB,referrerB⟩,_⟩ := b
    simp only [Bool.and_eq_true,decide_eq_true_eq] at hereA hereB
    obtain ⟨rfl,rfl⟩ := hereA
    obtain ⟨rfl,rfl⟩ := hereB
    change (compare repoB repoB).then ((compare subjectB subjectB).then (compare referrerA referrerB)) = .lt at before
    simpa [compare_self] using before
  · rw [stored.referrers.kept (repo,subject,referrer),←mem_rows]
    simp only [mem_map,mem_filter,Bool.and_eq_true,decide_eq_true_eq]
    constructor
    · rintro ⟨⟨⟨other,about,name⟩,value⟩,⟨listed,rfl,rfl⟩,shape⟩
      obtain ⟨rfl,rfl⟩ := Prod.mk.inj shape
      exact listed
    · intro listed
      exact ⟨((repo,subject,referrer),descriptor),⟨listed,rfl,rfl⟩,rfl⟩

-- Whatever was written: the range of a repository holds its keys and no other
-- repository's, the range of a subject the keys of the subject, and each scan
-- returns every row of its own and no other.
theorem ranges_exact (writes : List RowWrite) (repo : RepoName) (subject : Digest) :
    (∀ other digest,Within (prefixRange repo.text) (linkKey other digest) ↔ other = repo) ∧
    (∀ other name,Within (prefixRange repo.text) (tagKey other name) ↔ other = repo) ∧
    (∀ other about referrer,Within (prefixRange repo.text) (referrerKey other about referrer) ↔ other = repo) ∧
    (∀ other about referrer,Within (prefixRange (LinksRedb.subjectPart repo subject)) (referrerKey other about referrer) ↔
      other = repo ∧ about = subject) ∧
    (∃ rows,Lists (writes.foldl LinksRedb.write .created).links (prefixRange repo.text) (linkKey repo) rows ∧ ∀ after limit,
      (writes.foldl LinksRedb.write .created).linksPage repo after limit =
        .ok ((rows.filter fun row => after.all fun last => compare last row.1 == .lt).take limit)) ∧
    (∃ rows,Lists (writes.foldl LinksRedb.write .created).referrers (prefixRange (LinksRedb.subjectPart repo subject))
        (referrerKey repo subject) rows ∧
      (writes.foldl LinksRedb.write .created).referrersOf repo subject = rows.map (·.2)) ∧
    (∃ rows,Lists (writes.foldl LinksRedb.write .created).tags (prefixRange repo.text) (tagKey repo) rows ∧
      (writes.foldl LinksRedb.write .created).tagList repo = .ok (rows.map fun row => (row.1.text,row.2)) ∧
      ∀ after limit,(writes.foldl LinksRedb.write .created).tagsPage repo after limit =
        if repo.text ∈ (writes.foldl LinksRedb.write .created).repos then
          .ok (((rows.map (·.1)).filter fun tag => after.all fun text => compare text tag.text == .lt).take limit)
        else .error (.unknownRepository repo.text)) := by
  have stored := writes_stored created_stored writes
  refine ⟨link_within repo,tag_within repo,referrer_within repo,?_,?_,?_,?_⟩
  · exact fun other about referrer => subject_within repo other subject about referrer
  · exact ⟨_,under_lists stored.links fun key => link_within repo key.1 key.2,linksPage_stored stored repo⟩
  · obtain ⟨rows,lists,same⟩ := referrers_listed stored repo subject
    exact ⟨rows,lists,(referrersOf_stored stored repo subject).trans same⟩
  · refine ⟨_,under_lists stored.tags fun key => tag_within repo key.1 key.2,tagList_stored stored repo,fun after limit => ?_⟩
    let s : OciStore := {created with toContent := writes.foldl Content.write created.toContent}
    rw [@tagsPage_stored _ s stored repo after limit]
    unfold tagsPage
    have known := stored.repos repo
    by_cases here : repo ∈ s.repos
    · rw [if_neg (not_not_intro here),if_pos (known.mpr here)]
      rfl
    · rw [if_pos here,if_neg fun member => here (known.mp member)]

end RowKeys
end HologramLive
