import HologramLive.Objects.Agreement
namespace HologramLive.Objects
open Tables Rpc KappaRegistry Pages ObjectQuery LocalRegistry List

section Order

-- To a character on no side between them, a colon is what its underscore is.
theorem mark_compare (clear : y < ':' ∨ '_' < y) : compare (if c = ':' then '_' else c) y = compare c y := by
  split
  · rename_i same
    subst same
    show compareOfLessAndEq _ _ = compareOfLessAndEq _ _
    unfold compareOfLessAndEq
    rcases clear with low | high
    · have lower : y < '_' := Char.lt_trans low (by decide)
      have apart (c : Char) (below : y < c) : c ≠ y := fun same => Char.lt_irrefl y (same ▸ below)
      rw [if_neg (Char.lt_asymm lower),if_neg (apart _ lower),if_neg (Char.lt_asymm low),if_neg (apart _ low)]
    · have higher : ':' < y := Char.lt_trans (by decide) high
      rw [if_pos high,if_pos higher]
  · rfl

theorem clear_hex (digit : isLowerHex y = true) : y < ':' ∨ '_' < y := by
  unfold isLowerHex at digit
  simp only [Bool.or_eq_true,Bool.and_eq_true,decide_eq_true_eq] at digit
  rcases digit with ⟨-,low⟩ | ⟨high,-⟩
  · exact .inl (UInt32.lt_of_le_of_lt low (by decide))
  · exact .inr (UInt32.lt_of_lt_of_le (by decide) high)

theorem tagFor_compare (text : Str) (all : ∀ y ∈ clear,y < ':' ∨ '_' < y) : compare (tagFor text) clear = compare text clear := by
  induction text generalizing clear with
  | nil => rfl
  | cons c text ih =>
    cases clear with
    | nil => rfl
    | cons y clear =>
      obtain ⟨first,rest⟩ := List.forall_mem_cons.mp all
      show compare ((if c = ':' then '_' else c) :: tagFor text) (y :: clear) = _
      rw [List.compare_cons_cons,List.compare_cons_cons,mark_compare first,ih rest]

-- Only a cursor that parts from the ids at their colon, by a character up to the
-- underscore of their tags, is behind the ids and before the tags.
def ordered (cursor : Str) : Bool :=
  match stripPrefix "blake3".toList cursor with
  | some (c :: _) => !(decide (':' < c) && decide (c ≤ '_'))
  | _ => true

theorem compare_shared {shared : Str} (all : ∀ y ∈ shared,y < ':' ∨ '_' < y) {left right cursor : Str}
    (behind : ∀ rest,cursor = shared ++ rest → compare (tagFor rest) left = compare rest right) :
    compare (tagFor cursor) (shared ++ left) = compare cursor (shared ++ right) := by
  induction shared generalizing cursor with
  | nil => exact behind cursor rfl
  | cons y shared ih =>
    cases cursor with
    | nil => rfl
    | cons c cursor =>
      obtain ⟨first,rest⟩ := List.forall_mem_cons.mp all
      show compare ((if c = ':' then '_' else c) :: tagFor cursor) (y :: (shared ++ left)) = compare (c :: cursor) (y :: (shared ++ right))
      rw [List.compare_cons_cons,List.compare_cons_cons,mark_compare first]
      cases same : compare c y with
      | eq =>
        obtain rfl := Std.LawfulEqOrd.eq_of_compare same
        exact congrArg _ (ih rest fun tail same => behind tail (congrArg (c :: ·) same))
      | lt => rfl
      | gt => rfl

theorem compare_lt {a b : Char} (below : a < b) : compare a b = .lt := if_pos below

theorem compare_gt {a b : Char} (above : b < a) : compare a b = .gt := by
  show compareOfLessAndEq a b = .gt
  unfold compareOfLessAndEq
  rw [if_neg (Char.lt_asymm above),if_neg]
  rintro rfl
  exact Char.lt_irrefl a above

theorem cursor_compare {cursor digest : Str} (fine : ordered cursor = true) (lower : digest.all isLowerHex = true) :
    compare (tagFor cursor) (tagPrefix ++ digest) = compare cursor (blake3Prefix ++ digest) := by
  have letters : ∀ y ∈ "blake3".toList,y < ':' ∨ '_' < y := by decide
  have digits : ∀ y ∈ digest,y < ':' ∨ '_' < y := fun y among => clear_hex (all_eq_true.mp lower y among)
  refine @compare_shared "blake3".toList letters ('_' :: digest) (':' :: digest) cursor fun rest same => ?_
  cases rest with
  | nil => rfl
  | cons c rest =>
    show compare ((if c = ':' then '_' else c) :: tagFor rest) ('_' :: digest) = compare (c :: rest) (':' :: digest)
    rw [List.compare_cons_cons,List.compare_cons_cons,tagFor_compare rest digits]
    by_cases colon : c = ':'
    · rw [if_pos colon,colon]
      rfl
    · rw [if_neg colon]
      have start : stripPrefix "blake3".toList cursor = some (c :: rest) := by
        unfold stripPrefix; rw [same,if_pos (prefix_append _ _),drop_left]
      unfold ordered at fine
      rw [start] at fine
      simp only [Bool.not_eq_true',Bool.and_eq_false_iff,decide_eq_false_iff_not] at fine
      rcases fine with low | high
      · have below : c < ':' := by
          by_contra above
          exact colon (Char.le_antisymm (Char.not_lt.mp low) (Char.not_lt.mp above))
        rw [compare_lt below,compare_lt (Char.lt_trans below (by decide))]
      · have above : '_' < c := Char.not_le.mp high
        rw [compare_gt above,compare_gt (Char.lt_trans (by decide) above)]

end Order

section Scans
variable {settings : KappaSettings} {store : ObjectStore} {registry : KappaRegistry} {now : Moment}

def tagOf (row : Str × ObjectMetadata) : Str := tagPrefix ++ row.1

-- A registry whose tags read as records the same way whatever is remembered; a tag
-- of another kind reads as none.
structure Reads (settings : KappaSettings) (server : KappaServer) (read : Str → Option ObjectMetadata)
    (holds : KappaRegistry → Prop) : Prop where
  served : ∀ registry,holds registry → registry.server = server
  other : ∀ tag ∈ server.manifests,kappaFor tag = none → read tag = none
  own : ∀ registry now,holds registry → ∀ tag ∈ server.manifests,(kappaFor tag).isSome = true →
    ∃ after,metadataByTag settings registry now tag = (.ok (read tag),after) ∧ holds after

section Reading
variable {server : KappaServer} {α : Type} {read : α → Option ObjectMetadata} {tagRead : Str → Option ObjectMetadata}
  {holds : KappaRegistry → Prop}

def hits (read : α → Option ObjectMetadata) (query : ObjectQuery) (rows : List α) : List ObjectMetadata :=
  (rows.filterMap read).filter query.matches

theorem hits_append (read : α → Option ObjectMetadata) (query : ObjectQuery) (left right : List α) :
    hits read query (left ++ right) = hits read query left ++ hits read query right := by
  simp [hits]

-- Tags are read as the records that match, up to one more than the limit.
theorem scanTags_gathers (reads : Reads settings server tagRead holds) (now : Moment) (query : ObjectQuery) (limit : Nat)
    (objects : List ObjectMetadata) (present : ∀ tag ∈ tags,tag ∈ server.manifests) (held : holds registry) :
    ∃ after,scanTags settings now query limit registry objects tags =
        (.ok (gather limit objects (hits tagRead query tags)),after) ∧ holds after := by
  induction tags generalizing registry objects with
  | nil => exact ⟨registry,rfl,held⟩
  | cons tag tags ih =>
    obtain ⟨here,rest⟩ := List.forall_mem_cons.mp present
    rw [scanTags]
    cases named : kappaFor tag with
    | none =>
      have skipped : hits tagRead query (tag :: tags) = hits tagRead query tags := by simp [hits,reads.other tag here named]
      rw [skipped]
      exact ih objects rest held
    | some id =>
      obtain ⟨read,looked,kept⟩ := reads.own registry now held tag here (by rw [named]; rfl)
      rw [looked]
      cases found : tagRead tag with
      | none =>
        have skipped : hits tagRead query (tag :: tags) = hits tagRead query tags := by simp [hits,found]
        rw [skipped]; exact ih objects rest kept
      | some metadata =>
        cases hit : query.matches metadata with
        | false =>
          have skipped : hits tagRead query (tag :: tags) = hits tagRead query tags := by simp [hits,found,hit]
          rw [skipped]
          simp only [Option.isNone_some,Bool.false_eq_true,if_false,hit,Bool.not_false,if_true]
          exact ih objects rest kept
        | true =>
          have taken : hits tagRead query (tag :: tags) = metadata :: hits tagRead query tags := by simp [hits,found,hit]
          rw [taken]; simp only [Option.isNone_some,Bool.false_eq_true,if_false,hit,Bool.not_true]
          by_cases full : objects.length = limit
          · rw [if_pos full,gather_full full]; exact ⟨read,rfl,kept⟩
          · rw [if_neg full,gather_more full]; exact ih (objects ++ [metadata]) rest kept

def scanned (read : α → Option ObjectMetadata) (query : ObjectQuery) (limit : Nat) (objects : List ObjectMetadata) (rows : List α)
    (pages : Nat) : ObjectPage :=
  let (objects,further) := gather limit objects (hits read query (rows.take (maxLimit*pages)))
  if further then ⟨objects,lastId objects,false⟩
  else if maxLimit*pages ≤ rows.length then ⟨objects,lastId objects,true⟩
  else ⟨objects,none,false⟩

section Scanned
variable {query : ObjectQuery} {limit pages : Nat} {objects : List ObjectMetadata} {rows : List α}

-- A first page that leaves room is followed by the pages of the rows behind it.
theorem scanned_next (whole : maxLimit ≤ rows.length)
    (room : (gather limit objects (hits read query (rows.take maxLimit))).2 = false) :
    scanned read query limit objects rows (pages+1) =
      scanned read query limit (gather limit objects (hits read query (rows.take maxLimit))).1
        (rows.drop maxLimit) pages := by
  unfold scanned
  rw [Nat.mul_succ,Nat.add_comm (maxLimit*pages),take_add,hits_append,gather_append,if_neg (by
    rw [room]
    exact Bool.false_ne_true)]
  have longer : maxLimit+maxLimit*pages ≤ rows.length ↔
      maxLimit*pages ≤ (rows.drop maxLimit).length := by
    rw [length_drop]
    omega
  simp only [longer]

theorem scanned_further (further : (gather limit objects (hits read query (rows.take maxLimit))).2 = true) :
    scanned read query limit objects rows (pages+1) = ⟨(gather limit objects (hits read query (rows.take maxLimit))).1,
        lastId (gather limit objects (hits read query (rows.take maxLimit))).1,false⟩ := by
  unfold scanned
  rw [Nat.mul_succ,Nat.add_comm (maxLimit*pages),take_add,hits_append,gather_append,if_pos further]
  dsimp only
  rw [if_pos further]

theorem scanned_short (short : rows.length < maxLimit*pages) : scanned read query limit objects rows pages =
    let (objects,further) := gather limit objects (hits read query rows)
    if further then ⟨objects,lastId objects,false⟩ else ⟨objects,none,false⟩ := by
  unfold scanned
  rw [take_of_length_le (Nat.le_of_lt short)]
  simp only [if_neg (Nat.not_le.mpr short)]

theorem scanned_map {β : Type} (f : β → α) (rows : List β) :
    scanned read query limit objects (rows.map f) pages = scanned (read ∘ f) query limit objects rows pages := by
  simp only [scanned,hits,←map_take,filterMap_map,length_map]; rfl

end Scanned

theorem tags_sorted {κ : Type} (manifests : Table Str κ) :
    Pages.Sorted id (fun a b => compare a b == .lt) manifests.keys :=
  .of_keys (Std.ExtTreeMap.ordered_keys.imp fun ordered => by simp [ordered])

theorem scanPages_page {query : ObjectQuery} {limit pages : Nat} {cursor : Option Str} {after : KappaRegistry} (some : (registry.server.listTags maxLimit cursor).tags.isEmpty = false)
    (read : scanTags settings now query limit registry objects
      (registry.server.listTags maxLimit cursor).tags = (.ok (found,further),after)) :
    scanPages settings now query limit (pages+1) registry cursor objects =
      if further then (.ok ⟨found,lastId found,false⟩,after)
      else match (registry.server.listTags maxLimit cursor).next with
        | .some next => scanPages settings now query limit pages after (.some next) found
        | none => (.ok ⟨found,none,false⟩,after) := by
  rw [scanPages]
  simp only [some,read]
  cases further <;> rfl

theorem listTags_next (server : KappaServer) (limit : Nat) (cursor : Option Str) : (server.listTags limit cursor).next =
    if limit ≤ (server.listTags limit cursor).tags.length then (server.listTags limit cursor).tags.getLast? else none := rfl

theorem scanPages_scanned (reads : Reads settings server tagRead holds) (now : Moment) (query : ObjectQuery) (limit : Nat)
    (objects : List ObjectMetadata) {cursor : Option Str} (held : holds registry)
    (rest : (server.manifests.keys.filter fun tag => cursor.all fun last => compare last tag == .lt) = rows) (pages : Nat) :
    ∃ after,scanPages settings now query limit pages registry cursor objects =
      (.ok (scanned tagRead query limit objects rows pages),after) ∧ holds after := by
  induction pages generalizing registry objects rows cursor with
  | zero => exact ⟨registry,by simp [scanPages,scanned,hits,gather],held⟩
  | succ pages ih =>
    have listed : (registry.server.listTags maxLimit cursor).tags = rows.take maxLimit := by
      unfold KappaServer.listTags pageAfter
      dsimp only [id]
      rw [reads.served registry held,rest]
    have next := listTags_next registry.server maxLimit cursor
    rw [listed] at next
    have present : ∀ tag ∈ rows.take maxLimit,tag ∈ server.manifests := fun tag among => by
      have within := mem_of_mem_take among
      rw [←rest] at within
      exact Std.ExtTreeMap.mem_keys.mp (mem_of_mem_filter within)
    obtain ⟨after,gathered,kept⟩ := scanTags_gathers reads now query limit objects present held
    rw [←listed] at gathered
    cases rows with
    | nil =>
      have empty : scanPages settings now query limit (pages+1) registry cursor objects =
          (.ok ⟨objects,none,false⟩,registry) := by
        rw [scanPages,listed]; rfl
      rw [empty,scanned_short (Nat.mul_pos (by decide) (Nat.succ_pos pages))]
      exact ⟨registry,rfl,held⟩
    | cons row rows =>
      have some : (registry.server.listTags maxLimit cursor).tags.isEmpty = false := by
        rw [listed]; rfl
      rw [scanPages_page some gathered,listed]
      cases further : (gather limit objects (hits tagRead query ((row :: rows).take maxLimit))).2 with
      | true => rw [scanned_further further]; exact ⟨after,rfl,kept⟩
      | false =>
        rw [if_neg Bool.false_ne_true,next,length_take]
        by_cases whole : maxLimit ≤ (row :: rows).length
        · rw [Nat.min_eq_left whole,if_pos (Nat.le_refl _)]
          obtain ⟨last,got⟩ : ∃ last,((row :: rows).take maxLimit).getLast? = .some last := ⟨_,getLast?_cons⟩
          have later : (server.manifests.keys.filter fun tag => (Option.some last).all fun last => compare last tag == .lt) =
              (row :: rows).drop maxLimit := after_page (tags_sorted server.manifests) rest got
          obtain ⟨done,found,so⟩ := ih (gather limit objects (hits tagRead query ((row :: rows).take maxLimit))).1
            kept later
          rw [got,scanned_next whole further]; exact ⟨done,found,so⟩
        · have short := Nat.lt_of_not_le whole
          rw [Nat.min_eq_right (Nat.le_of_lt short),if_neg whole,
            scanned_short (Nat.lt_of_lt_of_le short (Nat.le_mul_of_pos_right _ (Nat.succ_pos pages)))]
          rw [take_of_length_le (Nat.le_of_lt short)] at further ⊢
          dsimp only; rw [further]
          exact ⟨after,rfl,kept⟩

end Reading

theorem after_isLE (id cursor : Str) : (compare id cursor).isLE = !(compare cursor id == .lt) := by
  rw [@Std.OrientedCmp.eq_swap _ compare _ id cursor]
  cases compare cursor id <;> rfl

def behind (cursor : Option Str) (metadata : ObjectMetadata) : Bool :=
  cursor.all fun cursor => compare cursor metadata.id == .lt

theorem scan_gathers (query : ObjectQuery) (limit : Nat) (objects rows : List ObjectMetadata) :
    scan query limit objects rows =
      ((gather limit objects ((rows.filter (behind query.cursor)).filter query.matches)).1,
        !(gather limit objects ((rows.filter (behind query.cursor)).filter query.matches)).2) := by
  induction rows generalizing objects with
  | nil => rfl
  | cons metadata rows ih =>
    have passed : (query.cursor.any fun cursor => (compare metadata.id cursor).isLE) = !behind query.cursor metadata := by
      unfold behind
      cases query.cursor with
      | none => rfl
      | some cursor => exact after_isLE metadata.id cursor
    unfold scan
    rw [passed,filter_cons]
    cases behind query.cursor metadata with
    | false => exact ih objects
    | true =>
      simp only [Bool.not_true,Bool.false_eq_true,if_false,if_true]
      rw [filter_cons]
      cases query.matches metadata with
      | false => exact ih objects
      | true =>
        simp only [Bool.not_true,Bool.false_eq_true,if_false,if_true]
        by_cases full : objects.length = limit
        · rw [if_pos full,gather_full full]; rfl
        · rw [if_neg full,gather_more full]; exact ih (objects ++ [metadata])

theorem tagOf_compare (left right : Str × ObjectMetadata) : compare (tagOf left) (tagOf right) = compare left.1 right.1 := by
  unfold tagOf tagPrefix
  rfl

theorem keys_tags (related : Related store registry) : registry.server.manifests.keys = store.metadata.toList.map tagOf := by
  refine sorted_ext Std.ExtTreeMap.ordered_keys ?_ fun tag => ?_
  · rw [pairwise_map]
    exact Std.ExtTreeMap.ordered_keys_toList.imp fun {a b} ordered => (tagOf_compare a b).trans ordered
  · rw [Std.ExtTreeMap.mem_keys,mem_map]
    constructor
    · intro among
      obtain ⟨digest,rfl⟩ := related.tags tag among
      have served := related.manifests digest
      cases recorded : store.metadata[digest]? with
      | none =>
        rw [recorded] at served; rw [Std.ExtTreeMap.mem_iff_isSome_getElem?,served] at among
        cases among
      | some metadata => exact ⟨(digest,metadata),mem_rows.mpr recorded,rfl⟩
    · rintro ⟨row,among,rfl⟩
      rw [Std.ExtTreeMap.mem_iff_isSome_getElem?]
      unfold tagOf
      rw [related.manifests,mem_rows.mp among]
      rfl

theorem byId_total (left right : ObjectMetadata) : byId left right ∨ byId right left := by
  unfold byId
  rw [@Std.OrientedCmp.eq_swap _ compare _ left.id right.id]
  cases compare right.id left.id
  · exact .inr rfl
  · exact .inr rfl
  · exact .inl rfl

instance : Std.Total byId := ⟨byId_total⟩
instance : IsTrans ObjectMetadata byId := ⟨fun _ _ _ first second => Std.TransCmp.isLE_trans first second⟩

theorem id_compare (left right : Str) : compare (blake3Prefix ++ left) (blake3Prefix ++ right) = compare left right := by
  unfold blake3Prefix
  rfl

theorem recorded_addressed (related : Related store registry) (among : row ∈ store.metadata.toList) :
    Addressed row.1 row.2 := related.addressed row.1 row.2 (mem_rows.mp among)

def Own (store : ObjectStore) : Prop :=
  ∀ (digest : Str) (metadata : ObjectMetadata),store.metadata[digest]? = some metadata → metadata.id = blake3Prefix ++ digest

theorem Own.id_of (own : Own store) (among : row ∈ store.metadata.toList) :
    row.2.id = blake3Prefix ++ row.1 := own row.1 row.2 (mem_rows.mp among)

theorem rows_sorted (own : Own store) : (store.metadata.toList.map (·.2)).Pairwise fun a b => compare a.id b.id = .lt := by
  rw [pairwise_map]
  refine Std.ExtTreeMap.ordered_keys_toList.imp_of_mem fun {a b} here there ordered => ?_
  rw [own.id_of here,own.id_of there,id_compare,ordered]

theorem list_byId (own : Own store) : (store.list none).insertionSort byId = store.metadata.toList.map (·.2) := by
  have unfiltered : (store.metadata.toList.map (·.2)).filter (fun metadata => (none : Option Str).all fun expected => metadata.kind = expected) =
      store.metadata.toList.map (·.2) := filter_eq_self.mpr fun _ _ => rfl
  have permuted : ((store.list none).insertionSort byId).Perm (store.metadata.toList.map (·.2)) := by
    unfold ObjectStore.list
    rw [unfiltered]
    exact (perm_insertionSort _ _).trans (perm_insertionSort _ _)
  have sorted : (store.metadata.toList.map (·.2)).Pairwise byId := (rows_sorted own).imp fun {a b} ordered => by
    unfold byId
    rw [ordered]
    rfl
  refine permuted.eq_of_pairwise (fun a b first second before after => ?_) (pairwise_insertionSort _ _) sorted
  obtain ⟨left,here,rfl⟩ := mem_map.mp (permuted.mem_iff.mp first)
  obtain ⟨right,there,rfl⟩ := mem_map.mp second
  have same : left.2.id = right.2.id := Std.LawfulEqOrd.eq_of_compare (Std.OrientedCmp.isLE_antisymm before after)
  rw [own.id_of here,own.id_of there] at same
  have key : left.1 = right.1 := append_cancel_left same
  have found := mem_rows.mp here
  rw [key,mem_rows.mp there] at found
  exact (Option.some.inj found).symm

def afterCursor (store : ObjectStore) (query : ObjectQuery) : List ObjectMetadata :=
  ((store.list none).insertionSort byId).filter (behind query.cursor)

theorem search_gathers (store : ObjectStore) (query : ObjectQuery) : LocalRegistry.search store query =
    let (objects,further) := gather query.effectiveLimit [] ((afterCursor store query).filter query.matches)
    ⟨objects,if further then lastId objects else none,false⟩ := by
  unfold LocalRegistry.search
  rw [scan_gathers]
  show _ = let (objects,further) := gather query.effectiveLimit [] ((afterCursor store query).filter query.matches)
    (⟨objects,if further then lastId objects else none,false⟩ : ObjectPage)
  unfold afterCursor
  generalize gather query.effectiveLimit [] _ = found
  obtain ⟨objects,further⟩ := found
  cases further <;> rfl

-- The answer of a search that came to its bound: what matches among the records it
-- read, which are the first of those that an unbounded search returns.
structure Bounded (settings : KappaSettings) (store : ObjectStore) (query : ObjectQuery) (page : ObjectPage) : Prop where
  reached : maxLimit*settings.maxScanPages ≤ (afterCursor store query).length
  objects : page.objects = ((afterCursor store query).take (maxLimit*settings.maxScanPages)).filter query.matches
  first : page.objects <+: (LocalRegistry.search store query).objects
  nextCursor : page.nextCursor = lastId page.objects
  truncated : page.truncated = true

theorem scanned_search (settings : KappaSettings) (store : ObjectStore) (query : ObjectQuery) :
    scanned some query query.effectiveLimit [] (afterCursor store query) settings.maxScanPages = LocalRegistry.search store query ∨
    Bounded settings store query (scanned some query query.effectiveLimit [] (afterCursor store query) settings.maxScanPages) := by
  have unbounded := search_gathers store query
  have split : (afterCursor store query).filter query.matches =
      ((afterCursor store query).take (maxLimit*settings.maxScanPages)).filter query.matches ++
        ((afterCursor store query).drop (maxLimit*settings.maxScanPages)).filter query.matches := by
    rw [←filter_append,take_append_drop]
  rw [split,gather_append] at unbounded
  unfold scanned hits
  simp only [filterMap_some]
  cases further : (gather query.effectiveLimit []
      (((afterCursor store query).take (maxLimit*settings.maxScanPages)).filter query.matches)).2 with
  | true =>
    rw [if_pos further] at unbounded
    dsimp only at unbounded ⊢
    rw [unbounded,further]
    exact .inl rfl
  | false =>
    rw [if_neg (by rw [further]; exact Bool.false_ne_true)] at unbounded
    dsimp only at unbounded ⊢
    rw [if_neg Bool.false_ne_true]
    split
    · rename_i reached
      refine .inr ⟨reached,gather_all further,?_,rfl,rfl⟩
      rw [unbounded]
      exact gather_grows _ _ _
    · rename_i within
      have none : (afterCursor store query).drop (maxLimit*settings.maxScanPages) = [] :=
        drop_of_length_le (Nat.le_of_lt (Nat.lt_of_not_le within))
      rw [none] at unbounded
      exact .inl unbounded.symm

theorem rows_after (related : Related store registry) {query : ObjectQuery} (fine : query.cursor.all ordered = true) :
    (registry.server.manifests.keys.filter fun tag => (query.cursor.map tagFor).all fun last => compare last tag == .lt) =
      (store.metadata.toList.filter fun row => behind query.cursor row.2).map tagOf := by
  rw [keys_tags related,filter_map]
  congr 1
  refine filter_congr fun row among => ?_
  have addressed := recorded_addressed related among
  unfold behind
  cases given : query.cursor with
  | none => rfl
  | some cursor =>
    rw [given] at fine
    show (compare (tagFor cursor) (tagPrefix ++ row.1) == .lt) = (compare cursor row.2.id == .lt)
    rw [cursor_compare fine addressed.lower,addressed.id]

def tagRecord (store : ObjectStore) (tag : Str) : Option ObjectMetadata :=
  (stripPrefix tagPrefix tag).bind fun digest => store.metadata[digest]?

theorem tagRecord_tag (store : ObjectStore) (digest : Str) : tagRecord store (tagPrefix ++ digest) = store.metadata[digest]? := by
  unfold tagRecord stripPrefix
  rw [if_pos (prefix_append _ _),drop_left]
  rfl

theorem related_reads (related : Related store registry) (settings : KappaSettings) :
    Reads settings registry.server (tagRecord store) fun later => Related store later ∧ later.server = registry.server where
  served _ held := held.2
  other tag among unnamed := by
    obtain ⟨digest,rfl⟩ := related.tags tag among
    rw [tagRecord_tag]
    cases recorded : store.metadata[digest]? with
    | none => rfl
    | some metadata =>
      have addressed := related.addressed _ _ recorded
      rw [kappaFor_tag addressed.long addressed.lower] at unnamed
      cases unnamed
  own later now held tag among _ := by
    obtain ⟨digest,rfl⟩ := related.tags tag among
    obtain ⟨after,looked,kept,still⟩ := metadataByTag_reads held.1 settings now digest
    rw [tagRecord_tag]
    exact ⟨after,looked,kept,still.trans held.2⟩

theorem search_related (related : Related store registry) (settings : KappaSettings) (now : Moment)
    (fine : query.cursor.all ordered = true) :
    ∃ page after,KappaRegistry.search settings registry now query = (.ok page,after) ∧ Related store after ∧
      (page = LocalRegistry.search store query ∨ Bounded settings store query page) := by
  obtain ⟨after,read,kept⟩ := scanPages_scanned (related_reads related settings) now query query.effectiveLimit [] ⟨related,rfl⟩
    (rows_after related fine) settings.maxScanPages
  have rows : scanned (tagRecord store) query query.effectiveLimit []
        ((store.metadata.toList.filter fun row => behind query.cursor row.2).map tagOf) settings.maxScanPages =
      scanned some query query.effectiveLimit [] (afterCursor store query) settings.maxScanPages := by
    have listed : afterCursor store query = (store.metadata.toList.filter fun row => behind query.cursor row.2).map (·.2) := by
      unfold afterCursor
      rw [list_byId (fun digest metadata found => (related.addressed digest metadata found).id),filter_map]
      rfl
    rw [listed,scanned_map,scanned_map]
    unfold scanned hits
    rw [filterMap_congr fun row among => ?_]
    have found := mem_rows.mp (mem_of_mem_filter (mem_of_mem_take among))
    exact (tagRecord_tag store row.1).trans found
  rw [rows] at read
  exact ⟨_,after,read,kept.1,scanned_search settings store query⟩

end Scans

end HologramLive.Objects

namespace HologramLive.Objects
open Tables Rpc

inductive RegistryCall where
  | put (kind mediaType : Str) (filename : Option Str) (bytes : Bytes)
  | get (id : Str)
  | renameFile (id filename : Str)
  | search (query : ObjectQuery)

inductive Answer where
  | object (metadata : ObjectMetadata)
  | content (content : ObjectContent)
  | page (page : ObjectPage)

def Answer.filename : Answer → Option Str
  | .object metadata => metadata.filename
  | .content found => found.metadata.filename
  | .page _ => none

namespace RegistryProvider
variable {σ : Type} (provider : RegistryProvider σ)

def call (s : σ) (now : Moment) : RegistryCall → Except LiveError Answer × σ
  | .put kind mediaType filename bytes =>
    let (result,s) := provider.putObject s now kind mediaType filename bytes
    (result.map .object,s)
  | .get id =>
    let (result,s) := provider.getObject s now id
    (result.map .content,s)
  | .renameFile id filename =>
    let (result,s) := provider.renameFile s now id filename
    (result.map .object,s)
  | .search query =>
    let (result,s) := provider.search s now query
    (result.map .page,s)

def after (s : σ) (calls : List (Moment × RegistryCall)) : σ :=
  calls.foldl (fun s call => (provider.call s call.1 call.2).2) s

end RegistryProvider

-- An id is not written as its tag, a filename is one that needs no trimming, and a
-- cursor does not part from the ids between their colon and the underscore.
def RegistryCall.plain : RegistryCall → Prop
  | .put .. => True
  | .get _ => True
  | .renameFile id filename => kappaFor id = none ∧ validateFilename filename = .ok filename
  | .search query => query.cursor.all ordered = true

-- How the answers of the two providers to a call may go together.
inductive Alike (settings : KappaSettings) (store : ObjectStore) :
    RegistryCall → Except LiveError Answer → Except LiveError Answer → Prop where
  | same {call : RegistryCall} (answer : Except LiveError Answer) : Alike settings store call answer answer
  | missing {call : RegistryCall} (here there : Str) :
      Alike settings store call (.error (.notFound here)) (.error (.notFound there))
  | bounded {query : ObjectQuery} {page : ObjectPage} (bounded : Bounded settings store query page) :
      Alike settings store (.search query) (.ok (.page (LocalRegistry.search store query))) (.ok (.page page))

section Runs
variable {blake3 : Blake3} {settings : KappaSettings} {store : ObjectStore} {registry : KappaRegistry}

theorem Same.alike {α : Type} {here there : Except LiveError α} (same : Same here there) (wrap : α → Answer) (call : RegistryCall) :
    Alike settings store call (here.map wrap) (there.map wrap) := by
  rcases same with rfl | ⟨⟨left,rfl⟩,right,rfl⟩
  · exact .same _
  · exact .missing left right

theorem call_alike (related : Related store registry) (now : Moment) {call : RegistryCall} (plain : call.plain) :
    Alike settings store call ((LocalRegistry.provider blake3).call store now call).1
      ((KappaRegistry.provider blake3 settings).call registry now call).1 ∧
    Related ((LocalRegistry.provider blake3).call store now call).2 ((KappaRegistry.provider blake3 settings).call registry now call).2 := by
  cases call with
  | put kind mediaType filename bytes =>
    obtain ⟨answer,kept⟩ := putObject_related related settings now blake3 kind mediaType filename bytes
    exact ⟨Same.alike (.inl answer.symm) .object _,kept⟩
  | get id =>
    obtain ⟨same,kept⟩ := getObject_related related settings now blake3 id
    exact ⟨same.alike .content _,kept⟩
  | renameFile id filename =>
    obtain ⟨same,kept⟩ := renameFile_related related settings now plain.1 plain.2
    exact ⟨same.alike .object _,kept⟩
  | search query =>
    obtain ⟨page,after,read,kept,either⟩ := search_related related settings now plain
    have answered : (KappaRegistry.provider blake3 settings).call registry now (.search query) = (.ok (.page page),after) := by
      show ((KappaRegistry.search settings registry now query).1.map Answer.page,(KappaRegistry.search settings registry now query).2) = _
      rw [read]
      rfl
    rw [answered]
    refine ⟨?_,kept⟩
    rcases either with rfl | bounded
    · exact .same _
    · exact .bounded bounded

theorem after_related (related : Related store registry) (plain : ∀ call ∈ calls,call.2.plain) :
    Related ((LocalRegistry.provider blake3).after store calls) ((KappaRegistry.provider blake3 settings).after registry calls) := by
  induction calls generalizing store registry with
  | nil => exact related
  | cons call calls ih =>
    obtain ⟨first,rest⟩ := List.forall_mem_cons.mp plain
    exact ih (call_alike related call.1 first).2 rest

end Runs

theorem providers_alike (blake3 : Blake3) (settings : KappaSettings) (calls : List (Moment × RegistryCall))
    (plain : ∀ call ∈ calls,call.2.plain) (now : Moment) (call : RegistryCall) (last : call.plain) :
    Alike settings ((LocalRegistry.provider blake3).after ObjectStore.empty calls) call
      ((LocalRegistry.provider blake3).call ((LocalRegistry.provider blake3).after ObjectStore.empty calls) now call).1
      ((KappaRegistry.provider blake3 settings).call ((KappaRegistry.provider blake3 settings).after KappaRegistry.empty calls) now call).1 :=
  (call_alike (after_related related_empty plain) now last).1

-- What a registry is for: one object for each id. A put of an id that is known gives
-- its record anew, and leaves its bytes and the time of its creation.
def remember (blake3 : Blake3) (known : Str → Option ObjectContent) (call : Moment × RegistryCall) : Str → Option ObjectContent :=
  match call.2 with
  | .put kind mediaType filename bytes =>
    let id := blake3.id bytes
    let before := known id
    Function.update known id (some ⟨⟨id,kind,mediaType,filename,saturated bytes.length,
      (before.map (·.metadata.createdAtMillis)).getD call.1.millis.toNat⟩,(before.map (·.bytes)).getD bytes⟩)
  | .renameFile id filename =>
    match validateFilename filename,known id with
    | .ok filename,some content =>
      if content.metadata.kind = "file".toList then
        Function.update known id (some {content with metadata := {content.metadata with filename := some filename}})
      else known
    | _,_ => known
  | _ => known

section Remembered
open LocalRegistry
variable {blake3 : Blake3} {store after : ObjectStore} {known : Str → Option ObjectContent}

structure Recalls (blake3 : Blake3) (store : ObjectStore) (known : Str → Option ObjectContent) : Prop where
  blob : ∀ digest : Str,store.blobs[digest]? = (known (blake3Prefix ++ digest)).map (·.bytes)
  record : ∀ digest : Str,store.metadata[digest]? = (known (blake3Prefix ++ digest)).map (·.metadata)
  named : ∀ id content,known id = some content → blake3.id content.bytes = id

theorem Recalls.write (recalls : Recalls blake3 store known) {digest : Str} {content : ObjectContent}
    (named : blake3.id content.bytes = blake3Prefix ++ digest)
    (blob : ∀ other : Str,after.blobs[other]? = if other = digest then some content.bytes else store.blobs[other]?)
    (record : ∀ other : Str,after.metadata[other]? = if other = digest then some content.metadata else store.metadata[other]?) :
    Recalls blake3 after (Function.update known (blake3Prefix ++ digest) (some content)) := by
  have moved (other : Str) : Function.update known (blake3Prefix ++ digest) (some content) (blake3Prefix ++ other) =
      if other = digest then some content else known (blake3Prefix ++ other) := by
    simp only [Function.update_apply,List.append_cancel_left_eq]
  refine ⟨fun other => ?_,fun other => ?_,fun id found here => ?_⟩
  · rw [blob,moved,apply_ite (Option.map _),←recalls.blob,Option.map_some]
  · rw [record,moved,apply_ite (Option.map _),←recalls.record,Option.map_some]
  · rw [Function.update_apply] at here
    split at here
    · rename_i same
      cases here
      exact named.trans same.symm
    · exact recalls.named id found here

theorem Recalls.call (recalls : Recalls blake3 store known) (call : Moment × RegistryCall) :
    Recalls blake3 ((LocalRegistry.provider blake3).call store call.1 call.2).2 (remember blake3 known call) := by
  obtain ⟨now,call⟩ := call
  cases call with
  | get | search => exact recalls
  | put kind mediaType filename bytes =>
    have held := recalls.blob (blake3.toHex bytes)
    have listed := recalls.record (blake3.toHex bytes)
    refine recalls.write ?_ (fun other => put_blobs.trans ?_) fun other => put_records.trans ?_
    · cases before : known (blake3.id bytes) with
      | none => rfl
      | some old => exact recalls.named _ old before
    · split
      · rename_i same; rw [same,held]
        rfl
      · rfl
    · simp only [ObjectStore.put,ObjectStore.finishPut,writeBlob_metadata,listed,Blake3.id]
      cases known (blake3Prefix ++ blake3.toHex bytes) <;> rfl
  | renameFile id filename =>
    show Recalls blake3 (store.renameFile id filename).2 (remember blake3 known (now,.renameFile id filename))
    simp only [ObjectStore.renameFile,remember]
    cases validateFilename filename with
    | error e => exact recalls
    | ok filename =>
      dsimp only
      cases before : known id with
      | none =>
        cases read : digestOf id with
        | error e => exact recalls
        | ok digest =>
          have absent := recalls.record digest
          rw [←(digestOf_ok.mp read).1,before,Option.map_none] at absent
          dsimp only; rw [absent]
          exact recalls
      | some content =>
        have named := recalls.named id content before
        have blob := recalls.blob (blake3.toHex content.bytes)
        have record := recalls.record (blake3.toHex content.bytes)
        rw [show blake3Prefix ++ blake3.toHex content.bytes = id from named,before,Option.map_some] at blob record
        rw [←named,digestOf_id]
        dsimp only; rw [record]
        dsimp only; split
        · exact recalls
        · rename_i file; rw [if_pos (not_not.mp file)]
          refine recalls.write rfl (fun other => ?_) fun other => ?_
          · split
            · rename_i same; rw [same]
              exact blob
            · rfl
          · simp only [get_insert,eq_comm]

theorem objects_remembered (blake3 : Blake3) (calls : List (Moment × RegistryCall)) (id : Str) (content : ObjectContent) :
    LocalRegistry.getObject blake3 ((LocalRegistry.provider blake3).after ObjectStore.empty calls) id = .ok content ↔
      calls.foldl (remember blake3) (fun _ => none) id = some content := by
  have run (store : ObjectStore) (known : Str → Option ObjectContent) (recalls : Recalls blake3 store known) :
      Recalls blake3 ((LocalRegistry.provider blake3).after store calls) (calls.foldl (remember blake3) known) := by
    induction calls generalizing store known with
    | nil => exact recalls
    | cons call calls ih => exact ih _ _ (recalls.call call)
  have recalls := run ObjectStore.empty (fun _ => none) ⟨fun _ => by simp [ObjectStore.empty],fun _ => by simp [ObjectStore.empty],fun _ _ none => by cases none⟩
  generalize (LocalRegistry.provider blake3).after ObjectStore.empty calls = store at recalls ⊢
  generalize calls.foldl (remember blake3) (fun _ => none) = known at recalls ⊢
  rw [getObject_ok]
  constructor
  · rintro ⟨digest,read,blob,-,record⟩
    obtain ⟨rfl,-⟩ := digestOf_ok.mp read
    rw [recalls.blob,Option.map_eq_some_iff] at blob
    obtain ⟨found,here,bytes⟩ := blob
    rw [recalls.record,here,Option.map_some,Option.some.injEq] at record
    obtain ⟨metadata,_⟩ := found
    cases bytes
    cases record
    exact here
  · intro here
    have named := recalls.named id content here
    have read := digestOf_id blake3 content.bytes
    rw [named] at read
    have whole : id = blake3Prefix ++ blake3.toHex content.bytes := named.symm
    exact ⟨_,read,by rw [recalls.blob,←whole,here,Option.map_some],named,by rw [recalls.record,←whole,here,Option.map_some]⟩

end Remembered

namespace Conformance

def blake3 : Blake3 where
  hash bytes :=
    if bytes = [97] then
      [23,118,47,221,217,105,164,83,146,93,101,113,122,195,238,162,19,32,182,107,84,52,47,222,21,18,141,108,175,33,33,95]
    else List.replicate 32 0
  whole bytes := by split <;> rfl

def settings : KappaSettings := ⟨64,30000⟩
def noted : Moment := ⟨1700000000000,0⟩
def stored : List (Moment × RegistryCall) := [(noted,.put "file".toList "text/plain".toList (some "b.txt".toList) [97])]
def absent : Str := blake3Prefix ++ List.replicate 64 '0'

variable (calls : List (Moment × RegistryCall))

def here (call : RegistryCall) : Except LiveError Answer :=
  ((LocalRegistry.provider blake3).call ((LocalRegistry.provider blake3).after ObjectStore.empty calls) noted call).1
def there (call : RegistryCall) : Except LiveError Answer :=
  ((KappaRegistry.provider blake3 settings).call ((KappaRegistry.provider blake3 settings).after KappaRegistry.empty calls) noted call).1

end Conformance

open Conformance

theorem providers_alike_renamed :
    Alike Conformance.settings ((LocalRegistry.provider Conformance.blake3).after ObjectStore.empty stored)
      (.renameFile (Conformance.blake3.id [97]) "c.txt".toList)
      (Conformance.here stored (.renameFile (Conformance.blake3.id [97]) "c.txt".toList))
      (Conformance.there stored (.renameFile (Conformance.blake3.id [97]) "c.txt".toList)) := by
  refine providers_alike Conformance.blake3 Conformance.settings stored (fun call among => ?_) Conformance.noted _ ?_
  · obtain rfl := List.mem_singleton.mp among
    trivial
  · exact ⟨by decide,by rfl⟩

-- One provider trims the name and the other does not, and of an id that neither has
-- they tell in different words.
theorem providers_differ :
    ((Conformance.here stored (.renameFile (Conformance.blake3.id [97]) " c.txt ".toList)).toOption.bind Answer.filename =
        some "c.txt".toList ∧
      (Conformance.there stored (.renameFile (Conformance.blake3.id [97]) " c.txt ".toList)).toOption.bind Answer.filename =
        some " c.txt ".toList) ∧ Conformance.here stored (.renameFile absent "c.txt".toList) ≠
      Conformance.there stored (.renameFile absent "c.txt".toList) := by
  refine ⟨⟨by decide,by decide⟩,fun same => ?_⟩
  have texts := congrArg (fun answer : Except LiveError Answer => match answer with
    | .error e => e.message
    | .ok _ => []) same
  exact absurd texts (by decide)

end HologramLive.Objects
