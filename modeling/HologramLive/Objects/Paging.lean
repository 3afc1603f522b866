import HologramLive.Objects.Conformance
namespace HologramLive.Objects
open Tables Rpc Pages ObjectQuery KappaRegistry Option List LocalRegistry

-- The client that asks for the next page as long as it is told of one.
def follow {σ : Type} (provider : RegistryProvider σ) (query : ObjectQuery) : Nat → (Nat → Moment) → σ → Option Str →
    Option (Except LiveError (List ObjectPage))
  | 0,_,_,_ => none
  | turns+1,now,s,cursor =>
    match provider.search s (now 0) {query with cursor := cursor} with
    | (.error e,_) => some (.error e)
    | (.ok page,s) => match page.nextCursor with
      | none => some (.ok [page])
      | some last => (follow provider query turns (fun k => now (k+1)) s (some last)).map fun rest => rest.map (page :: ·)

-- The walk ends, every cursor is behind the one before it, and the pages together are
-- what is wanted, in order.
def Paged {σ : Type} (provider : RegistryProvider σ) (query : ObjectQuery) (now : Nat → Moment) (s : σ)
    (wanted : List ObjectMetadata) : Prop :=
  ∃ turns pages,follow provider query turns now s none = some (.ok pages) ∧ pages.flatMap (·.objects) = wanted ∧
    (pages.filterMap (·.nextCursor)).Pairwise fun a b => compare a b = .lt

section Gathered
variable {α : Type}

theorem gather_prefix (limit : Nat) (objects rows : List α) : (gather limit objects rows).1 <+: objects ++ rows := by
  induction rows generalizing objects with
  | nil => simp [gather]
  | cons row rest ih =>
    unfold gather
    split
    · exact prefix_append objects _
    · simpa using ih (objects ++ [row])

theorem gather_full_length {limit : Nat} {objects rows : List α} (further : (gather limit objects rows).2 = true) :
    (gather limit objects rows).1.length = limit := by
  induction rows generalizing objects with
  | nil => cases further
  | cons row rest ih =>
    unfold gather at further ⊢
    split
    · assumption
    · rename_i room
      rw [if_neg room] at further
      exact ih further

end Gathered

section Walks
variable {α σ : Type} {read : α → Option ObjectMetadata} {query : ObjectQuery} {provider : RegistryProvider σ} {rows : List α}
  {pages : Nat} {holds : σ → Prop}

def found (read : α → Option ObjectMetadata) (query : ObjectQuery) (row : α) : Option ObjectMetadata := (read row).filter query.matches

theorem hits_found (read : α → Option ObjectMetadata) (query : ObjectQuery) (rows : List α) :
    hits read query rows = rows.filterMap (found read query) := filter_filterMap

-- The rows in front of a cursor: none at first, later those up to the last one given.
def Stands (read : α → Option ObjectMetadata) (query : ObjectQuery) (front : List α) (cursor : Option Str) : Prop :=
  front = [] ∧ cursor = none ∨
    ∃ before row metadata,front = before ++ [row] ∧ found read query row = some metadata ∧ cursor = some metadata.id

def Lists (provider : RegistryProvider σ) (query : ObjectQuery) (read : α → Option ObjectMetadata) (rows : List α) (pages : Nat)
    (holds : σ → Prop) : Prop :=
  ∀ s now front rest cursor,holds s → rows = front ++ rest → Stands read query front cursor →
    ∃ after,provider.search s now {query with cursor := cursor} = (.ok (scanned read query query.effectiveLimit [] rest pages),after) ∧
      holds after

-- The last object of a page is what the next one starts behind.
theorem page_split (given : objects ++ [last] <+: (rest.take window).filterMap (found read query)) :
    ∃ front row back,rest = front ++ row :: back ∧ found read query row = some last ∧
      reached (found read query) window 0 rest = objects ++ [last] ++ reached (found read query) window 0 back := by
  obtain ⟨tail,whole⟩ := given
  rw [append_assoc] at whole
  obtain ⟨left,right,taken,first,later⟩ := filterMap_eq_append_iff.mp whole.symm
  obtain ⟨gap,row,back,rfl,none,here,-⟩ := filterMap_eq_cons_iff.mp later
  have split : rest = (left ++ gap) ++ row :: (back ++ rest.drop window) := by
    conv_lhs => rw [←take_append_drop window rest,taken]
    simp
  have near : 0 + (left ++ gap).length < window := by
    have sized := congrArg length taken
    simp at sized ⊢
    omega
  refine ⟨left ++ gap,row,back ++ rest.drop window,split,here,?_⟩
  have empty : gap.filterMap (found read query) = [] := filterMap_eq_nil_iff.mpr none
  conv_lhs => rw [split]
  rw [reached_front near here]
  simp [first,empty]

theorem scanned_step (read : α → Option ObjectMetadata) (query : ObjectQuery) {limit : Nat} (positive : 0 < limit) (rest : List α) (pages : Nat) :
    ((scanned read query limit [] rest pages).nextCursor = none ∧ (scanned read query limit [] rest pages).objects =
      reached (found read query) (maxLimit*pages) 0 rest) ∨
    ∃ front row back last,rest = front ++ row :: back ∧ found read query row = some last ∧
      (scanned read query limit [] rest pages).nextCursor = some last.id ∧
      (scanned read query limit [] rest pages).objects.getLast? = some last ∧
      reached (found read query) (maxLimit*pages) 0 rest =
        (scanned read query limit [] rest pages).objects ++ reached (found read query) (maxLimit*pages) 0 back := by
  unfold scanned
  rw [hits_found]
  generalize maxLimit*pages = window
  have within := gather_prefix limit [] ((rest.take window).filterMap (found read query))
  have count := @gather_full_length _ limit [] ((rest.take window).filterMap (found read query))
  have all := @gather_all _ limit [] ((rest.take window).filterMap (found read query))
  generalize gather limit [] ((rest.take window).filterMap (found read query)) = got at within count all
  obtain ⟨objects,further⟩ := got
  dsimp only at within count all ⊢
  have next {objects : List ObjectMetadata} (given : objects <+: (rest.take window).filterMap (found read query)) (some : objects ≠ []) :
      ∃ front row back last,rest = front ++ row :: back ∧ found read query row = Option.some last ∧
        lastId objects = Option.some last.id ∧ objects.getLast? = Option.some last ∧
        reached (found read query) window 0 rest = objects ++ reached (found read query) window 0 back := by
    obtain ⟨before,last,rfl⟩ := (eq_nil_or_concat' objects).resolve_left some
    obtain ⟨front,row,back,split,here,so⟩ := page_split given
    exact ⟨front,row,back,last,split,here,by simp [lastId],by simp,so⟩
  cases further with
  | true => exact .inr (next within fun none => by simp [none] at count; omega)
  | false =>
    have all := all rfl
    rw [nil_append] at all
    simp only [Bool.false_eq_true,if_false]
    split
    · by_cases none : objects = []
      · subst none; exact .inl ⟨rfl,(reached_none all.symm).symm⟩
      · exact .inr (next within none)
    · rename_i short
      rw [take_of_length_le (by omega)] at all
      exact .inl ⟨rfl,all.trans ((reached_dense 0 rest).mpr (dense_short (by omega))).symm⟩

theorem effectiveLimit_pos (query : ObjectQuery) : 0 < query.effectiveLimit := by
  unfold effectiveLimit maxLimit defaultLimit
  split <;> omega

-- Every page goes on where the one before it ended, and the walk ends after the first
-- stretch of rows that a search reads to its bound without a match.
theorem follow_reached (lists : Lists provider query read rows pages holds) (turns : Nat) (now : Nat → Moment) {s : σ}
    {front rest : List α} {cursor : Option Str} (held : holds s) (split : rows = front ++ rest) (stands : Stands read query front cursor) :
    (rest.length < turns → (follow provider query turns now s cursor).isSome = true) ∧
    ∀ outcome,follow provider query turns now s cursor = some outcome → ∃ given,outcome = .ok given ∧
      given.flatMap (·.objects) = reached (found read query) (maxLimit*pages) 0 rest ∧
      ∀ page ∈ given,∀ last,page.nextCursor = some last → ∃ metadata : ObjectMetadata,page.objects.getLast? = some metadata ∧ metadata.id = last := by
  induction turns generalizing now s front rest cursor with
  | zero => exact ⟨fun short => absurd short (Nat.not_lt_zero _),fun _ none => by cases none⟩
  | succ turns ih =>
    obtain ⟨after,searched,kept⟩ := lists s (now 0) front rest cursor held split stands
    rw [follow,searched]
    rcases scanned_step read query (effectiveLimit_pos query) rest pages with ⟨none,objects⟩ |
      ⟨before,row,back,last,shape,here,next,ends,so⟩
    · simp only [none]
      refine ⟨fun _ => rfl,fun outcome same => ?_⟩
      cases same
      refine ⟨_,rfl,by simpa using objects,fun page among last => ?_⟩
      rw [mem_singleton.mp among,none]
      exact fun absent => nomatch absent
    · simp only [next]
      have further := @ih (fun k => now (k+1)) after (front ++ before ++ [row]) back (some last.id) kept
        (by rw [split,shape]; simp) (.inr ⟨front ++ before,row,last,rfl,here,rfl⟩)
      refine ⟨fun short => ?_,fun outcome same => ?_⟩
      · rw [isSome_map]
        apply further.1
        have sized := congrArg length shape
        simp at sized
        omega
      · obtain ⟨later,ran,rfl⟩ := map_eq_some_iff.mp same
        obtain ⟨given,rfl,all,each⟩ := further.2 later ran
        refine ⟨_,rfl,by rw [flatMap_cons,all,so],fun page among => ?_⟩
        rcases mem_cons.mp among with rfl | among
        · intro stated found; rw [next] at found
          exact ⟨last,ends,Option.some.inj found⟩
        · exact each page among

theorem cursors_sublist {given : List ObjectPage} (each : ∀ page ∈ given,∀ last,page.nextCursor = some last →
    ∃ metadata : ObjectMetadata,page.objects.getLast? = some metadata ∧ metadata.id = last) :
    (given.filterMap (·.nextCursor)).Sublist ((given.flatMap (·.objects)).map (·.id)) := by
  induction given with
  | nil => exact .refl _
  | cons page rest ih =>
    have later := ih fun other among => each other (.tail _ among)
    rw [flatMap_cons,map_append,filterMap_cons]
    split
    · exact later.trans (sublist_append_right ..)
    · rename_i last next
      obtain ⟨metadata,ends,rfl⟩ := each page mem_cons_self last next
      refine List.Sublist.append (singleton_sublist.mpr ?_ : [metadata.id].Sublist _) later
      exact mem_map_of_mem (mem_of_getLast? ends)

theorem paged_iff (lists : Lists provider query read rows pages holds) (now : Nat → Moment) (held : holds s)
    (sorted : (rows.filterMap (found read query)).Pairwise fun a b => compare a.id b.id = .lt) :
    Paged provider query now s (rows.filterMap (found read query)) ↔
      Pages.Dense (found read query) (maxLimit*pages) 0 rows := by
  rw [←reached_dense]
  have walk (turns : Nat) := follow_reached lists turns now held (nil_append rows).symm (.inl ⟨rfl,rfl⟩)
  constructor
  · rintro ⟨turns,given,ran,whole,-⟩
    obtain ⟨_,same,all,-⟩ := (walk turns).2 _ ran
    cases same
    exact all.symm.trans whole
  · intro whole
    obtain ⟨outcome,ran⟩ := isSome_iff_exists.mp ((walk (rows.length+1)).1 (Nat.lt_succ_self _))
    obtain ⟨given,rfl,all,each⟩ := (walk (rows.length+1)).2 outcome ran
    refine ⟨_,given,ran,all.trans whole,(pairwise_map.mpr ?_).sublist (cursors_sublist each)⟩
    rw [all,whole]
    exact sorted

end Walks

section Local
variable {store : ObjectStore} {query : ObjectQuery}

theorem local_lists (own : Own store) (blake3 : Blake3) (query : ObjectQuery) :
    Lists (LocalRegistry.provider blake3) query some (store.metadata.toList.map (·.2)) (store.metadata.toList.length+1) (· = store) := by
  rintro s now front rest cursor rfl split stands
  refine ⟨s,?_,rfl⟩
  have behind' : afterCursor s {query with cursor := cursor} = rest := by
    unfold afterCursor
    rw [list_byId own]
    rcases stands with ⟨rfl,rfl⟩ | ⟨before,row,metadata,rfl,here,rfl⟩
    · rw [split]
      exact filter_eq_self.mpr fun _ _ => rfl
    · obtain ⟨same,-⟩ := filter_eq_some_iff.mp here
      cases same
      have sorted : Pages.Sorted (fun metadata : ObjectMetadata => metadata.id) (fun a b => compare a b == .lt) (s.metadata.toList.map (·.2)) :=
        .of_keys ((rows_sorted own).imp fun ordered => by simp [ordered])
      exact after_row sorted (split.trans (append_assoc ..))
  have short : rest.length < maxLimit*(s.metadata.toList.length+1) := by
    have sized := congrArg length split
    simp only [length_map,length_append] at sized
    unfold maxLimit
    omega
  show (Except.ok (search s {query with cursor := cursor}),s) = _
  rw [search_gathers,behind',scanned_short short,hits,filterMap_some]
  generalize effective : gather query.effectiveLimit [] (rest.filter query.matches) = found
  show (Except.ok (let page := gather query.effectiveLimit [] (rest.filter query.matches)
    (⟨page.1,if page.2 then lastId page.1 else none,false⟩ : ObjectPage)),s) = _
  rw [effective]
  obtain ⟨objects,further⟩ := found
  cases further <;> rfl

end Local

section Tagged
variable {registry : KappaRegistry} {settings : KappaSettings} {query : ObjectQuery}

-- What a tag of the service stands for; a tag of another kind is skipped.
def tagObject (server : KappaServer) (tag : Str) : Option ObjectMetadata :=
  if (kappaFor tag).isNone then none else (server.getManifest tag).bind fun body => (decodeManifest body).toOption

-- The tags of the registry's own form hold manifests of their objects, and what is
-- remembered of one is what its manifest says. Other tags hold anything.
structure Steady (registry : KappaRegistry) : Prop where
  own : ∀ tag id body : Str,kappaFor tag = some id → registry.server.manifests[tag]? = some body →
    ∃ metadata,decodeManifest body = .ok metadata ∧ metadata.id = id
  remembered : ∀ (tag : Str) (metadata : ObjectMetadata) (stored : Nat),registry.metadata[tag]? = some (metadata,stored) →
    ∃ body : Str,registry.server.manifests[tag]? = some body ∧ decodeManifest body = .ok metadata

theorem kappaFor_some {tag id : Str} (named : kappaFor tag = some id) :
    ∃ digest,tag = tagPrefix ++ digest ∧ id = blake3Prefix ++ digest ∧ digest.all isLowerHex = true := by
  unfold kappaFor at named
  split at named
  · cases named
  · rename_i digest start
    split at named
    · cases named
    · split at named
      · rename_i lower; cases named
        refine ⟨digest,?_,rfl,lower⟩
        unfold stripPrefix at start; split at start
        · rename_i starts
          obtain ⟨rest,rfl⟩ := starts
          rw [drop_left] at start; exact congrArg _ (Option.some.inj start)
        · cases start
      · cases named

theorem tagObject_named (steady : Steady registry) {metadata : ObjectMetadata}
    (there : tagObject registry.server tag = some metadata) : ∃ digest,tag = tagPrefix ++ digest ∧
      metadata.id = blake3Prefix ++ digest ∧ tagFor metadata.id = tag := by
  unfold tagObject at there
  cases named : kappaFor tag with
  | none => simp [named] at there
  | some id =>
    simp only [named,isNone_some,Bool.false_eq_true,if_false] at there
    obtain ⟨body,held,decoded⟩ := bind_eq_some_iff.mp there
    obtain ⟨own,read,rfl⟩ := steady.own tag id body named held
    rw [read] at decoded
    cases decoded
    obtain ⟨digest,rfl,same,lower⟩ := kappaFor_some named
    refine ⟨digest,rfl,same,?_⟩
    rw [same]
    exact tagFor_id (all_eq_true.mpr fun c among => lowerHex_hex (all_eq_true.mp lower c among))

theorem steady_reads (steady : Steady registry) (settings : KappaSettings) :
    Reads settings registry.server (tagObject registry.server) fun later => Steady later ∧ later.server = registry.server where
  served _ held := held.2
  other tag _ unnamed := by simp [tagObject,unnamed]
  own later now held tag among named := by
    obtain ⟨kept,same⟩ := held
    obtain ⟨id,named⟩ := isSome_iff_exists.mp named
    obtain ⟨body,there⟩ := isSome_iff_exists.mp (Std.ExtTreeMap.mem_iff_isSome_getElem?.mp among)
    obtain ⟨metadata,decoded,-⟩ := steady.own tag id body named there
    have stands : tagObject registry.server tag = some metadata := by
      simp [tagObject,named,KappaServer.getManifest,there,decoded,Except.toOption]
    rw [stands]
    unfold metadataByTag
    cases cached : KappaRegistry.cached settings later now tag with
    | some remembered =>
      refine ⟨later,?_,kept,same⟩
      unfold KappaRegistry.cached at cached
      obtain ⟨⟨row,stored⟩,present,current⟩ := bind_eq_some_iff.mp cached
      obtain ⟨text,under,reads⟩ := kept.remembered _ _ _ present
      rw [same,there] at under
      cases under
      rw [decoded] at reads
      split at current
      · cases current; cases reads
        rfl
      · cases current
    | none =>
      unfold KappaServer.getManifest
      rw [same,there]
      simp only [decoded]
      refine ⟨_,rfl,⟨kept.own,fun other record stored present => ?_⟩,same⟩
      rcases remember_entries present with ⟨rfl,rfl⟩ | ⟨-,before⟩
      · exact ⟨body,(congrArg (·.manifests[tag]?) same).trans there,decoded⟩
      · exact kept.remembered other record stored before

theorem kappa_lists (steady : Steady registry) (blake3 : Blake3) (settings : KappaSettings) (query : ObjectQuery) :
    Lists (KappaRegistry.provider blake3 settings) query (tagObject registry.server) registry.server.manifests.keys
      settings.maxScanPages fun later => Steady later ∧ later.server = registry.server := by
  intro s now front rest cursor held split stands
  refine scanPages_scanned (steady_reads steady settings) now {query with cursor := cursor} query.effectiveLimit [] held ?_ _
  rcases stands with ⟨rfl,rfl⟩ | ⟨before,row,metadata,rfl,here,rfl⟩
  · rw [split]
    exact filter_eq_self.mpr fun _ _ => rfl
  · obtain ⟨there,-⟩ := filter_eq_some_iff.mp here
    obtain ⟨-,-,-,tag⟩ := tagObject_named steady there
    simp only [map_some,all_some,tag]
    exact after_row (tags_sorted registry.server.manifests) (split.trans (append_assoc ..))

theorem kappa_paged (steady : Steady registry) (blake3 : Blake3) (settings : KappaSettings) (query : ObjectQuery) (now : Nat → Moment) :
    Paged (KappaRegistry.provider blake3 settings) query now registry
        (hits (tagObject registry.server) query registry.server.manifests.keys) ↔
      Pages.Dense (found (tagObject registry.server) query) (maxLimit*settings.maxScanPages) 0
        registry.server.manifests.keys := by
  rw [hits_found]
  refine paged_iff (kappa_lists steady blake3 settings query) now ⟨steady,rfl⟩ ?_
  refine List.Pairwise.filterMap _ (fun a b ordered left first right later => ?_) Std.ExtTreeMap.ordered_keys
  obtain ⟨one,rfl,left,-⟩ := tagObject_named steady (filter_eq_some_iff.mp first).1
  obtain ⟨two,rfl,right,-⟩ := tagObject_named steady (filter_eq_some_iff.mp later).1
  rw [left,right,id_compare]
  exact ordered

end Tagged

-- The local registry is paged to the end. The other one is exactly where no match
-- stands behind so many tags without one that a search reads to its bound: such a
-- search finds nothing, and its page names no next one.
theorem paging_complete (blake3 : Blake3) (settings : KappaSettings) (query : ObjectQuery) (now : Nat → Moment) :
    (∀ store,Own store → Paged (LocalRegistry.provider blake3) query now store
      (((store.list none).insertionSort byId).filter query.matches)) ∧
    ∀ registry,Steady registry → (Paged (KappaRegistry.provider blake3 settings) query now registry
        (hits (tagObject registry.server) query registry.server.manifests.keys) ↔
      Pages.Dense (found (tagObject registry.server) query) (maxLimit*settings.maxScanPages) 0
        registry.server.manifests.keys) := by
  refine ⟨fun store own => ?_,fun registry steady => kappa_paged steady blake3 settings query now⟩
  have wanted : ((store.list none).insertionSort byId).filter query.matches =
      (store.metadata.toList.map (·.2)).filterMap (found some query) := by
    rw [list_byId own,←hits_found,hits,filterMap_some]
  rw [wanted]
  refine (paged_iff (local_lists own blake3 query) now rfl ?_).mpr (dense_short ?_)
  · rw [←hits_found,hits,filterMap_some]
    exact (rows_sorted own).filter _
  · rw [length_map]
    unfold maxLimit
    omega

namespace Crowded

@[irreducible] def tags : List Str := (range 1000).map fun n => replicate (n+1) 'a'
def digest : Str := replicate 64 'a'
def sole : ObjectMetadata := ⟨blake3Prefix ++ digest,"file".toList,"text/plain".toList,none,1,0⟩
def registry : KappaRegistry := ⟨⟨(insertKeys ∅ tags []).insert (tagPrefix ++ digest) (encodeManifest sole),∅⟩,∅⟩
def query : ObjectQuery := ⟨none,none,none,none,none,none,none,0,none⟩

theorem replicate_compare (below : m < n) : compare (replicate m 'a') (replicate n 'a') = .lt := by
  induction m generalizing n with
  | zero =>
    obtain ⟨n,rfl⟩ := Nat.exists_eq_add_one.mpr below
    rfl
  | succ m ih =>
    obtain ⟨n,rfl⟩ := Nat.exists_eq_add_one.mpr (Nat.zero_lt_of_lt below)
    rw [replicate_succ,replicate_succ,List.compare_cons_cons]
    exact ih (by omega)

theorem tag_other {tag : Str} (among : tag ∈ tags) : kappaFor tag = none ∧ compare tag (tagPrefix ++ digest) = .lt := by
  unfold tags at among
  obtain ⟨n,-,rfl⟩ := List.mem_map.mp among
  refine ⟨eq_none_iff_forall_ne_some.mpr fun id named => ?_,rfl⟩
  obtain ⟨rest,same,-⟩ := kappaFor_some named
  cases same

theorem manifests_get (tag : Str) : registry.server.manifests[tag]? =
    if tagPrefix ++ digest = tag then some (encodeManifest sole) else if tag ∈ tags then some [] else none := by
  simp only [registry,get_insert,get_insertKeys,Std.ExtTreeMap.getElem?_empty]

theorem keys_eq : registry.server.manifests.keys = tags ++ [tagPrefix ++ digest] := by
  refine sorted_ext Std.ExtTreeMap.ordered_keys ?_ fun tag => ?_
  · refine pairwise_append.mpr ⟨?_,pairwise_singleton _ _,fun a first b last => ?_⟩
    · unfold tags
      exact pairwise_map.mpr (pairwise_lt_range.imp fun below => replicate_compare (Nat.succ_lt_succ below))
    · rw [mem_singleton.mp last]
      exact (tag_other first).2
  · rw [Std.ExtTreeMap.mem_keys,Std.ExtTreeMap.mem_iff_isSome_getElem?,manifests_get,mem_append,mem_singleton]
    grind

theorem steady : Steady registry where
  own tag id body named held := by
    rw [manifests_get] at held
    split at held
    · rename_i same
      cases held
      rw [←same,kappaFor_tag (by decide) (by decide)] at named
      cases named
      exact ⟨sole,decode_encode (by decide) (by decide),rfl⟩
    · split at held
      · rename_i among; rw [(tag_other among).1] at named
        cases named
      · cases held
  remembered tag metadata stored held := by cases held

end Crowded

-- A thousand other tags stand before the one object, and a search reads one page.
theorem crowded_unfound : Steady Crowded.registry ∧ ¬Paged (KappaRegistry.provider Conformance.blake3 ⟨1,0⟩) Crowded.query
    (fun _ => ⟨0,0⟩) Crowded.registry (hits (tagObject Crowded.registry.server) Crowded.query Crowded.registry.server.manifests.keys) := by
  refine ⟨Crowded.steady,fun paged => ?_⟩
  have dense := (kappa_paged Crowded.steady Conformance.blake3 ⟨1,0⟩ Crowded.query fun _ => ⟨0,0⟩).mp paged
  rw [Crowded.keys_eq] at dense
  have sized : Crowded.tags.length = 1000 := by
    unfold Crowded.tags
    rw [length_map,length_range]
  refine dense_gap (by rw [sized]; decide) (fun tag among => ?_) ?_ dense
  · simp [found,tagObject,(Crowded.tag_other among).1]
  · have named : kappaFor (tagPrefix ++ Crowded.digest) = some (blake3Prefix ++ Crowded.digest) := kappaFor_tag (by decide) (by decide)
    have held := Crowded.manifests_get (tagPrefix ++ Crowded.digest)
    rw [if_pos rfl] at held
    have decoded : decodeManifest (encodeManifest Crowded.sole) = .ok Crowded.sole := decode_encode (by decide) (by decide)
    simp only [found,tagObject,named,KappaServer.getManifest,held,isNone_some,Bool.false_eq_true,if_false,bind_some,decoded]
    rfl

end HologramLive.Objects
