import HologramLive.Objects.Kappa
import HologramLive.Registry.PageLinks
namespace HologramLive.Objects
open Tables Rpc KappaRegistry Fallible KappaServer Option

theorem required_some {α : Type} {found : Option α} {a : α} (there : found = some a) :
    required found problem = .ok a := by
  rw [there]
  rfl

theorem decode_encode {metadata : ObjectMetadata} (sized : metadata.size < 2^64) (dated : metadata.createdAtMillis < 2^64) :
    decodeManifest (encodeManifest metadata) = .ok metadata := by
  obtain ⟨id,kind,mediaType,filename,size,created⟩ := metadata
  have number := Listing.parseUnsigned_decimal dated
  have whole : (.number size : JsonDocument).asU64 = some size := if_pos sized
  unfold decodeManifest encodeManifest
  refine (ok_bind (required_some (Json.parse_print _))).trans ?_
  refine (ok_bind (required_some rfl)).trans ?_
  refine (ok_bind (required_some rfl)).trans ?_
  cases filename
  all_goals
    refine (ok_bind (required_some rfl)).trans ?_
    refine (ok_bind (required_some number)).trans ?_
    exact congrArg (fun size => Except.ok (ObjectMetadata.mk id kind mediaType _ size created)) (congrArg (getD · 0) whole)

theorem tagFor_append (left right : Str) : tagFor (left ++ right) = tagFor left ++ tagFor right := List.map_append

theorem tagFor_plain (plain : ':' ∉ text) : tagFor text = text := by
  refine (List.map_congr_left fun c among => ?_).trans (List.map_id text)
  rw [if_neg]
  · rfl
  · rintro rfl
    exact plain among

theorem hexDigit_plain (digit : isHexDigit c = true) : c ≠ ':' ∧ c ≠ '_' := by
  constructor
  · rintro rfl
    exact absurd digit (by decide)
  · rintro rfl
    exact absurd digit (by decide)

theorem tagFor_id (digits : digest.all isHexDigit = true) : tagFor (blake3Prefix ++ digest) = tagPrefix ++ digest := by
  have plain : ':' ∉ digest := fun among => (hexDigit_plain (List.all_eq_true.mp digits _ among)).1 rfl
  rw [tagFor_append,tagFor_plain plain]
  rfl

theorem tagFor_under (under : '_' ∉ text) (same : tagFor source = text) : source = text := by
  have plain : ':' ∉ source := by
    intro among
    apply under
    rw [←same]
    exact List.mem_map.mpr ⟨':',among,rfl⟩
  exact (tagFor_plain plain).symm.trans same

theorem tagFor_eq {id digest : Str} (digits : digest.all isHexDigit = true) (same : tagFor id = tagPrefix ++ digest) :
    id = blake3Prefix ++ digest ∨ id = tagPrefix ++ digest := by
  have split : tagFor id = "blake3".toList ++ (['_'] ++ digest) := same
  obtain ⟨name,later,rfl,named,tail⟩ := List.map_eq_append_iff.mp split
  obtain ⟨mark,rest,rfl,marked,last⟩ := List.map_eq_append_iff.mp tail
  obtain rfl := tagFor_under (by decide) named
  have under : '_' ∉ digest := fun among => (hexDigit_plain (List.all_eq_true.mp digits _ among)).2 rfl
  obtain rfl := tagFor_under under last
  obtain ⟨c,rfl,colon⟩ := List.map_eq_singleton_iff.mp marked
  split at colon
  · rename_i same
    subst same
    exact .inl rfl
  · subst colon
    exact .inr rfl

-- A record whose numbers are those of its types and whose id is that of its digest.
structure Addressed (digest : Str) (metadata : ObjectMetadata) : Prop where
  id : metadata.id = blake3Prefix ++ digest
  long : digest.length = 64
  lower : digest.all isLowerHex = true
  sized : metadata.size < 2^64
  dated : metadata.createdAtMillis < 2^64

theorem Addressed.hex {metadata : ObjectMetadata} (addressed : Addressed digest metadata) :
    digest.all isHexDigit = true :=
  List.all_eq_true.mpr fun c among => lowerHex_hex (List.all_eq_true.mp addressed.lower c among)

theorem kappaFor_tag (long : digest.length = 64) (lower : digest.all isLowerHex = true) :
    kappaFor (tagPrefix ++ digest) = some (blake3Prefix ++ digest) := by
  have start : stripPrefix tagPrefix (tagPrefix ++ digest) = some digest := by
    unfold stripPrefix
    rw [if_pos (List.prefix_append _ _),List.drop_left]
  unfold kappaFor
  simp only [start,long,lower,ne_eq,not_true,if_false,if_true]

-- The local store and the service with its cache, when they hold the same objects.
structure Related (store : ObjectStore) (registry : KappaRegistry) : Prop where
  addressed : ∀ (digest : Str) (metadata : ObjectMetadata),store.metadata[digest]? = some metadata → Addressed digest metadata
  whole : ∀ digest : Str,(store.blobs[digest]?).isSome = (store.metadata[digest]?).isSome
  blobs : ∀ digest : Str,registry.server.blobs[blake3Prefix ++ digest]? = store.blobs[digest]?
  served : ∀ kappa ∈ registry.server.blobs,∃ digest,kappa = blake3Prefix ++ digest
  manifests : ∀ digest : Str,registry.server.manifests[tagPrefix ++ digest]? = (store.metadata[digest]?).map encodeManifest
  tags : ∀ tag ∈ registry.server.manifests,∃ digest,tag = tagPrefix ++ digest
  remembered : ∀ (tag : Str) (metadata : ObjectMetadata) (stored : Nat),registry.metadata[tag]? = some (metadata,stored) →
    ∃ digest,tag = tagPrefix ++ digest ∧ store.metadata[digest]? = some metadata

theorem related_empty : Related ObjectStore.empty empty where
  addressed _ _ found := by cases found
  whole _ := rfl
  blobs _ := rfl
  served _ among := by cases among
  manifests _ := rfl
  tags _ among := by cases among
  remembered _ _ _ found := by cases found

section Cache
variable {settings : KappaSettings} {store : ObjectStore} {registry : KappaRegistry} {now : Moment}

theorem remember_entries {metadata found : ObjectMetadata}
    (there : (remember settings registry now tag metadata).metadata[other]? = some (found,stored)) :
    tag = other ∧ found = metadata ∨ tag ≠ other ∧ registry.metadata[other]? = some (found,stored) := by
  unfold remember at there
  simp only [get_insert] at there
  split at there
  · rename_i same
    cases there
    exact .inl ⟨same,rfl⟩
  · rename_i apart
    refine .inr ⟨apart,?_⟩
    split at there
    · split at there
      · cases there
      · rw [Std.ExtTreeMap.getElem?_filter'] at there
        exact (filter_eq_some_iff.mp there).1
    · exact there

theorem remember_related (related : Related store registry) {metadata : ObjectMetadata}
    (recorded : store.metadata[digest]? = some metadata) :
    Related store (remember settings registry now (tagPrefix ++ digest) metadata) where
  addressed := related.addressed
  whole := related.whole
  blobs := related.blobs
  served := related.served
  manifests := related.manifests
  tags := related.tags
  remembered tag found stored there := by
    rcases remember_entries there with ⟨same,rfl⟩ | ⟨-,before⟩
    · exact ⟨digest,same.symm,recorded⟩
    · exact related.remembered tag found stored before

theorem cached_recorded (related : Related store registry) {metadata : ObjectMetadata}
    (found : cached settings registry now (tagPrefix ++ digest) = some metadata) :
    store.metadata[digest]? = some metadata := by
  unfold cached at found
  obtain ⟨⟨kept,stored⟩,there,current⟩ := bind_eq_some_iff.mp found
  obtain ⟨other,same,recorded⟩ := related.remembered _ _ _ there
  obtain rfl := List.append_cancel_left same
  split at current
  · cases current
    exact recorded
  · cases current

theorem metadataByTag_reads (related : Related store registry) (settings : KappaSettings) (now : Moment) (digest : Str) :
    ∃ after,metadataByTag settings registry now (tagPrefix ++ digest) = (.ok store.metadata[digest]?,after) ∧
      Related store after ∧ after.server = registry.server := by
  unfold metadataByTag
  cases found : cached settings registry now (tagPrefix ++ digest) with
  | some metadata => rw [cached_recorded related found]; exact ⟨registry,rfl,related,rfl⟩
  | none =>
    unfold getManifest
    rw [related.manifests digest]
    cases recorded : store.metadata[digest]? with
    | none => exact ⟨registry,rfl,related,rfl⟩
    | some metadata =>
      have addressed := related.addressed digest metadata recorded
      simp only [map_some,decode_encode addressed.sized addressed.dated]
      exact ⟨_,rfl,remember_related related recorded,rfl⟩

theorem metadataByTag_other (related : Related store registry) (other : ∀ digest : Str,
    tag = tagPrefix ++ digest → store.metadata[digest]? = none) :
    metadataByTag settings registry now tag = (.ok none,registry) := by
  have uncached : cached settings registry now tag = none := by
    unfold cached
    cases there : registry.metadata[tag]? with
    | none => rfl
    | some row =>
      obtain ⟨digest,same,recorded⟩ := related.remembered tag row.1 row.2 there
      rw [other digest same] at recorded
      cases recorded
  have unserved : registry.server.getManifest tag = none := by
    unfold getManifest
    cases there : registry.server.manifests[tag]? with
    | none => rfl
    | some body =>
      have among : tag ∈ registry.server.manifests := by
        rw [Std.ExtTreeMap.mem_iff_isSome_getElem?,there]; rfl
      obtain ⟨digest,same⟩ := related.tags tag among
      rw [same,related.manifests,other digest same] at there
      cases there
  unfold metadataByTag
  rw [uncached,unserved]

end Cache

section Writes
variable {settings : KappaSettings} {store : ObjectStore} {registry : KappaRegistry} {now : Moment} {digest : Str}
  {metadata : ObjectMetadata}

theorem record_related (related : Related store registry) (addressed : Addressed digest metadata) {blobs served : Table Str Bytes}
    (same : ∀ other : Str,served[blake3Prefix ++ other]? = blobs[other]?)
    (named : ∀ kappa ∈ served,∃ other,kappa = blake3Prefix ++ other)
    (grown : ∀ other : Str,(blobs[other]?).isSome = ((store.blobs[other]?).isSome || decide (other = digest))) :
    Related ⟨blobs,store.metadata.insert digest metadata⟩
      (record settings {registry with server := {registry.server with blobs := served}} now
        (tagPrefix ++ digest) metadata) := by
  constructor
  · intro other found there
    rw [get_insert] at there
    split at there
    · rename_i same
      cases there
      exact same ▸ addressed
    · exact related.addressed other found there
  · intro other
    show (blobs[other]?).isSome = _
    rw [grown,get_insert,related.whole]
    by_cases here : digest = other
    · rw [if_pos here,decide_eq_true here.symm,Bool.or_true]
      rfl
    · rw [if_neg here,decide_eq_false (Ne.symm here),Bool.or_false]
  · exact same
  · exact named
  · intro other
    show (registry.server.manifests.insert (tagPrefix ++ digest) (encodeManifest metadata))[tagPrefix ++ other]? = _
    rw [get_insert,get_insert]
    by_cases same : digest = other
    · rw [if_pos same,if_pos (congrArg (tagPrefix ++ ·) same)]
      rfl
    · rw [if_neg same,if_neg fun joined => same (List.append_cancel_left joined)]
      exact related.manifests other
  · intro tag among
    rcases Std.ExtTreeMap.mem_insert.mp among with same | before
    · exact ⟨digest,(Std.compare_eq_iff_eq.mp same).symm⟩
    · exact related.tags tag before
  · intro tag found since there
    rcases remember_entries there with ⟨same,rfl⟩ | ⟨apart,before⟩
    · exact ⟨digest,same.symm,by rw [get_insert,if_pos rfl]⟩
    · obtain ⟨other,named,recorded⟩ := related.remembered tag found since before
      refine ⟨other,named,?_⟩
      rw [get_insert,if_neg,recorded]
      rintro rfl
      exact apart named.symm

theorem putBlob_blobs {server : KappaServer} : (server.putBlob kappa bytes).blobs[other]? =
      if other = kappa then some ((server.blobs[kappa]?).getD bytes) else server.blobs[other]? := by
  unfold putBlob
  cases present : server.blobs[kappa]? with
  | some found =>
    simp only [isSome_some,if_true,getD_some]
    split
    · rename_i same
      rw [same,present]
    · rfl
  | none => simp only [isSome_none,Bool.false_eq_true,if_false,getD_none,get_insert,eq_comm]

theorem putBlob_manifests {server : KappaServer} :
    server.putBlob kappa bytes = {server with blobs := (server.putBlob kappa bytes).blobs} := by
  unfold putBlob
  split <;> rfl

theorem putObject_related (related : Related store registry) (settings : KappaSettings) (now : Moment) (blake3 : Blake3)
    (kind mediaType : Str) (filename : Option Str) (bytes : Bytes) :
    (putObject blake3 settings registry now kind mediaType filename bytes).1 =
      .ok (store.put blake3 now.millis.toNat kind mediaType filename bytes).1 ∧
    Related (store.put blake3 now.millis.toNat kind mediaType filename bytes).2
      (putObject blake3 settings registry now kind mediaType filename bytes).2 := by
  obtain ⟨long,lower⟩ := toHex_digest blake3 bytes
  have digits : (blake3.toHex bytes).all isHexDigit = true :=
    List.all_eq_true.mpr fun c among => lowerHex_hex (List.all_eq_true.mp lower c among)
  obtain ⟨read,looked,kept,served⟩ := metadataByTag_reads related settings now (blake3.toHex bytes)
  have tag : tagFor (blake3.id bytes) = tagPrefix ++ blake3.toHex bytes := tagFor_id digits
  have answer : (putObject blake3 settings registry now kind mediaType filename bytes).1 =
      .ok (store.put blake3 now.millis.toNat kind mediaType filename bytes).1 := by
    simp only [putObject,ObjectStore.put,ObjectStore.finishPut,tag,looked,LocalRegistry.writeBlob_metadata]
    cases store.metadata[blake3.toHex bytes]? <;> rfl
  refine ⟨answer,?_⟩
  have made : (putObject blake3 settings registry now kind mediaType filename bytes).2 =
      record settings {read with server := {read.server with
        blobs := (read.server.putBlob (blake3.id bytes) bytes).blobs}} now (tagPrefix ++ blake3.toHex bytes)
        (store.put blake3 now.millis.toNat kind mediaType filename bytes).1 := by
    rw [←putBlob_manifests]
    simp only [putObject,tag,looked] at answer ⊢
    exact congrArg (record settings _ now _) (Except.ok.inj answer)
  have put : (store.put blake3 now.millis.toNat kind mediaType filename bytes).2 =
      ⟨(store.writeBlob (blake3.toHex bytes) bytes).blobs,
        store.metadata.insert (blake3.toHex bytes) (store.put blake3 now.millis.toNat kind mediaType filename bytes).1⟩ := by
    simp only [ObjectStore.put,ObjectStore.finishPut,LocalRegistry.writeBlob_metadata]
  have same (other : Str) : blake3Prefix ++ other = blake3.id bytes ↔ other = blake3.toHex bytes := List.append_right_inj _
  rw [made,put]
  refine record_related kept ⟨rfl,long,lower,?_,?_⟩ ?_ ?_ ?_
  · exact Nat.lt_of_le_of_lt (Nat.min_le_right bytes.length u64Max) (by decide)
  · simp only [ObjectStore.put,ObjectStore.finishPut,LocalRegistry.writeBlob_metadata]
    cases recorded : store.metadata[blake3.toHex bytes]? with
    | some existing => exact (related.addressed _ existing recorded).dated
    | none => exact now.millis.toNat_lt
  · intro other
    rw [putBlob_blobs,LocalRegistry.writeBlob_blobs]
    by_cases here : other = blake3.toHex bytes
    · rw [if_pos ((same other).mpr here),if_pos here]
      exact congrArg (fun found => some (getD found bytes)) (kept.blobs _)
    · rw [if_neg (here ∘ (same other).mp),if_neg here]
      exact kept.blobs other
  · intro kappa among
    rw [Std.ExtTreeMap.mem_iff_isSome_getElem?,putBlob_blobs] at among
    split at among
    · rename_i same
      exact ⟨_,same⟩
    · exact kept.served kappa (Std.ExtTreeMap.mem_iff_isSome_getElem?.mpr among)
  · intro other
    rw [LocalRegistry.writeBlob_blobs]
    split
    · rename_i same
      simp [same]
    · rename_i apart
      simp [apart]

end Writes

def Same {α : Type} (here there : Except LiveError α) : Prop :=
  here = there ∨ (∃ text,here = .error (.notFound text)) ∧ ∃ text,there = .error (.notFound text)

theorem digestOf_error {id : Str} (failed : digestOf id = .error e) : ∃ text,e = .notFound text := by
  unfold digestOf validateId at failed
  split at failed
  · cases failed
    exact ⟨_,rfl⟩
  · split at failed
    · cases failed
    · cases failed
      exact ⟨_,rfl⟩

section Reads
variable {settings : KappaSettings} {store : ObjectStore} {registry : KappaRegistry} {now : Moment}

theorem spelled (related : Related store registry) (id : Str) :
    (∃ digest metadata,store.metadata[digest]? = some metadata ∧ Addressed digest metadata ∧ tagFor id = tagPrefix ++ digest ∧
      (id = blake3Prefix ++ digest ∨ id = tagPrefix ++ digest)) ∨
    metadataByTag settings registry now (tagFor id) = (.ok none,registry) ∧
      ∀ digest,digestOf id = .ok digest → store.metadata[digest]? = none := by
  by_cases recorded : ∃ digest metadata,tagFor id = tagPrefix ++ digest ∧ store.metadata[digest]? = some metadata
  · obtain ⟨digest,metadata,tag,there⟩ := recorded
    have addressed := related.addressed digest metadata there
    exact .inl ⟨digest,metadata,there,addressed,tag,tagFor_eq addressed.hex tag⟩
  · refine .inr ⟨metadataByTag_other related fun digest tag => ?_,fun digest read => ?_⟩
    · exact eq_none_iff_forall_ne_some.mpr fun metadata there => recorded ⟨digest,metadata,tag,there⟩
    · obtain ⟨rfl,-,digits⟩ := digestOf_ok.mp read
      exact eq_none_iff_forall_ne_some.mpr fun metadata there => recorded ⟨digest,metadata,tagFor_id digits,there⟩

theorem digestOf_tag (digest : Str) : ∃ text,digestOf (tagPrefix ++ digest) = .error (.notFound text) := ⟨_,rfl⟩

theorem getObject_related (related : Related store registry) (settings : KappaSettings) (now : Moment) (blake3 : Blake3) (id : Str) :
    Same (LocalRegistry.getObject blake3 store id) (getObject blake3 settings registry now id).1 ∧
    Related store (getObject blake3 settings registry now id).2 := by
  unfold getObject
  rcases @spelled settings store registry now related id with ⟨digest,metadata,there,addressed,tag,written⟩ | ⟨other,none⟩
  · obtain ⟨read,looked,kept,served⟩ := metadataByTag_reads related settings now digest
    rw [tag,looked,there]
    refine ⟨?_,kept⟩
    rcases written with rfl | rfl
    · have digested : digestOf (blake3Prefix ++ digest) = .ok digest := digestOf_ok.mpr ⟨rfl,addressed.long,addressed.hex⟩
      obtain ⟨bytes,blob⟩ := isSome_iff_exists.mp ((related.whole digest).trans (by rw [there]; rfl))
      have found : read.server.getBlob (blake3Prefix ++ digest) = .ok bytes := by
        unfold getBlob; rw [served,related.blobs,blob]
      refine .inl ?_
      unfold LocalRegistry.getObject
      refine (ok_bind (LocalRegistry.get_ok.mpr ⟨digest,digested,blob⟩)).trans ?_
      refine Eq.trans ?_ (ok_bind found).symm
      refine congrArg (verifyContent blake3 (blake3Prefix ++ digest) bytes >>= ·) (funext fun _ => ?_)
      exact ok_bind (LocalRegistry.metadataOf_ok.mpr ⟨digest,digested,there⟩)
    · obtain ⟨text,failed⟩ := digestOf_tag digest
      refine .inr ⟨⟨text,?_⟩,?_⟩
      · unfold LocalRegistry.getObject ObjectStore.get; rw [failed]
        rfl
      · have unserved : read.server.blobs[tagPrefix ++ digest]? = none := by
          rw [served]
          refine Std.ExtTreeMap.getElem?_eq_none fun among => ?_
          obtain ⟨other,same⟩ := related.served _ among
          cases same
        simp only [getBlob,unserved]; exact ⟨_,rfl⟩
  · rw [other]
    refine ⟨.inr ⟨?_,_,rfl⟩,related⟩
    unfold LocalRegistry.getObject ObjectStore.get
    cases read : digestOf id with
    | error e =>
      obtain ⟨text,rfl⟩ := digestOf_error read
      exact ⟨text,rfl⟩
    | ok digest =>
      have unstored : store.blobs[digest]? = Option.none := by
        have whole := related.whole digest
        rw [none digest read] at whole; exact isSome_eq_false_iff.mp whole |> isNone_iff_eq_none.mp
      simp only [bind,Except.bind,unstored]
      exact ⟨_,rfl⟩

theorem renameFile_related (related : Related store registry) (settings : KappaSettings) (now : Moment) {id filename : Str}
    (untagged : kappaFor id = none) (valid : validateFilename filename = .ok filename) :
    Same (store.renameFile id filename).1 (renameFile settings registry now id filename).1 ∧
    Related (store.renameFile id filename).2 (renameFile settings registry now id filename).2 := by
  unfold renameFile ObjectStore.renameFile
  rw [valid]
  rcases @spelled settings store registry now related id with ⟨digest,metadata,there,addressed,tag,written⟩ | ⟨other,none⟩
  · obtain ⟨read,looked,kept,served⟩ := metadataByTag_reads related settings now digest
    rcases written with rfl | rfl
    · have digested : digestOf (blake3Prefix ++ digest) = .ok digest := digestOf_ok.mpr ⟨rfl,addressed.long,addressed.hex⟩
      simp only [tag,looked,there,digested]
      split
      · exact ⟨.inr ⟨⟨_,rfl⟩,_,rfl⟩,kept⟩
      · refine ⟨.inl rfl,?_⟩
        have stored : ∀ other,(store.blobs[other]?).isSome = ((store.blobs[other]?).isSome || decide (other = digest)) := by
          intro other
          by_cases same : other = digest
          · rw [same,related.whole,there]; rfl
          · rw [decide_eq_false same,Bool.or_false]
        have renamed : Addressed digest {metadata with filename := some filename} :=
          ⟨addressed.id,addressed.long,addressed.lower,addressed.sized,addressed.dated⟩
        exact record_related kept renamed kept.blobs kept.served stored
    · rw [kappaFor_tag addressed.long addressed.lower] at untagged
      cases untagged
  · simp only [other]
    cases read : digestOf id with
    | error e =>
      obtain ⟨text,rfl⟩ := digestOf_error read
      exact ⟨.inr ⟨⟨_,rfl⟩,_,rfl⟩,related⟩
    | ok digest => simp only [none digest read]; exact ⟨.inr ⟨⟨_,rfl⟩,_,rfl⟩,related⟩

end Reads

end HologramLive.Objects
