import HologramLive.Lib.Pages
import HologramLive.Objects.Store
namespace HologramLive.Rpc
open Tables

def ObjectQuery.defaultLimit : Nat := 100
def ObjectQuery.maxLimit : Nat := 1000

def ObjectQuery.effectiveLimit (query : ObjectQuery) : Nat :=
  min (if query.limit = 0 then defaultLimit else query.limit) maxLimit

def ObjectQuery.«matches» (query : ObjectQuery) (metadata : ObjectMetadata) : Bool :=
  (query.kind.all fun kind => kind = metadata.kind) &&
  (query.mediaType.all fun mediaType => mediaType = metadata.mediaType) &&
  (query.filenameContains.all fun needle => metadata.filename.any fun name => needle <:+: name) &&
  (query.minSize.all fun least => !decide (metadata.size < least)) &&
  (query.maxSize.all fun most => !decide (most < metadata.size)) &&
  (query.createdAfterMillis.all fun after => !decide (metadata.createdAtMillis ≤ after)) &&
  (query.createdBeforeMillis.all fun before => !decide (before ≤ metadata.createdAtMillis))

end HologramLive.Rpc

namespace HologramLive.Objects
open Tables Rpc

-- When a call is made: by the wall clock, and by the clock that cache entries age by.
structure Moment where
  millis : UInt64
  instant : Nat

-- The storage behind the registry module.
structure RegistryProvider (σ : Type) where
  listObjects : σ → Moment → Option Str → Except LiveError (List ObjectMetadata) × σ
  putObject : σ → Moment → Str → Str → Option Str → Bytes → Except LiveError ObjectMetadata × σ
  getObject : σ → Moment → Str → Except LiveError ObjectContent × σ
  renameFile : σ → Moment → Str → Str → Except LiveError ObjectMetadata × σ
  search : σ → Moment → ObjectQuery → Except LiveError ObjectPage × σ

-- A provider can always tell whether what it read is what was stored.
def verifyContent (blake3 : Blake3) (id : Str) (bytes : Bytes) : Except LiveError Unit :=
  if blake3.id bytes = id then .ok ()
  else .error (.io ("object ".toList ++ id ++ " is corrupt: the stored bytes hash to ".toList ++ blake3.id bytes))

namespace LocalRegistry

def getObject (blake3 : Blake3) (store : ObjectStore) (id : Str) : Except LiveError ObjectContent := do
  let bytes ← store.get id
  verifyContent blake3 id bytes
  let metadata ← store.metadataOf id
  return {metadata,bytes}

def byId (left right : ObjectMetadata) : Prop := (compare left.id right.id).isLE = true
instance (left right : ObjectMetadata) : Decidable (byId left right) := inferInstanceAs (Decidable (_ = true))

def scan (query : ObjectQuery) (limit : Nat) (objects : List ObjectMetadata) : List ObjectMetadata → List ObjectMetadata × Bool
  | [] => (objects,true)
  | metadata :: rest =>
    if query.cursor.any fun cursor => (compare metadata.id cursor).isLE then scan query limit objects rest
    else if !query.matches metadata then scan query limit objects rest
    else if objects.length = limit then (objects,false)
    else scan query limit (objects ++ [metadata]) rest

def search (store : ObjectStore) (query : ObjectQuery) : ObjectPage :=
  let (objects,exhausted) := scan query query.effectiveLimit [] ((store.list none).insertionSort byId)
  {objects := objects
   nextCursor := if exhausted then none else objects.getLast?.map (·.id)
   truncated := false}

def provider (blake3 : Blake3) : RegistryProvider ObjectStore where
  listObjects store _ kind := (.ok (store.list kind),store)
  putObject store now kind mediaType filename bytes :=
    let (metadata,store) := store.put blake3 now.millis.toNat kind mediaType filename bytes
    (.ok metadata,store)
  getObject store _ id := (getObject blake3 store id,store)
  renameFile store _ id filename := store.renameFile id filename
  search store _ query := (.ok (search store query),store)

def putObjectReader (blake3 : Blake3) (store : ObjectStore) (now : Moment) (kind mediaType : Str) (filename : Option Str)
    (reader : List ObjectStore.Read) : Except LiveError ObjectMetadata × ObjectStore :=
  store.putReader blake3 now.millis.toNat kind mediaType filename reader

end LocalRegistry

-- What a provider owes to a caller that only adds objects. An object it holds is one
-- that a read returns; what is put is held from then on, unless other bytes stand
-- under its id already.
structure Collects (blake3 : Blake3) {σ : Type} (registry : RegistryProvider σ) where
  held : σ → Str → Prop
  intact : σ → Str → Prop
  get_ok : ∀ s now id,(∃ content,(registry.getObject s now id).1 = .ok content) ↔ held s id
  get_held : ∀ s now id other,held (registry.getObject s now id).2 other ↔ held s other
  get_intact : ∀ s now id other,intact (registry.getObject s now id).2 other ↔ intact s other
  put_id : ∀ s now kind mediaType filename bytes,∃ metadata,
    (registry.putObject s now kind mediaType filename bytes).1 = .ok metadata ∧ metadata.id = blake3.id bytes
  put_held : ∀ s now kind mediaType filename bytes other,
    held (registry.putObject s now kind mediaType filename bytes).2 other ↔
      held s other ∨ other = blake3.id bytes ∧ intact s other
  put_intact : ∀ s now kind mediaType filename bytes other,
    intact (registry.putObject s now kind mediaType filename bytes).2 other ↔ intact s other

namespace LocalRegistry
variable {blake3 : Blake3} {store : ObjectStore}

def Held (blake3 : Blake3) (store : ObjectStore) (id : Str) : Prop := ∃ digest bytes metadata,
  digestOf id = .ok digest ∧ store.blobs[digest]? = some bytes ∧ blake3.id bytes = id ∧ store.metadata[digest]? = some metadata

-- No other bytes than those of the id are in its file.
def Intact (blake3 : Blake3) (store : ObjectStore) (id : Str) : Prop :=
  ∀ digest bytes,digestOf id = .ok digest → store.blobs[digest]? = some bytes → blake3.id bytes = id

theorem get_ok {id : Str} :
    store.get id = .ok bytes ↔ ∃ digest,digestOf id = .ok digest ∧ store.blobs[digest]? = some bytes := by
  unfold ObjectStore.get
  cases read : digestOf id with
  | error e => simp [bind,Except.bind]
  | ok digest => cases blob : store.blobs[digest]? <;> simp [bind,Except.bind,pure,Except.pure,blob]

theorem metadataOf_ok {id : Str} :
    store.metadataOf id = .ok metadata ↔ ∃ digest,digestOf id = .ok digest ∧ store.metadata[digest]? = some metadata := by
  unfold ObjectStore.metadataOf
  cases read : digestOf id with
  | error e => simp [bind,Except.bind]
  | ok digest => cases record : store.metadata[digest]? <;> simp [bind,Except.bind,pure,Except.pure,record]

theorem verifyContent_ok {id : Str} : verifyContent blake3 id bytes = .ok () ↔ blake3.id bytes = id := by
  unfold verifyContent
  split <;> simp_all

theorem getObject_ok {id : Str} :
    getObject blake3 store id = .ok content ↔ ∃ digest,digestOf id = .ok digest ∧ store.blobs[digest]? = some content.bytes ∧
      blake3.id content.bytes = id ∧ store.metadata[digest]? = some content.metadata := by
  unfold getObject
  constructor
  · intro got
    obtain ⟨bytes,blob,got⟩ := Fallible.bind_ok got
    obtain ⟨_,same,got⟩ := Fallible.bind_ok got
    obtain ⟨metadata,record,got⟩ := Fallible.bind_ok got
    cases got
    obtain ⟨digest,read,blob⟩ := get_ok.mp blob
    obtain ⟨digest',read',record⟩ := metadataOf_ok.mp record
    rw [read] at read'
    cases read'
    exact ⟨digest,read,blob,verifyContent_ok.mp same,record⟩
  · rintro ⟨digest,read,blob,same,record⟩
    refine (Fallible.ok_bind (get_ok.mpr ⟨digest,read,blob⟩)).trans ?_
    refine (Fallible.ok_bind (verifyContent_ok.mpr same)).trans ?_
    exact Fallible.ok_bind (metadataOf_ok.mpr ⟨digest,read,record⟩)

theorem held_iff {id : Str} : (∃ content,getObject blake3 store id = .ok content) ↔ Held blake3 store id := by
  constructor
  · rintro ⟨content,got⟩
    obtain ⟨digest,read,blob,same,record⟩ := getObject_ok.mp got
    exact ⟨digest,content.bytes,content.metadata,read,blob,same,record⟩
  · rintro ⟨digest,bytes,metadata,read,blob,same,record⟩
    exact ⟨⟨metadata,bytes⟩,getObject_ok.mpr ⟨digest,read,blob,same,record⟩⟩

theorem writeBlob_blobs {digest other : Str} {bytes : Bytes} : (store.writeBlob digest bytes).blobs[other]? =
      if other = digest then some ((store.blobs[digest]?).getD bytes) else store.blobs[other]? := by
  unfold ObjectStore.writeBlob
  cases present : store.blobs[digest]? with
  | some found =>
    simp only [Option.isSome_some,if_true,Option.getD_some]
    split
    · rename_i same
      rw [same,present]
    · rfl
  | none => simp only [Option.isSome_none,Bool.false_eq_true,if_false,Option.getD_none,get_insert,eq_comm]

theorem writeBlob_metadata : (store.writeBlob digest bytes).metadata = store.metadata := by
  unfold ObjectStore.writeBlob
  split <;> rfl

theorem put_blobs {now : Nat} {kind mediaType : Str} {filename : Option Str} {bytes : Bytes} {other : Str} :
    (store.put blake3 now kind mediaType filename bytes).2.blobs[other]? =
      if other = blake3.toHex bytes then some ((store.blobs[other]?).getD bytes) else store.blobs[other]? := by
  refine (@writeBlob_blobs store (blake3.toHex bytes) other bytes).trans ?_
  split
  · rename_i same
    rw [same]
  · rfl

theorem put_records {now : Nat} {kind mediaType : Str} {filename : Option Str} {bytes : Bytes} {other : Str} :
    (store.put blake3 now kind mediaType filename bytes).2.metadata[other]? =
      if other = blake3.toHex bytes then some (store.put blake3 now kind mediaType filename bytes).1 else store.metadata[other]? := by
  unfold ObjectStore.put ObjectStore.finishPut
  simp only [get_insert,writeBlob_metadata,eq_comm]

theorem digest_id (read : digestOf other = .ok digest) : digest = blake3.toHex bytes ↔ other = blake3.id bytes := by
  obtain ⟨whole,-⟩ := digestOf_ok.mp read
  rw [whole,Blake3.id]
  exact ⟨fun same => by rw [same],fun same => List.append_cancel_left same⟩

section Put
variable {now : Nat} {kind mediaType : Str} {filename : Option Str} {bytes : Bytes} {other : Str}

theorem put_id : (store.put blake3 now kind mediaType filename bytes).1.id = blake3.id bytes := rfl

theorem put_intact : Intact blake3 (store.put blake3 now kind mediaType filename bytes).2 other ↔ Intact blake3 store other := by
  unfold Intact
  refine forall_congr' fun digest => ⟨fun kept found read blob => ?_,fun kept found read blob => ?_⟩
  · refine kept found read ?_
    rw [put_blobs]
    split
    · rw [blob,Option.getD_some]
    · exact blob
  · rw [put_blobs] at blob
    split at blob
    · rename_i same
      cases present : store.blobs[digest]? with
      | some old =>
        rw [present] at blob; cases blob
        exact kept old read present
      | none =>
        rw [present] at blob; cases blob
        exact ((digest_id read).mp same).symm
    · exact kept found read blob

theorem put_held : Held blake3 (store.put blake3 now kind mediaType filename bytes).2 other ↔
    Held blake3 store other ∨ other = blake3.id bytes ∧ Intact blake3 store other := by
  constructor
  · rintro ⟨digest,found,metadata,read,blob,whole,record⟩
    by_cases same : digest = blake3.toHex bytes
    · have after : Intact blake3 (store.put blake3 now kind mediaType filename bytes).2 other := by
        intro digest' found' read' blob'; rw [read] at read'
        cases read'; rw [blob] at blob'
        cases blob'; exact whole
      exact .inr ⟨(digest_id read).mp same,put_intact.mp after⟩
    · rw [put_blobs,if_neg same] at blob
      rw [put_records,if_neg same] at record
      exact .inl ⟨digest,found,metadata,read,blob,whole,record⟩
  · rintro (⟨digest,found,metadata,read,blob,whole,record⟩ | ⟨rfl,intact⟩)
    · by_cases same : digest = blake3.toHex bytes
      · refine ⟨digest,found,_,read,?_,whole,by rw [put_records,if_pos same]⟩
        rw [put_blobs,if_pos same,blob,Option.getD_some]
      · refine ⟨digest,found,metadata,read,?_,whole,?_⟩
        · rw [put_blobs,if_neg same,blob]
        · rw [put_records,if_neg same,record]
    · have read := digestOf_id blake3 bytes
      have blob : (store.put blake3 now kind mediaType filename bytes).2.blobs[blake3.toHex bytes]? =
          some ((store.blobs[blake3.toHex bytes]?).getD bytes) := by rw [put_blobs,if_pos rfl]
      exact ⟨_,_,_,read,blob,put_intact.mpr intact _ _ read blob,by rw [put_records,if_pos rfl]⟩

end Put

def collects (blake3 : Blake3) : Collects blake3 (provider blake3) where
  held := Held blake3
  intact := Intact blake3
  get_ok _ _ _ := held_iff
  get_held _ _ _ _ := Iff.rfl
  get_intact _ _ _ _ := Iff.rfl
  put_id _ _ _ _ _ _ := ⟨_,rfl,rfl⟩
  put_held _ _ _ _ _ _ _ := put_held
  put_intact _ _ _ _ _ _ _ := put_intact

theorem putReader_put (read : ObjectStore.streamed [] 0 reader = .ok (bytes,saturated bytes.length)) :
    store.putReader blake3 now kind mediaType filename reader =
      (.ok (store.put blake3 now kind mediaType filename bytes).1,(store.put blake3 now kind mediaType filename bytes).2) := by
  unfold ObjectStore.putReader
  rw [read]
  rfl

end LocalRegistry

end HologramLive.Objects
