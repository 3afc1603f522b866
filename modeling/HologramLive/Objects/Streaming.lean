import HologramLive.Objects.Providers
namespace HologramLive.Objects
open Tables Rpc List
open Objects.ObjectStore (Read)

-- A name of its own beside the blobs, by the process and a counter.
def temporaryBlob (process sequence : Nat) : Str := "tmp.".toList ++ decimal process ++ '.' :: decimal sequence

namespace ObjectStore

-- The loop of `put_reader`: each chunk goes to the temporary file and to the hasher,
-- which hashes what it was given so far. A chunk that cannot be written ends it as one
-- that cannot be read does.
def streamTo (store : ObjectStore) (temporary : Str) (hashed : Bytes) (size : Nat) :
    List Read → Except LiveError (Bytes × Nat) × ObjectStore
  | [] => (.ok (hashed,size),store)
  | .bytes [] :: _ => (.ok (hashed,size),store)
  | .bytes chunk :: rest =>
    streamTo {store with blobs := store.blobs.insert temporary ((store.blobs[temporary]?).getD [] ++ chunk)} temporary
      (hashed ++ chunk) (saturatingAdd size chunk.length) rest
  | .interrupted :: rest => streamTo store temporary hashed size rest
  | .failed message :: _ => (.error (.io message),store)

variable (store : ObjectStore)

def removeFile (name : Str) : ObjectStore := {store with blobs := store.blobs.erase name}

def renameTo (name target : Str) : ObjectStore :=
  match store.blobs[name]? with
  | some bytes => {store with blobs := (store.blobs.erase name).insert target bytes}
  | none => store

-- `put_reader` with its temporary file, which is created empty.
def putReaderFile (blake3 : Blake3) (temporary : Str) (now : Nat) (kind mediaType : Str)
    (filename : Option Str) (reader : List Read) : Except LiveError ObjectMetadata × ObjectStore :=
  match streamTo {store with blobs := store.blobs.insert temporary []} temporary [] 0 reader with
  | (.error e,store) => (.error e,store.removeFile temporary)
  | (.ok (hashed,size),store) =>
    let digest := blake3.toHex hashed
    let store := if store.blobs[digest]?.isSome then store.removeFile temporary else store.renameTo temporary digest
    let (metadata,store) := store.finishPut now digest size kind mediaType filename
    (.ok metadata,store)

end ObjectStore

-- A reader that hands over these bytes, however it cuts them and however often it is
-- interrupted, and one that fails after some of them.
inductive Hands : List Read → Bytes → Prop
  | done : Hands [] []
  | ended {rest} : Hands (.bytes [] :: rest) []
  | chunk {b chunk rest bytes} : Hands rest bytes → Hands (.bytes (b :: chunk) :: rest) (b :: chunk ++ bytes)
  | interrupted {rest bytes} : Hands rest bytes → Hands (.interrupted :: rest) bytes
inductive Fails : List Read → Str → Prop
  | failed {message rest} : Fails (.failed message :: rest) message
  | chunk {b chunk rest message} : Fails rest message → Fails (.bytes (b :: chunk) :: rest) message
  | interrupted {rest message} : Fails rest message → Fails (.interrupted :: rest) message

theorem hands_or_fails (reader : List Read) : (∃ bytes,Hands reader bytes) ∨ ∃ message,Fails reader message := by
  induction reader with
  | nil => exact .inl ⟨[],.done⟩
  | cons call rest ih =>
    cases call with
    | bytes chunk =>
      cases chunk with
      | nil => exact .inl ⟨[],.ended⟩
      | cons b chunk => exact ih.imp (fun ⟨bytes,hands⟩ => ⟨_,.chunk hands⟩) fun ⟨message,fails⟩ => ⟨message,.chunk fails⟩
    | interrupted => exact ih.imp (fun ⟨bytes,hands⟩ => ⟨bytes,.interrupted hands⟩) fun ⟨message,fails⟩ => ⟨message,.interrupted fails⟩
    | failed message => exact .inr ⟨message,.failed⟩

structure Beside (start after : ObjectStore) (temporary : Str) (content : Option Bytes) : Prop where
  others : ∀ name,name ≠ temporary → after.blobs[name]? = start.blobs[name]?
  own : after.blobs[temporary]? = content
  records : after.metadata = start.metadata

section Streams
variable {start store : ObjectStore} {temporary : Str} {hashed bytes : Bytes} {reader : List Read} {content : Option Bytes}

theorem Beside.write (beside : Beside start store temporary content) (written : Bytes) :
    Beside start {store with blobs := store.blobs.insert temporary written} temporary (some written) where
  others name other := by
    rw [get_insert,if_neg other.symm]
    exact beside.others name other
  own := by rw [get_insert,if_pos rfl]
  records := beside.records

theorem Beside.removed (beside : Beside start store temporary content) : Beside start (store.removeFile temporary) temporary none where
  others name other := by
    unfold ObjectStore.removeFile
    rw [get_erase,if_neg other.symm]
    exact beside.others name other
  own := by
    unfold ObjectStore.removeFile
    rw [get_erase,if_pos rfl]
  records := beside.records

theorem streamTo_hands (hands : Hands reader bytes) (beside : Beside start store temporary (some hashed)) :
    ∃ after,store.streamTo temporary hashed (saturated hashed.length) reader =
        (.ok (hashed ++ bytes,saturated (hashed ++ bytes).length),after) ∧ Beside start after temporary (some (hashed ++ bytes)) := by
  induction hands generalizing store hashed with
  | done => exact ⟨store,by rw [append_nil]; rfl,by rwa [append_nil]⟩
  | ended => exact ⟨store,by rw [append_nil]; rfl,by rwa [append_nil]⟩
  | @chunk b chunk rest bytes hands ih =>
    obtain ⟨after,streamed,last⟩ := ih (beside.write (hashed ++ b :: chunk))
    refine ⟨after,?_,by simpa using last⟩
    rw [ObjectStore.streamTo]
    · rw [beside.own,Option.getD_some,saturatingAdd_saturated,←length_append,streamed]
      simp
    · exact cons_ne_nil b chunk
  | interrupted hands ih => exact ih beside

theorem streamTo_fails {message : Str} (fails : Fails reader message) {size : Nat}
    (beside : Beside start store temporary content) :
    ∃ after left,store.streamTo temporary hashed size reader = (.error (.io message),after) ∧ Beside start after temporary left := by
  induction fails generalizing store hashed size content with
  | failed => exact ⟨store,content,rfl,beside⟩
  | @chunk b chunk rest message fails ih =>
    rw [ObjectStore.streamTo]
    · exact ih (beside.write _)
    · exact cons_ne_nil b chunk
  | interrupted fails ih => exact ih beside

end Streams

section Agreement
variable {blake3 : Blake3} {store after : ObjectStore}

theorem putReaderFile_streamed (blake3 : Blake3) (now : Nat)
    (kind mediaType : Str) (filename : Option Str) (streamed : ObjectStore.streamTo {store with blobs := store.blobs.insert temporary []} temporary [] 0
      reader = (.ok (bytes,size),after)) :
    store.putReaderFile blake3 temporary now kind mediaType filename reader =
      (.ok ((if after.blobs[blake3.toHex bytes]?.isSome then after.removeFile temporary
          else after.renameTo temporary (blake3.toHex bytes)).finishPut now (blake3.toHex bytes) size kind mediaType filename).1,
        ((if after.blobs[blake3.toHex bytes]?.isSome then after.removeFile temporary
          else after.renameTo temporary (blake3.toHex bytes)).finishPut now (blake3.toHex bytes) size kind mediaType filename).2) := by
  unfold ObjectStore.putReaderFile
  rw [streamed]

-- A digest is no name of a temporary file.
theorem toHex_temporary (blake3 : Blake3) (bytes : Bytes) (process sequence : Nat) :
    blake3.toHex bytes ≠ temporaryBlob process sequence := by
  intro same
  have lower := (toHex_digest blake3 bytes).2
  rw [same,all_eq_true] at lower
  exact absurd (lower 't' (by simp [temporaryBlob])) (by decide)

theorem placed (other : blake3.toHex bytes ≠ temporary) (beside : Beside store after temporary (some bytes)) :
    Beside (store.writeBlob (blake3.toHex bytes) bytes) (if after.blobs[blake3.toHex bytes]?.isSome then after.removeFile temporary
      else after.renameTo temporary (blake3.toHex bytes)) temporary none := by
  rw [beside.others _ other]
  unfold ObjectStore.writeBlob
  by_cases present : store.blobs[blake3.toHex bytes]?.isSome
  · rw [if_pos present,if_pos present]
    exact beside.removed
  · rw [if_neg present,if_neg present]
    unfold ObjectStore.renameTo
    simp only [beside.own]
    refine ⟨fun name apart => ?_,?_,beside.records⟩
    · rw [get_insert,get_insert,get_erase,if_neg apart.symm,beside.others name apart]
    · rw [get_insert,if_neg other,get_erase,if_pos rfl]

theorem finishPut_beside (beside : Beside store after temporary none) (now : Nat) (digest : Str) (size : Nat)
    (kind mediaType : Str) (filename : Option Str) :
    (after.finishPut now digest size kind mediaType filename).1 = (store.finishPut now digest size kind mediaType filename).1 ∧
    Beside (store.finishPut now digest size kind mediaType filename).2 (after.finishPut now digest size kind mediaType filename).2
      temporary none := by
  unfold ObjectStore.finishPut
  simp only [beside.records]
  exact ⟨trivial,beside.others,beside.own,rfl⟩

end Agreement

-- A stream that ends is put as its bytes are, whatever its chunks, and one that fails
-- leaves the objects and their records as they were; the temporary file is gone.
theorem putReader_agrees (blake3 : Blake3) (store : ObjectStore) (process sequence now : Nat) (kind mediaType : Str)
    (filename : Option Str) (reader : List Read) :
    let temporary := temporaryBlob process sequence
    let result := store.putReaderFile blake3 temporary now kind mediaType filename reader
    (∀ bytes,Hands reader bytes → result.1 = .ok (store.put blake3 now kind mediaType filename bytes).1 ∧
      Beside (store.put blake3 now kind mediaType filename bytes).2 result.2 temporary none) ∧
    (∀ message,Fails reader message → result.1 = .error (.io message) ∧ Beside store result.2 temporary none) ∧
    ((∃ bytes,Hands reader bytes) ∨ ∃ message,Fails reader message) := by
  intro temporary result
  have created : Beside store {store with blobs := store.blobs.insert temporary []} temporary (some []) :=
    Beside.write ⟨fun _ _ => rfl,rfl,rfl⟩ []
  refine ⟨fun bytes hands => ?_,fun message fails => ?_,hands_or_fails reader⟩
  · obtain ⟨after,streamed,beside⟩ := streamTo_hands hands created
    have finished := finishPut_beside (placed (toHex_temporary blake3 bytes process sequence) beside) now (blake3.toHex bytes)
      (saturated bytes.length) kind mediaType filename
    have whole := putReaderFile_streamed blake3 now kind mediaType filename streamed
    exact ⟨(congrArg Prod.fst whole).trans (congrArg Except.ok finished.1),(congrArg Prod.snd whole) ▸ finished.2⟩
  · obtain ⟨after,left,streamed,beside⟩ := @streamTo_fails _ _ _ [] _ _ _ fails 0 created
    have whole : result = (.error (.io message),after.removeFile temporary) := by
      show store.putReaderFile blake3 temporary now kind mediaType filename reader = _
      unfold ObjectStore.putReaderFile
      rw [streamed]
    rw [whole]
    exact ⟨rfl,beside.removed⟩

end HologramLive.Objects
