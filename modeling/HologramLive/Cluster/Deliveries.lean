import HologramLive.Cluster.Conversations
import HologramLive.Cluster.Transports
namespace HologramLive.Cluster
open Tables Rpc Objects ObjectStore LocalRegistry Mirror List

-- The media type, the filename and the bytes that an entry's fetch hands to the
-- store; nothing where it fails before that.
def offered (peer : Peer) (recipient : Str) (maxBytes : Nat) (metadata : ObjectMetadata) : Option (Str × Option Str × Bytes) :=
  match peer.blobChannel with
  | some channel =>
    match channel.fetch metadata.id,channel.reader metadata.id with
    | .ok _,.ok reader =>
      match streamed [] 0 reader with
      | .ok (bytes,_) => some (metadata.mediaType,metadata.filename,bytes)
      | .error _ => none
    | _,_ => none
  | none =>
    match signedGet peer recipient (objectsPath ++ "/".toList ++ metadata.id) none (some maxBytes) with
    | .ok response =>
      if response.isSuccess && decide (response.body.length ≤ maxBytes) then
        some ((response.header "content-type".toList).getD "application/octet-stream".toList,
          response.header "x-hologram-object-filename".toList,response.body)
      else none
    | .error _ => none

def putDelivery (blake3 : Blake3) (now : Moment) (store : Objects.ObjectStore) (kind : Str) :
    Option (Str × Option Str × Bytes) → Objects.ObjectStore
  | none => store
  | some (mediaType,filename,bytes) => (store.put blake3 now.millis.toNat kind mediaType filename bytes).2

def rows (store : Objects.ObjectStore) (digest : Str) : Option Bytes × Option ObjectMetadata :=
  (store.blobs[digest]?,store.metadata[digest]?)

section Visits
variable (blake3 : Blake3) (node : Replicator Objects.ObjectStore) (talk : Conversation) (clock : Nat → Moment) (recipient : Str)

def delivery (visit : Visit Objects.ObjectStore) : Option (Str × Option Str × Bytes) :=
  if attempted node clock visit then offered (talk.entryPeer visit.turn) recipient node.maxBytes visit.metadata else none

-- What is delivered has the id of its entry, or the store has it already, with the
-- record that the put would write.
def Genuine (visit : Visit Objects.ObjectStore) : Prop :=
  ∀ mediaType filename bytes,delivery node talk clock recipient visit = some (mediaType,filename,bytes) →
    blake3.id bytes = visit.metadata.id ∨ (visit.before.blobs[blake3.toHex bytes]?).isSome ∧
      visit.before.metadata[blake3.toHex bytes]? =
        some (visit.before.put blake3 (clock (visit.turn+1)).millis.toNat visit.metadata.kind mediaType filename bytes).1

variable (start : Objects.ObjectStore) (progress : Progress Objects.ObjectStore)

-- A round changes nothing but under the ids of entries it came to, and bytes that do
-- not hash to the id of their entry leave the store as it is.
structure AddsNamed : Prop where
  named : ∀ digest,rows progress.round.registry digest ≠ rows start digest →
    ∃ visit ∈ progress.visits,visit.metadata.id = blake3Prefix ++ digest
  refused : ∀ visit ∈ progress.visits,∀ mediaType filename bytes,
    delivery node talk clock recipient visit = some (mediaType,filename,bytes) → blake3.id bytes ≠ visit.metadata.id →
      visit.after = visit.before

-- Each entry has put what was delivered for it, and what differs from the start was
-- changed at one of them.
structure Traced : Prop where
  put : ∀ visit ∈ progress.visits,visit.after =
    putDelivery blake3 (clock (visit.turn+1)) visit.before visit.metadata.kind (delivery node talk clock recipient visit)
  caused : ∀ digest,rows progress.round.registry digest ≠ rows start digest →
    ∃ visit ∈ progress.visits,rows visit.after digest ≠ rows visit.before digest

end Visits

section Puts
variable {blake3 : Blake3} {store : Objects.ObjectStore} {now : Nat} {kind mediaType : Str} {filename : Option Str} {bytes : Bytes}

theorem put_rows (other : digest ≠ blake3.toHex bytes) :
    rows (store.put blake3 now kind mediaType filename bytes).2 digest = rows store digest := by
  simp [rows,put_blobs,put_records,other]

theorem put_idle : (store.put blake3 now kind mediaType filename bytes).2 = store ↔ (store.blobs[blake3.toHex bytes]?).isSome ∧
    store.metadata[blake3.toHex bytes]? = some (store.put blake3 now kind mediaType filename bytes).1 := by
  constructor
  · intro idle
    have blob := @put_blobs blake3 store now kind mediaType filename bytes (blake3.toHex bytes)
    have record := @put_records blake3 store now kind mediaType filename bytes (blake3.toHex bytes)
    rw [idle,if_pos rfl] at blob record
    exact ⟨by rw [blob]; rfl,record⟩
  · rintro ⟨blob,record⟩
    have whole : store.writeBlob (blake3.toHex bytes) bytes = store := if_pos blob
    unfold ObjectStore.put finishPut at record ⊢
    rw [whole] at record ⊢
    dsimp only at record ⊢
    rw [insert_same record]

theorem streamed_total
    (read : streamed got (saturated got.length) reader = .ok (bytes,total)) : total = saturated bytes.length := by
  induction reader generalizing got with
  | nil => cases read; rfl
  | cons call rest ih =>
    cases call with
    | interrupted => exact ih read
    | failed message => cases read
    | bytes chunk =>
      cases chunk with
      | nil => cases read; rfl
      | cons b chunk =>
        refine @ih (got ++ b :: chunk) ?_
        rw [length_append,←saturatingAdd_saturated]; exact read

end Puts

section Steps
variable {blake3 : Blake3} {decodePage : Bytes → Except Str ObjectPage} {maxObjects maxBytes : Nat} {talk : Conversation}
  {clock : Nat → Moment} {recipient : Str}

theorem checkStored_after {σ : Type} (expected : Str) (answer : Except LiveError ObjectMetadata × σ) :
    (checkStored expected answer).2 = answer.2 := by
  obtain ⟨_ | stored,registry⟩ := answer
  · rfl
  · unfold checkStored
    dsimp only
    split <;> rfl

theorem fetched {peer : Peer} {metadata : ObjectMetadata}
    (missing : ¬∃ content,getObject blake3 store metadata.id = .ok content) :
    (replicateObject (localNode blake3 decodePage maxObjects maxBytes) peer recipient now store metadata).2 =
      putDelivery blake3 now store metadata.kind (offered peer recipient maxBytes metadata) := by
  rw [replicateObject_missing missing]
  unfold offered
  cases peer.blobChannel with
  | some channel =>
    dsimp only
    unfold fetchAndImportObject
    cases channel.fetch metadata.id with
    | error e => rfl
    | ok count =>
      cases channel.reader metadata.id with
      | error e => rfl
      | ok reader =>
        dsimp only; rw [checkStored_after]
        show (store.putReader blake3 now.millis.toNat metadata.kind metadata.mediaType metadata.filename reader).2 = _
        unfold putReader
        cases read : streamed [] 0 reader with
        | error e => rfl
        | ok result =>
          obtain ⟨bytes,size⟩ := result
          cases streamed_total read; rfl
  | none =>
    dsimp only
    unfold fetchObject
    rw [show (localNode blake3 decodePage maxObjects maxBytes).maxBytes = maxBytes from rfl]
    cases signedGet peer recipient (objectsPath ++ "/".toList ++ metadata.id) none (some maxBytes) with
    | error e => rfl
    | ok response =>
      cases success : response.isSuccess with
      | false => simp [success,putDelivery]
      | true =>
        by_cases short : response.body.length ≤ maxBytes
        · have fits : ¬maxBytes < response.body.length := Nat.not_lt.mpr short
          simp only [success,short,decide_true,Bool.and_self,if_true,Bool.not_true,Bool.false_eq_true,if_false,if_neg fits,
            checkStored_after]
          rfl
        · have beyond : maxBytes < response.body.length := Nat.not_le.mp short
          simp [success,short,beyond,putDelivery]

theorem visited (round : Round Objects.ObjectStore) (metadata : ObjectMetadata) :
    let node := localNode blake3 decodePage maxObjects maxBytes
    let after := (replicateEntry node (talk.entryPeer round.transferred) clock recipient round metadata).1.registry
    after = putDelivery blake3 (clock (round.transferred+1)) round.registry metadata.kind
      (delivery node talk clock recipient ⟨round.transferred,metadata,round.registry,after⟩) := by
  intro node after
  have there : (node.registry.getObject round.registry (clock (round.transferred+1)) metadata.id).1 =
    getObject blake3 round.registry metadata.id := rfl
  unfold delivery attempted
  dsimp only
  rw [there]
  by_cases big : maxBytes < metadata.size
  · have huge : ¬metadata.size ≤ node.maxBytes := Nat.not_le.mpr big
    simp only [huge,decide_false,Bool.false_and,Bool.false_eq_true,if_false]
    exact replicateEntry_oversize big
  · have small : metadata.size ≤ node.maxBytes := Nat.not_lt.mp big
    refine (replicateEntry_registry big).trans ?_
    cases got : getObject blake3 round.registry metadata.id with
    | ok content =>
      simp only [Bool.and_false,Bool.false_eq_true,if_false]
      exact replicateObject_held got
    | error e =>
      simp only [small,decide_true,Bool.and_self,if_true]
      exact fetched (by rintro ⟨content,held⟩; rw [got] at held; cases held)

end Steps

section Runs
variable {σ : Type} {node : Replicator σ} {talk : Conversation} {clock : Nat → Moment} {recipient : Str} {P : Progress σ → Prop}

def Keeps (node : Replicator σ) (talk : Conversation) (clock : Nat → Moment) (recipient : Str) (P : Progress σ → Prop) : Prop :=
  ∀ progress metadata round ended,P progress →
    replicateEntry node (talk.entryPeer progress.round.transferred) clock recipient progress.round metadata = (round,ended) →
      P ⟨round,progress.visits ++ [⟨progress.round.transferred,metadata,progress.round.registry,round.registry⟩]⟩

theorem Keeps.entries (keeps : Keeps node talk clock recipient P) (start : P progress)
    (objects : List ObjectMetadata) : P (converseEntries node talk clock recipient progress objects).1 := by
  induction objects generalizing progress with
  | nil => exact start
  | cons metadata rest ih =>
    rw [converseEntries]
    cases ran : replicateEntry node (talk.entryPeer progress.round.transferred) clock recipient progress.round metadata with
    | mk round ended =>
      have next := keeps progress metadata round ended start ran
      cases ended with
      | some e => exact next
      | none => exact ih next

theorem Keeps.pages (keeps : Keeps node talk clock recipient P) (start : P progress)
    (ran : conversePages node talk clock recipient turns k cursor progress = some result) : P result.2 := by
  induction turns generalizing k cursor progress with
  | zero => cases ran
  | succ turns ih =>
    rw [conversePages] at ran
    split at ran
    · cases ran
      exact start
    · split at ran
      · cases ran; exact start
      · rename_i inventory paged
        have next := keeps.entries start inventory.objects
        split at ran
        · rename_i entries; rw [entries] at next
          cases ran; exact next
        · rename_i entries; rw [entries] at next
          split at ran
          · exact ih next ran
          · cases ran; exact next

end Runs

section Rounds
variable (blake3 : Blake3) (decodePage : Bytes → Except Str ObjectPage) (maxObjects maxBytes : Nat) (talk : Conversation)
  (clock : Nat → Moment) (start : Objects.ObjectStore)

theorem keeps_traced (recipient : Str) :
    let node := localNode blake3 decodePage maxObjects maxBytes
    Keeps node talk clock recipient (Traced blake3 node talk clock recipient start) := by
  intro node progress metadata round ended traced ran
  have here := @visited blake3 decodePage maxObjects maxBytes talk clock recipient progress.round metadata
  dsimp only at here
  rw [ran] at here
  refine ⟨fun visit member => ?_,fun digest differs => ?_⟩
  · rcases mem_append.mp member with old | new
    · exact traced.put visit old
    · rw [mem_singleton.mp new]
      exact here
  · by_cases kept : rows round.registry digest = rows progress.round.registry digest
    · obtain ⟨visit,member,changed⟩ := traced.caused digest (kept ▸ differs)
      exact ⟨visit,mem_append_left _ member,changed⟩
    · exact ⟨_,mem_append_right _ (mem_singleton_self _),kept⟩

variable {blake3 talk clock start} {node : Replicator Objects.ObjectStore} {recipient : Str} {progress : Progress Objects.ObjectStore}

theorem Traced.genuine_iff (traced : Traced blake3 node talk clock recipient start progress) :
    AddsNamed blake3 node talk clock recipient start progress ↔
      ∀ visit ∈ progress.visits,Genuine blake3 node talk clock recipient visit := by
  refine ⟨fun adds visit member mediaType filename bytes given => ?_,fun genuine => ⟨fun digest differs => ?_,?_⟩⟩
  · refine or_iff_not_imp_left.mpr fun other => put_idle.mp ?_
    have same := adds.refused visit member mediaType filename bytes given other
    rw [traced.put visit member,given] at same
    exact same
  · obtain ⟨visit,member,changed⟩ := traced.caused digest differs
    refine ⟨visit,member,?_⟩
    rw [traced.put visit member] at changed
    cases given : delivery node talk clock recipient visit with
    | none => exact absurd (by rw [given]; rfl) changed
    | some content =>
      obtain ⟨mediaType,filename,bytes⟩ := content
      rw [given] at changed
      have here : digest = blake3.toHex bytes := by
        by_contra other
        exact changed (put_rows other)
      rcases genuine visit member mediaType filename bytes given with same | idle
      · rw [←same,here]; rfl
      · exact absurd (congrArg (rows · digest) (put_idle.mpr idle)) changed
  · intro visit member mediaType filename bytes given other
    rw [traced.put visit member,given]
    rcases genuine visit member mediaType filename bytes given with same | idle
    · exact absurd same other
    · exact put_idle.mpr idle

theorem converse_traced (routed : talk.recipient = some recipient)
    (ran : converse (localNode blake3 decodePage maxObjects maxBytes) talk clock turns start = some result) :
    Traced blake3 (localNode blake3 decodePage maxObjects maxBytes) talk clock recipient start result.2 := by
  unfold converse at ran
  simp only [routed] at ran
  refine (keeps_traced blake3 decodePage maxObjects maxBytes talk clock start recipient).pages ?_ ran
  exact ⟨fun visit never => (by cases never),fun digest differs => absurd rfl differs⟩

end Rounds

-- Exactly where all that is delivered is genuine does a round add no more than what
-- was named. The bytes are put before their digest is compared.
theorem replication_named (blake3 : Blake3) (decodePage : Bytes → Except Str ObjectPage) (maxObjects maxBytes turns : Nat)
    (talk : Conversation) (clock : Nat → Moment) (start : Objects.ObjectStore) (recipient : Str)
    (result : Except LiveError RoundOutcome × Progress Objects.ObjectStore) (routed : talk.recipient = some recipient)
    (ran : converse (localNode blake3 decodePage maxObjects maxBytes) talk clock turns start = some result) :
    let node := localNode blake3 decodePage maxObjects maxBytes
    AddsNamed blake3 node talk clock recipient start result.2 ↔
      ∀ visit ∈ result.2.visits,Genuine blake3 node talk clock recipient visit :=
  (converse_traced decodePage maxObjects maxBytes routed ran).genuine_iff

namespace Swapped

-- The page lists the object of [98]; what comes for it is [97].
def talk : Conversation :=
  ⟨origin,some origin,fun _ _ _ _ => .ok ⟨200,[],secondPage⟩,fun _ _ _ _ => .ok ⟨200,[],[97]⟩,none⟩

def visit (after : Objects.ObjectStore) : Visit Objects.ObjectStore := ⟨0,entry [98],.empty,after⟩

theorem ran : ∃ result,converse (Mirror.node 256) talk (fun _ => ⟨0,0⟩) 1 .empty = some result ∧
    result.2.visits = [visit result.2.round.registry] := by
  have page (limit : Nat) : inventoryPage (Mirror.node 256) (talk.pagePeer 0) origin limit none =
      .ok ⟨[entry [98]],none,false⟩ := by
    have clean : rejectSeparators "GET".toList objectsPath (some (inventoryQuery limit none)) origin = .ok () := by
      refine rejectSeparators_ok.mpr ⟨by decide,by decide,fun text asked => ?_,by decide⟩
      cases asked
      exact inventoryQuery_clean limit none
    have differ : secondPage ≠ firstPage := by decide
    unfold inventoryPage signedGet
    rw [clean]
    simp [bind,Except.bind,Conversation.pagePeer,talk,Mirror.node,localNode,Mirror.decodePage,differ]
  have start : converse (Mirror.node 256) talk (fun _ => ⟨0,0⟩) 1 .empty =
    conversePages (Mirror.node 256) talk (fun _ => ⟨0,0⟩) origin 1 0 none ⟨⟨.empty,0,⟨0,0⟩⟩,[]⟩ := rfl
  rw [start,conversePages,if_neg (by decide)]
  simp only [page,converseEntries]
  cases replicateEntry (Mirror.node 256) (talk.entryPeer 0) (fun _ => ⟨0,0⟩) origin ⟨.empty,0,⟨0,0⟩⟩ (entry [98]) with
  | mk round ended => cases ended <;> exact ⟨_,rfl,rfl⟩

theorem given (after : Objects.ObjectStore) : delivery (Mirror.node 256) talk (fun _ => ⟨0,0⟩) origin (visit after) =
    some ("application/octet-stream".toList,none,[97]) := by
  have asked : attempted (Mirror.node 256) (fun _ => ⟨0,0⟩) (visit .empty) = true := by decide
  have sent : signedGet (talk.entryPeer 0) origin (objectsPath ++ "/".toList ++ Mirror.blake3.id [98]) none (some 1024) =
      .ok ⟨200,[],[97]⟩ := by decide
  unfold delivery
  rw [show attempted (Mirror.node 256) (fun _ => ⟨0,0⟩) (visit after) = true from asked,if_pos rfl]
  show offered (talk.entryPeer 0) origin 1024 (entry [98]) = _
  unfold offered
  show (match signedGet (talk.entryPeer 0) origin (objectsPath ++ "/".toList ++ Mirror.blake3.id [98]) none (some 1024) with
    | .ok response => _
    | .error _ => none) = _
  rw [sent]
  rfl

end Swapped

open Swapped in
theorem replication_named_swapped : ∃ result,converse (Mirror.node 256) talk (fun _ => ⟨0,0⟩) 1 .empty = some result ∧
    (AddsNamed Mirror.blake3 (Mirror.node 256) talk (fun _ => ⟨0,0⟩) origin .empty result.2 ↔
      ∀ visit ∈ result.2.visits,Genuine Mirror.blake3 (Mirror.node 256) talk (fun _ => ⟨0,0⟩) origin visit) := by
  obtain ⟨result,ran,-⟩ := ran
  exact ⟨result,ran,replication_named Mirror.blake3 Mirror.decodePage 256 1024 1 talk _ .empty origin result rfl ran⟩

open Swapped in
theorem swapped_kept : ¬∀ result,converse (Mirror.node 256) talk (fun _ => ⟨0,0⟩) 1 .empty = some result →
    AddsNamed Mirror.blake3 (Mirror.node 256) talk (fun _ => ⟨0,0⟩) origin .empty result.2 := by
  intro always
  obtain ⟨result,ran,visits⟩ := ran
  have traced := converse_traced Mirror.decodePage 256 1024 (show talk.recipient = some origin from rfl) ran
  have genuine := traced.genuine_iff.mp (always result ran) (visit result.2.round.registry) (by rw [visits]; exact mem_singleton_self _)
  rcases genuine _ _ _ (given _) with same | ⟨held,-⟩
  · exact absurd (show Mirror.blake3.id [97] = Mirror.blake3.id [98] from same) (by decide)
  · cases held

end HologramLive.Cluster
