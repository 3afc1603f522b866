import HologramLive.Cluster.Convergence
namespace HologramLive.Cluster
open Tables Rpc Objects Mirror List
open Objects.ObjectStore (Read)

abbrev Answering := Str → Option Str → Option Nat → Except LiveError ClusterResponse

-- What a peer does in one round: it may answer every inventory request, and every
-- fetch of an entry, in another way.
structure Conversation where
  endpoint : Str
  recipient : Option Str
  page : Nat → Answering
  object : Nat → Answering
  blobChannel : Option (Nat → BlobChannel)

namespace Conversation

def pagePeer (talk : Conversation) (k : Nat) : Peer := ⟨talk.endpoint,talk.recipient,talk.page k,none⟩
def entryPeer (talk : Conversation) (k : Nat) : Peer := ⟨talk.endpoint,talk.recipient,talk.object k,talk.blobChannel.map (· k)⟩
def steady (peer : Peer) : Conversation :=
  ⟨peer.endpoint,peer.recipient,fun _ => peer.send,fun _ => peer.send,peer.blobChannel.map fun channel _ => channel⟩

end Conversation

structure Visit (σ : Type) where
  turn : Nat
  metadata : ObjectMetadata
  before : σ
  after : σ

structure Progress (σ : Type) where
  round : Round σ
  visits : List (Visit σ)

section Rounds
variable {σ : Type} (node : Replicator σ) (talk : Conversation) (clock : Nat → Moment)

def converseEntries (recipient : Str) (progress : Progress σ) : List ObjectMetadata → Progress σ × Option LiveError
  | [] => (progress,none)
  | metadata :: rest =>
    let turn := progress.round.transferred
    let (round,ended) := replicateEntry node (talk.entryPeer turn) clock recipient progress.round metadata
    let progress := ⟨round,progress.visits ++ [⟨turn,metadata,progress.round.registry,round.registry⟩]⟩
    match ended with
    | some e => (progress,some e)
    | none => converseEntries recipient progress rest

def conversePages (recipient : Str) : Nat → Nat → Option Str → Progress σ → Option (Except LiveError RoundOutcome × Progress σ)
  | 0,_,_,_ => none
  | turns+1,k,cursor,progress =>
    let remaining := node.maxObjects - progress.round.transferred
    if remaining = 0 then some (.ok progress.round.outcome,progress)
    else match inventoryPage node (talk.pagePeer k) recipient (min remaining ObjectQuery.maxLimit) cursor with
      | .error e => some (.error e,progress)
      | .ok inventory =>
        match converseEntries node talk clock recipient progress inventory.objects with
        | (progress,some e) => some (.error e,progress)
        | (progress,none) =>
          match inventory.nextCursor with
          | some next => conversePages recipient turns (k+1) (some next) progress
          | none => some (.ok progress.round.outcome,progress)

def converse (turns : Nat) (registry : σ) : Option (Except LiveError RoundOutcome × Progress σ) :=
  let start : Progress σ := ⟨⟨registry,0,⟨0,0⟩⟩,[]⟩
  match talk.recipient with
  | none => some (.error (.config ("no cluster network can reach ".toList ++ talk.endpoint)),start)
  | some recipient => conversePages node talk clock recipient turns 0 none start

-- Whether the entry was asked for: it is within the size bound and was not there.
def attempted (visit : Visit σ) : Bool :=
  visit.metadata.size ≤ node.maxBytes &&
    match (node.registry.getObject visit.before (clock (visit.turn+1)) visit.metadata.id).1 with
    | .ok _ => false
    | .error _ => true

-- The inventory that is asked for, and how many of its entries are within the size
-- bound; nothing when it does not end with so many requests.
def listing (pages : Nat → Peer) (recipient : Str) : Nat → Nat → Option Str → Nat → Nat → Option Nat
  | 0,_,_,_,_ => none
  | turns+1,k,cursor,transferred,count =>
    if node.maxObjects - transferred = 0 then some count
    else match inventoryPage node (pages k) recipient (min (node.maxObjects - transferred) ObjectQuery.maxLimit) cursor with
      | .error _ => some count
      | .ok inventory =>
        let small := inventory.objects.countP fun metadata => metadata.size ≤ node.maxBytes
        match inventory.nextCursor with
        | some next => listing pages recipient turns (k+1) (some next) (transferred + inventory.objects.length) (count + small)
        | none => some (count + small)

def Ends : Prop :=
  ∀ recipient,talk.recipient = some recipient → ∃ turns count,listing node talk.pagePeer recipient turns 0 none 0 0 = some count ∧
    count ≤ node.maxObjects

def RoundBounded (registry : σ) : Prop :=
  ∃ turns result,converse node talk clock turns registry = some result ∧
    result.2.visits.countP (attempted node clock) ≤ node.maxObjects

end Rounds

section Steps
variable {σ : Type} {node : Replicator σ} {talk : Conversation} {clock : Nat → Moment} {recipient : Str}

theorem replicateEntry_transferred (peer : Peer) (round : Round σ) (metadata : ObjectMetadata) :
    (replicateEntry node peer clock recipient round metadata).1.transferred = round.transferred+1 := by
  unfold replicateEntry
  simp only
  split
  · rfl
  · split
    · rfl
    · rfl
    · split <;> rfl

-- A peer that answers the same way all the time is the one of a plain round.
theorem converseEntries_steady (peer : Peer) (objects : List ObjectMetadata) (progress : Progress σ) :
    replicateEntries node peer clock recipient progress.round objects =
      ((converseEntries node (.steady peer) clock recipient progress objects).1.round,
        (converseEntries node (.steady peer) clock recipient progress objects).2) := by
  induction objects generalizing progress with
  | nil => rfl
  | cons metadata rest ih =>
    have same : (Conversation.steady peer).entryPeer progress.round.transferred = peer := by
      obtain ⟨endpoint,routed,send,_ | channel⟩ := peer <;> rfl
    rw [replicateEntries,converseEntries,same]
    cases replicateEntry node peer clock recipient progress.round metadata with
    | mk round ended =>
      cases ended with
      | some e => rfl
      | none => exact ih ⟨round,_⟩

theorem conversePages_steady (peer : Peer) (turns k : Nat) (cursor : Option Str) (progress : Progress σ) :
    replicatePages node peer clock recipient turns cursor progress.round =
      (conversePages node (.steady peer) clock recipient turns k cursor progress).map fun result =>
        (result.1,result.2.round.registry) := by
  induction turns generalizing k cursor progress with
  | zero => rfl
  | succ turns ih =>
    rw [replicatePages,conversePages]
    have page (limit : Nat) : inventoryPage node ((Conversation.steady peer).pagePeer k) recipient limit cursor =
        inventoryPage node peer recipient limit cursor := rfl
    simp only [page]
    split
    · rfl
    · cases inventoryPage node peer recipient (min (node.maxObjects - progress.round.transferred) ObjectQuery.maxLimit) cursor with
      | error e => rfl
      | ok inventory =>
        simp only [converseEntries_steady peer inventory.objects progress]
        cases converseEntries node (.steady peer) clock recipient progress inventory.objects with
        | mk later ended =>
          cases ended with
          | some e => rfl
          | none =>
            cases inventory.nextCursor with
            | some next => exact ih (k+1) (some next) later
            | none => rfl

-- The entries of a page cost their number of the budget, and one attempt each at most
-- where they are within the bound.
theorem converseEntries_counts (progress : Progress σ) (objects : List ObjectMetadata) :
    (converseEntries node talk clock recipient progress objects).1.visits.countP (attempted node clock) ≤
        progress.visits.countP (attempted node clock) + objects.countP (fun metadata => metadata.size ≤ node.maxBytes) ∧
      ((converseEntries node talk clock recipient progress objects).2 = none →
        (converseEntries node talk clock recipient progress objects).1.round.transferred =
          progress.round.transferred + objects.length) := by
  induction objects generalizing progress with
  | nil => exact ⟨Nat.le_refl _,fun _ => rfl⟩
  | cons metadata rest ih =>
    rw [converseEntries]
    have moved := @replicateEntry_transferred σ node clock recipient (talk.entryPeer progress.round.transferred) progress.round metadata
    cases ran : replicateEntry node (talk.entryPeer progress.round.transferred) clock recipient progress.round metadata with
    | mk round ended =>
      rw [ran] at moved
      have one (later : σ) : (progress.visits ++ [(⟨progress.round.transferred,metadata,progress.round.registry,later⟩ : Visit σ)]).countP
          (attempted node clock) ≤ progress.visits.countP (attempted node clock) + if metadata.size ≤ node.maxBytes then 1 else 0 := by
        rw [countP_append,countP_singleton]
        unfold attempted; simp only [Bool.and_eq_true,decide_eq_true_eq]
        grind
      have here := one round.registry
      rw [countP_cons]
      simp only [decide_eq_true_eq]
      cases ended with
      | some e => exact ⟨by dsimp only; omega,fun none => by cases none⟩
      | none =>
        obtain ⟨few,counted⟩ := ih ⟨round,progress.visits ++ [⟨progress.round.transferred,metadata,progress.round.registry,round.registry⟩]⟩
        refine ⟨few.trans (by dsimp only; omega),fun went => (counted went).trans ?_⟩
        rw [length_cons]
        dsimp only at moved ⊢; omega

theorem listing_grows {transferred count all : Nat}
    (listed : listing node talk.pagePeer recipient turns k cursor transferred count = some all) : count ≤ all := by
  induction turns generalizing k cursor transferred count with
  | zero => cases listed
  | succ turns ih =>
    rw [listing] at listed
    split at listed
    · cases listed
      exact Nat.le_refl _
    · split at listed
      · cases listed; exact Nat.le_refl _
      · dsimp only at listed; split at listed
        · have := ih listed
          omega
        · cases listed; omega

theorem conversePages_ends {turns k : Nat} {cursor : Option Str} {progress : Progress σ} {count all : Nat}
    (listed : listing node talk.pagePeer recipient turns k cursor progress.round.transferred count = some all) :
    ∃ result,conversePages node talk clock recipient turns k cursor progress = some result ∧
      result.2.visits.countP (attempted node clock) + count ≤ progress.visits.countP (attempted node clock) + all := by
  induction turns generalizing k cursor progress count with
  | zero => cases listed
  | succ turns ih =>
    rw [listing] at listed
    rw [conversePages]
    split at listed
    · rename_i spent
      cases listed
      exact ⟨_,if_pos spent,Nat.le_refl _⟩
    · rename_i left
      simp only [left,if_false]
      generalize inventoryPage node (talk.pagePeer k) recipient _ cursor = paged at listed ⊢
      cases paged with
      | error e => cases listed; exact ⟨_,rfl,Nat.le_refl _⟩
      | ok inventory =>
        obtain ⟨few,counted⟩ := @converseEntries_counts σ node talk clock recipient progress inventory.objects
        dsimp only at listed ⊢
        cases ran : converseEntries node talk clock recipient progress inventory.objects with
        | mk later ended =>
          rw [ran] at few counted
          dsimp only at few counted
          have grows : count + inventory.objects.countP (fun metadata => metadata.size ≤ node.maxBytes) ≤ all := by
            split at listed
            · exact listing_grows listed
            · cases listed; exact Nat.le_refl _
          cases ended with
          | some e => exact ⟨_,rfl,by dsimp only; omega⟩
          | none =>
            dsimp only
            cases next : inventory.nextCursor with
            | some cursor =>
              rw [next] at listed
              dsimp only at listed; rw [←counted rfl] at listed
              obtain ⟨result,ran,bound⟩ := ih listed
              exact ⟨result,ran,by omega⟩
            | none => exact ⟨_,rfl,by dsimp only; omega⟩

end Steps

-- A peer that lists the same pages and delivers no object.
def Conversation.refusing (talk : Conversation) : Conversation :=
  {talk with blobChannel := some fun _ => ⟨fun _ => .error (.io "refused".toList),fun _ => .ok []⟩}

section Refused
variable {σ : Type} {node : Replicator σ} {talk : Conversation} {clock : Nat → Moment} {recipient : Str} {empty : σ}

-- A store that no read finds anything in.
def Vacant (node : Replicator σ) (empty : σ) : Prop := ∀ now id,∃ e,node.registry.getObject empty now id = (.error e,empty)

theorem replicateEntry_refused (vacant : Vacant node empty) (round : Round σ) (bare : round.registry = empty) (k : Nat)
    (metadata : ObjectMetadata) :
    (replicateEntry node (talk.refusing.entryPeer k) clock recipient round metadata).2 = none ∧
    (replicateEntry node (talk.refusing.entryPeer k) clock recipient round metadata).1.registry = empty := by
  obtain ⟨registry,transferred,outcome⟩ := round
  cases bare
  unfold replicateEntry
  simp only
  split
  · exact ⟨rfl,rfl⟩
  · obtain ⟨e,missing⟩ := vacant (clock (transferred+1)) metadata.id
    simp [replicateObject,missing,Conversation.refusing,Conversation.entryPeer,fetchAndImportObject,endsReplicationRound]

theorem converseEntries_refused (vacant : Vacant node empty) (progress : Progress σ) (bare : progress.round.registry = empty)
    (objects : List ObjectMetadata) :
    ∃ later,converseEntries node talk.refusing clock recipient progress objects = (later,none) ∧ later.round.registry = empty ∧
      later.visits.countP (attempted node clock) =
        progress.visits.countP (attempted node clock) + objects.countP (fun metadata => metadata.size ≤ node.maxBytes) := by
  induction objects generalizing progress with
  | nil => exact ⟨progress,rfl,bare,rfl⟩
  | cons metadata rest ih =>
    rw [converseEntries]
    obtain ⟨went,still⟩ := @replicateEntry_refused σ node talk clock recipient empty vacant progress.round bare
      progress.round.transferred metadata
    cases ran : replicateEntry node (talk.refusing.entryPeer progress.round.transferred) clock recipient progress.round metadata with
    | mk round ended =>
      rw [ran] at went still
      cases went
      obtain ⟨later,done,kept,counted⟩ := ih ⟨round,progress.visits ++ [⟨progress.round.transferred,metadata,progress.round.registry,
        round.registry⟩]⟩ still
      refine ⟨later,done,kept,counted.trans ?_⟩
      obtain ⟨e,missing⟩ := vacant (clock (progress.round.transferred+1)) metadata.id
      have asked : attempted node clock ⟨progress.round.transferred,metadata,progress.round.registry,round.registry⟩ =
          decide (metadata.size ≤ node.maxBytes) := by
        unfold attempted; simp [bare,missing]
      rw [countP_append,countP_singleton,countP_cons,asked]
      omega

theorem conversePages_refused (vacant : Vacant node empty) {turns k : Nat} {cursor : Option Str} {progress : Progress σ} {count : Nat}
    {result : Except LiveError RoundOutcome × Progress σ} (bare : progress.round.registry = empty)
    (ran : conversePages node talk.refusing clock recipient turns k cursor progress = some result) :
    ∃ all,listing node talk.pagePeer recipient turns k cursor progress.round.transferred count = some all ∧
      result.2.visits.countP (attempted node clock) + count = progress.visits.countP (attempted node clock) + all := by
  induction turns generalizing k cursor progress count with
  | zero => cases ran
  | succ turns ih =>
    rw [conversePages,show talk.refusing.pagePeer k = talk.pagePeer k from rfl] at ran
    rw [listing]
    split at ran
    · rename_i spent
      cases ran
      exact ⟨_,if_pos spent,rfl⟩
    · rename_i left
      simp only [left,if_false]
      generalize inventoryPage node (talk.pagePeer k) recipient _ cursor = paged at ran ⊢
      cases paged with
      | error e => cases ran; exact ⟨_,rfl,rfl⟩
      | ok inventory =>
        obtain ⟨later,entries,kept,counted⟩ := @converseEntries_refused σ node talk clock recipient empty vacant progress bare
          inventory.objects
        have moved := (@converseEntries_counts σ node talk.refusing clock recipient progress inventory.objects).2 (by rw [entries])
        rw [entries] at moved; simp only [entries] at ran moved ⊢
        cases next : inventory.nextCursor with
        | some cursor =>
          rw [next] at ran
          obtain ⟨all,listed,bound⟩ := @ih (k+1) (some cursor) later
            (count + inventory.objects.countP fun metadata => metadata.size ≤ node.maxBytes) kept ran
          rw [moved] at listed; exact ⟨all,listed,by omega⟩
        | none =>
          rw [next] at ran; cases ran
          exact ⟨_,rfl,by dsimp only; omega⟩

end Refused

theorem round_bounded {σ : Type} {node : Replicator σ} {talk : Conversation} (ends : Ends node talk) (clock : Nat → Moment) (registry : σ) :
    RoundBounded node talk clock registry := by
  unfold RoundBounded converse
  cases routed : talk.recipient with
  | none => exact ⟨0,_,rfl,Nat.zero_le _⟩
  | some recipient =>
    obtain ⟨turns,count,listed,within⟩ := ends recipient routed
    obtain ⟨result,ran,few⟩ := @conversePages_ends σ node talk clock recipient turns 0 none ⟨⟨registry,0,⟨0,0⟩⟩,[]⟩ 0 count listed
    exact ⟨turns,result,ran,by simp only [countP_nil] at few; omega⟩

-- A round ends within its number of attempts, whatever is delivered and whatever the
-- node holds, exactly where the inventory that is asked for ends and has no more
-- entries within the size bound than that. With one that does not, the peer that
-- delivers nothing has an empty store ask for all of it.
theorem rounds_bounded {σ : Type} (node : Replicator σ) (talk : Conversation) (empty : σ) (vacant : Vacant node empty) :
    (∀ object blobChannel clock registry,
      RoundBounded node {talk with object := object,blobChannel := blobChannel} clock registry) ↔ Ends node talk := by
  refine ⟨fun always recipient routed => ?_,fun ends object blobChannel clock registry =>
    @round_bounded σ node {talk with object := object,blobChannel := blobChannel} ends clock registry⟩
  obtain ⟨turns,result,ran,few⟩ := always talk.object talk.refusing.blobChannel (fun _ => ⟨0,0⟩) empty
  have ran : converse node talk.refusing (fun _ => ⟨0,0⟩) turns empty = some result := ran
  unfold converse at ran
  have routed : talk.refusing.recipient = some recipient := routed
  simp only [routed] at ran
  obtain ⟨all,listed,counted⟩ := @conversePages_refused σ node talk (fun _ => ⟨0,0⟩) recipient empty vacant turns 0 none
    ⟨⟨empty,0,⟨0,0⟩⟩,[]⟩ 0 result rfl ran
  exact ⟨turns,all,listed,by simp only [countP_nil] at counted; omega⟩

namespace Endless

def pageBody : Bytes := toUtf8 "\x7b\"objects\":[],\"next_cursor\":\"x\",\"truncated\":false\x7d".toList

def decodePage (body : Bytes) : Except Str ObjectPage :=
  if body = pageBody then .ok ⟨[],some ['x'],false⟩ else .error "expected value at line 1 column 1".toList

def talk : Conversation := ⟨origin,some origin,fun _ _ _ _ => .ok ⟨200,[],pageBody⟩,fun _ _ _ _ => .ok ⟨404,[],[]⟩,none⟩

def node : Replicator Objects.ObjectStore := localNode blake3 decodePage 256 1024

theorem vacant : Vacant node .empty := fun now id => by
  have missing : ∃ e,LocalRegistry.getObject blake3 .empty id = .error e := by
    unfold LocalRegistry.getObject ObjectStore.get
    cases digestOf id with
    | error e => exact ⟨e,rfl⟩
    | ok digest => exact ⟨_,rfl⟩
  obtain ⟨e,missing⟩ := missing
  exact ⟨e,Prod.ext missing rfl⟩

end Endless

open Endless in
theorem rounds_bounded_empty : (∀ object blobChannel clock registry,
    RoundBounded node {talk with object := object,blobChannel := blobChannel} clock registry) ↔ Ends node talk :=
  rounds_bounded node talk .empty vacant

open Endless in
-- Pages without objects that go on leave the budget as it is.
theorem round_endless : ¬RoundBounded node talk (fun _ => ⟨0,0⟩) .empty := by
  rintro ⟨turns,result,ran,-⟩
  have page (limit k : Nat) (cursor : Option Str) :
      inventoryPage node (talk.pagePeer k) origin limit cursor = .ok ⟨[],some ['x'],false⟩ := by
    have clean : rejectSeparators "GET".toList objectsPath (some (inventoryQuery limit cursor)) origin = .ok () := by
      refine rejectSeparators_ok.mpr ⟨by decide,by decide,fun text asked => ?_,by decide⟩
      cases asked
      exact inventoryQuery_clean limit cursor
    unfold inventoryPage signedGet
    rw [clean]
    rfl
  have never (turns k : Nat) (cursor : Option Str) (progress : Progress Objects.ObjectStore) (none : progress.round.transferred = 0) :
      conversePages node talk (fun _ => ⟨0,0⟩) origin turns k cursor progress = Option.none := by
    induction turns generalizing k cursor with
    | zero => rfl
    | succ turns ih =>
      rw [conversePages,none]
      simp only [page,converseEntries]
      exact ih (k+1) (some ['x'])
  have ended := (never turns 0 none ⟨⟨.empty,0,⟨0,0⟩⟩,[]⟩ rfl).symm.trans ran
  cases ended

end HologramLive.Cluster
