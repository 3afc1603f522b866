import HologramLive.Artifact.Transfer
import HologramLive.Holo.Tabled
import HologramLive.Lib.Runs
namespace HologramLive.StorageWrites
open Tables Runs List
variable (hologram : Hologram)

def cacheAddressedBounded (store : ObjectStore) (id : Kappa) (bytes : Bytes) (maxNewBytes : Nat) (wrote : Bool) :
    Except LiveError Bool × ObjectStore :=
  match validateId id with
  | .error error => (.error error,store)
  | .ok _ =>
    if hologram.addressBytes bytes ≠ id then
      (.error (.invalidHolo ("content blob ".toList ++ id ++ " does not match its bytes".toList)),store)
    else if (store[id]?).isSome then (.ok false,store)
    else if maxNewBytes < bytes.length then
      (.error (.capability "addressed object exceeds the permitted new-byte ceiling".toList),store)
    else if wrote then (.ok true,store.insert id bytes)
    else (.error (.io "write blob".toList),store)

-- What a layer of the store-write profile is linked to.
structure StoreWriteHost where
  roots : List Kappa
  quotaRemaining : Nat
deriving DecidableEq, Repr

def prepare (applicationKappa : Kappa) (request : Capabilities) (hasStore : Bool) : Except LiveError StoreWriteHost :=
  if request.storageRoots.isEmpty then
    .error (.authorization ("Component interface hologram:host/store-write@1.0.0 requires at least one admitted storage_roots entry for application ".toList ++
      applicationKappa))
  else if request.storageQuotaBytes = 0 then
    .error (.authorization ("Component interface hologram:host/store-write@1.0.0 requires a nonzero admitted storage_quota_bytes value for application ".toList ++
      applicationKappa))
  else if hasStore then .ok ⟨request.storageRoots,request.storageQuotaBytes⟩
  else .error (.capability "Component interface hologram:host/store-write@1.0.0 has no object-store backend".toList)

def writeError : LiveError → Str
  | .invalidHolo _ => "object bytes do not match the admitted content address".toList
  | .capability _ => "write exceeds the application's admitted storage quota".toList
  | _ => "object-store write failed".toList

-- The reply to the guest, whether the blob is a new one, and what is left behind.
structure WriteOutcome where
  reply : Except Str Unit
  created : Bool
  host : StoreWriteHost
  store : ObjectStore

def write (host : StoreWriteHost) (store : ObjectStore) (kappa : Kappa) (bytes : Bytes) (wrote : Bool) :
    Option WriteOutcome :=
  if kappa ∈ host.roots then
    match cacheAddressedBounded hologram store kappa bytes host.quotaRemaining wrote with
    | (.error error,store) => some ⟨.error (writeError error),false,host,store⟩
    | (.ok false,store) => some ⟨.ok (),false,host,store⟩
    | (.ok true,store) =>
      if host.quotaRemaining < bytes.length then none
      else some ⟨.ok (),true,{host with quotaRemaining := host.quotaRemaining-bytes.length},store⟩
  else some ⟨.error "object is outside the application's admitted storage roots".toList,false,host,store⟩

def Fresh (roots : List Kappa) (store : ObjectStore) (kappa : Kappa) (bytes : Bytes) : Prop :=
  kappa ∈ roots ∧ hologram.addressBytes bytes = kappa ∧ store[kappa]? = none

inductive Written (host : StoreWriteHost) (store : ObjectStore) (kappa : Kappa) (bytes : Bytes) : Option WriteOutcome → Prop
  | kept (reply : Except Str Unit) : Written host store kappa bytes (some ⟨reply,false,host,store⟩)
  | created (fresh : Fresh hologram host.roots store kappa bytes) (fits : bytes.length ≤ host.quotaRemaining) :
      Written host store kappa bytes (some ⟨.ok (),true,
        {host with quotaRemaining := host.quotaRemaining-bytes.length},store.insert kappa bytes⟩)

theorem cacheAddressedBounded_cases (store : ObjectStore) (kappa : Kappa) (bytes : Bytes) (ceiling : Nat) (wrote : Bool) :
    (∃ error,cacheAddressedBounded hologram store kappa bytes ceiling wrote = (.error error,store)) ∨
    cacheAddressedBounded hologram store kappa bytes ceiling wrote = (.ok false,store) ∨
    (hologram.addressBytes bytes = kappa ∧ store[kappa]? = none ∧ bytes.length ≤ ceiling ∧
      cacheAddressedBounded hologram store kappa bytes ceiling wrote = (.ok true,store.insert kappa bytes)) := by
  unfold cacheAddressedBounded
  split
  case h_1 error _ => exact .inl ⟨error,rfl⟩
  case h_2 =>
    by_cases mine : hologram.addressBytes bytes = kappa
    · rw [if_neg (not_not.mpr mine)]
      by_cases present : (store[kappa]?).isSome
      · rw [if_pos present]; exact .inr (.inl rfl)
      · rw [if_neg present]
        by_cases beyond : ceiling < bytes.length
        · rw [if_pos beyond]; exact .inl ⟨_,rfl⟩
        · rw [if_neg beyond]
          cases wrote with
          | false => exact .inl ⟨_,rfl⟩
          | true => exact .inr (.inr ⟨mine,by simpa using present,Nat.le_of_not_lt beyond,rfl⟩)
    · rw [if_pos mine]
      exact .inl ⟨_,rfl⟩

theorem write_written (host : StoreWriteHost) (store : ObjectStore) (kappa : Kappa) (bytes : Bytes) (wrote : Bool) :
    Written hologram host store kappa bytes (write hologram host store kappa bytes wrote) := by
  unfold write
  by_cases inside : kappa ∈ host.roots
  · rw [if_pos inside]
    obtain ⟨error,failed⟩ | shared | ⟨mine,absent,fits,created⟩ :=
      cacheAddressedBounded_cases hologram store kappa bytes host.quotaRemaining wrote
    · rw [failed]
      exact .kept _
    · rw [shared]
      exact .kept _
    · rw [created]
      simp only [if_neg (Nat.not_lt.mpr fits)]
      exact .created ⟨inside,mine,absent⟩ fits
  · rw [if_neg inside]
    exact .kept _

-- A running application: its layers of the store-write profile, the shared store,
-- and the blobs that its calls have created.
structure Application where
  layers : List StoreWriteHost
  store : ObjectStore
  created : List (Kappa × Bytes)
  panicked : Bool

def Application.createdBytes (s : Application) : Nat := (s.created.map fun blob => blob.2.length).sum

inductive Action where
  | write (layer : Nat) (kappa : Kappa) (bytes : Bytes) (wrote : Bool)
  -- other users of the store
  | outside (kappa : Kappa) (content : Option Bytes)

def act (s : Application) : Action → Option Application
  | .write layer kappa bytes wrote => (s.layers[layer]?).map fun host =>
    match write hologram host s.store kappa bytes wrote with
    | none => {s with panicked := true}
    | some outcome => {s with
      layers := s.layers.set layer outcome.host
      store := outcome.store
      created := if outcome.created then s.created ++ [(kappa,bytes)] else s.created}
  | .outside kappa content => some {s with store := match content with
    | some bytes => s.store.insert kappa bytes
    | none => s.store.erase kappa}

section Quota
variable (applicationKappa : Kappa) (request : Capabilities)

def Started (s : Application) : Prop :=
  (∀ host ∈ s.layers,prepare applicationKappa request true = .ok host) ∧ s.created = [] ∧ s.panicked = false

-- The application has one layer that writes, or a new blob fits what the quota
-- leaves of all that its layers created.
def Fits (s : Application) : Action → Prop
  | .write _ kappa bytes _ => s.layers.length ≤ 1 ∨
    (Fresh hologram request.storageRoots s.store kappa bytes → s.createdBytes+bytes.length ≤ request.storageQuotaBytes)
  | .outside _ _ => True

-- A layer that writes alone has what the created blobs leave of the quota.
structure Accounted (s : Application) : Prop where
  roots : ∀ host ∈ s.layers,host.roots = request.storageRoots
  bounded : s.createdBytes ≤ request.storageQuotaBytes
  alone : ∀ host,s.layers = [host] → s.createdBytes+host.quotaRemaining = request.storageQuotaBytes
  admitted : ∀ blob ∈ s.created,blob.1 ∈ request.storageRoots
  calm : s.panicked = false

-- A refused write leaves the layer's quota and the store as they were, and no
-- write touches an address that is not an admitted root.
def Guarded (s : Application) : Prop :=
  ∀ (layer : Nat) (host : StoreWriteHost) (kappa : Kappa) (bytes : Bytes) (wrote : Bool),s.layers[layer]? = some host →
    ∃ outcome,write hologram host s.store kappa bytes wrote = some outcome ∧
      ((∃ error,outcome.reply = .error error) → outcome.host = host ∧ outcome.store = s.store) ∧
      ∀ other,other ∉ request.storageRoots → outcome.store[other]? = s.store[other]?

variable {applicationKappa request} {s t : Application}

theorem prepared (linked : prepare applicationKappa request true = .ok host) :
    host = ⟨request.storageRoots,request.storageQuotaBytes⟩ := by
  unfold prepare at linked
  split at linked
  · cases linked
  split at linked
  · cases linked
  · cases linked
    rfl

theorem started_accounted (started : Started applicationKappa request s) : Accounted request s := by
  obtain ⟨linked,fresh,calm⟩ := started
  have nothing : s.createdBytes = 0 := by rw [Application.createdBytes,fresh]; rfl
  refine ⟨fun host member => ?_,by omega,fun host only => ?_,fun blob member => ?_,calm⟩
  · rw [prepared (linked host member)]
  · rw [nothing,prepared (linked host (by rw [only]; exact mem_singleton_self host)),Nat.zero_add]
  · rw [fresh] at member
    cases member

theorem set_alone {layers : List StoreWriteHost} {layer : Nat} {host new only : StoreWriteHost}
    (found : layers[layer]? = some host) (single : layers.set layer new = [only]) : layers = [host] ∧ only = new := by
  obtain _ | ⟨head,rest⟩ := layers
  · cases single
  · obtain _ | position := layer
    · cases found
      cases single
      exact ⟨rfl,rfl⟩
    · have empty : rest = [] := by simpa using (cons.inj single).2
      rw [empty] at found
      cases found

theorem act_accounted (accounted : Accounted request s) (action : Action) (fits : Fits hologram request s action)
    (moved : act hologram s action = some t) : Accounted request t := by
  cases action with
  | outside kappa content =>
    cases moved
    exact ⟨accounted.roots,accounted.bounded,accounted.alone,accounted.admitted,accounted.calm⟩
  | write layer kappa bytes wrote =>
    obtain ⟨host,found,after⟩ := Option.map_eq_some_iff.mp moved
    have member := mem_of_getElem? found
    have written := write_written hologram host s.store kappa bytes wrote
    generalize write hologram host s.store kappa bytes wrote = outcome at written after
    cases written with
    | kept reply =>
      have same : s.layers.set layer host = s.layers := by
        obtain ⟨inside,rfl⟩ := List.getElem?_eq_some_iff.mp found
        exact set_getElem_self inside
      rw [← after]
      show Accounted request {s with layers := s.layers.set layer host}
      rw [same]
      exact accounted
    | created fresh within =>
      cases after
      rw [accounted.roots host member] at fresh
      have grown : (s.created ++ [(kappa,bytes)]).map (fun blob => blob.2.length) =
          s.created.map (fun blob => blob.2.length) ++ [bytes.length] := map_append
      have total : ((s.created ++ [(kappa,bytes)]).map fun blob => blob.2.length).sum = s.createdBytes+bytes.length := by
        rw [grown,sum_append,sum_singleton]; rfl
      refine ⟨fun other held => ?_,?_,fun only single => ?_,fun blob held => ?_,accounted.calm⟩
      · obtain old | rfl := mem_or_eq_of_mem_set held
        · exact accounted.roots other old
        · exact accounted.roots host member
      · show ((s.created ++ [(kappa,bytes)]).map fun blob => blob.2.length).sum ≤ _
        rw [total]
        obtain few | room := fits
        · obtain ⟨only,single⟩ := length_eq_one_iff.mp (Nat.le_antisymm few (length_pos_of_mem member))
          rw [single] at member; cases mem_singleton.mp member
          have share := accounted.alone host single
          omega
        · exact room fresh
      · obtain ⟨was,rfl⟩ := set_alone found single
        have share := accounted.alone host was
        show ((s.created ++ [(kappa,bytes)]).map fun blob => blob.2.length).sum+(host.quotaRemaining-bytes.length) = _
        rw [total]; omega
      · obtain old | new := mem_append.mp held
        · exact accounted.admitted blob old
        · rw [mem_singleton.mp new]; exact fresh.1

theorem accounted_guarded (accounted : Accounted request s) : Guarded hologram request s := by
  intro layer host kappa bytes wrote found
  have written := write_written hologram host s.store kappa bytes wrote
  generalize write hologram host s.store kappa bytes wrote = outcome at written
  cases written with
  | kept reply => exact ⟨_,rfl,fun _ => ⟨rfl,rfl⟩,fun _ _ => rfl⟩
  | created fresh within =>
    refine ⟨_,rfl,fun refused => ?_,fun other foreign => ?_⟩
    · obtain ⟨_,refused⟩ := refused
      cases refused
    · rw [accounted.roots host (mem_of_getElem? found)] at fresh
      have apart : kappa ≠ other := fun same => foreign (same ▸ fresh.1)
      exact (get_insert _ _ _ _).trans (if_neg apart)

-- In a run of such writes all that the layers create stays within the quota of
-- the application.
theorem quota_kept (reached : Reached (Started applicationKappa request) (Taken (act hologram) (Fits hologram request)) s) :
    s.createdBytes ≤ request.storageQuotaBytes ∧ s.panicked = false ∧ (∀ blob ∈ s.created,blob.1 ∈ request.storageRoots) ∧
    Guarded hologram request s := by
  have accounted : Accounted request s := reached.invariant (Accounted request) (fun _ => started_accounted)
    fun _ _ _ held moved => by
      obtain ⟨action,fits,taken⟩ := moved
      exact act_accounted hologram held action fits taken
  exact ⟨accounted.bounded,accounted.calm,accounted.admitted,accounted_guarded hologram accounted⟩

end Quota

instance (roots : List Kappa) (store : ObjectStore) (kappa : Kappa) (bytes : Bytes) :
    Decidable (Fresh hologram roots store kappa bytes) := inferInstanceAs (Decidable (_ ∧ _ ∧ _))

instance (request : Capabilities) (s : Application) (action : Action) : Decidable (Fits hologram request s action) :=
  match action with
  | .write .. => inferInstanceAs (Decidable (_ ∨ _))
  | .outside .. => isTrue trivial

def sampleAddress (bytes : Bytes) : Kappa :=
  "blake3:".toList ++ (if bytes = [1] then "48fc721fbbc172e0925fa27af1671de225ba927134802998b10a1568a188652b"
    else "ab13bedf42e84bae0f7c62c7dd6a8ada571e8829bed6ea558217f0361b5e25d0").toList

def sampleHologram : Hologram := {family with addressBytes := sampleAddress}

def sampleRequest : Capabilities :=
  {emptyCapabilities with storageRoots := [sampleAddress [1],sampleAddress [2]], storageQuotaBytes := 1}

def sampleApplication (layers : Nat) : Application :=
  ⟨replicate layers ⟨sampleRequest.storageRoots,1⟩,∅,[],false⟩

theorem sample_started (layers : Nat) : Started "app".toList sampleRequest (sampleApplication layers) := by
  refine ⟨fun host member => ?_,rfl,rfl⟩
  rw [(mem_replicate.mp member).2]
  rfl

-- Two layers of one application create twice its quota.
theorem quota_doubled : ¬∀ (hologram : Hologram) (applicationKappa : Kappa) (request : Capabilities) (s : Application),
    Reached (Started applicationKappa request) (Taken (act hologram) fun _ _ => True) s →
      s.createdBytes ≤ request.storageQuotaBytes := by
  intro all
  have shown : (play (act sampleHologram) (fun _ _ => True) (sampleApplication 2) [.write 0 (sampleAddress [1]) [1] true,
      .write 1 (sampleAddress [2]) [2] true]).any (fun s => decide (1 < s.createdBytes)) = true := by
    decide
  obtain ⟨s,reached,beyond⟩ := play_shows (sample_started 2) shown
  exact absurd (all _ _ _ _ reached) (Nat.not_le_of_lt (of_decide_eq_true beyond))

theorem quota_used : ∃ s : Application,s.createdBytes = 1 ∧ s.createdBytes ≤ sampleRequest.storageQuotaBytes ∧
    s.panicked = false ∧ (∀ blob ∈ s.created,blob.1 ∈ sampleRequest.storageRoots) ∧ Guarded sampleHologram sampleRequest s := by
  have shown : (play (act sampleHologram) (Fits sampleHologram sampleRequest) (sampleApplication 1)
      [.write 0 (sampleAddress [1]) [1] true,.write 0 (sampleAddress [2]) [2] true]).any
        (fun s => decide (s.createdBytes = 1)) = true := by
    decide
  obtain ⟨s,reached,used⟩ := play_shows (sample_started 1) shown
  exact ⟨s,of_decide_eq_true used,quota_kept sampleHologram reached⟩

end HologramLive.StorageWrites
