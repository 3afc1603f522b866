import HologramLive.Artifact.Delivery
namespace HologramLive
open Tables Fallible ArtifactManifest List

-- What one pull meets. The registry may answer otherwise at each request, and
-- with any bytes; the disk may fail at any layer.
structure LayerFetch where
  manifest : Str → Str → Except LiveError (Option (Bytes × Option Str))
  blob : Nat → Str → Kappa → Except LiveError Bytes
structure DiskFaults where
  read : Nat → Option LiveError
  write : Nat → Option LiveError
  confirm : Nat → Option LiveError
structure PullAttempt where
  reference : ArtifactRef
  fetch : LayerFetch
  disk : DiskFaults

def ObjectStore.readCached (store : ObjectStore) (id : Kappa) (fault : Option LiveError) : Except LiveError (Option Bytes) :=
  match store.getCached id,fault with
  | .ok _,some e => .error e
  | answer,_ => answer

section Attempts
variable (hologram : Hologram) (codec : JsonCodec) (attempt : PullAttempt)

def ObjectStore.writeAddressed (store : ObjectStore) (id : Kappa) (bytes : Bytes) (fault : Option LiveError) :
    Except LiveError ObjectStore :=
  match store.cacheAddressed hologram id bytes,store[id]?,fault with
  | .ok _,none,some e => .error e
  | answer,_,_ => answer

def PullAttempt.fetchLayer (index : Nat) (kappa : Kappa) : Except LiveError Bytes :=
  (attempt.fetch.blob index attempt.reference.repository kappa).mapError fun error => match error with
    | .notFound _ => .notFound ("artifact ".toList ++ attempt.reference.display ++ " references layer ".toList ++ kappa ++
        " which the registry does not hold".toList)
    | other => other

def PullAttempt.pullLayer (total : Nat) (pulling : Pulling) (entry : ArtifactLayer × Nat) : Except LiveError Pulling := do
  let kappa := entry.1.kappa
  match ← pulling.store.readCached kappa (attempt.disk.read entry.2) with
  | some _ => return {pulling with
      layersPresent := pulling.layersPresent+1
      progress := pulling.progress ++ [⟨kappa,entry.2,total,.alreadyPresent,0⟩]}
  | none =>
    let bytes ← attempt.fetchLayer entry.2 kappa
    let store ← pulling.store.writeAddressed hologram kappa bytes (attempt.disk.write entry.2)
    let transferred := saturated bytes.length
    return {pulling with
      store := store
      layersFetched := pulling.layersFetched+1
      bytesTransferred := saturatingAdd pulling.bytesTransferred transferred
      progress := pulling.progress ++ [⟨kappa,entry.2,total,.fetched,transferred⟩]}

-- A layer that fails ends the pull and leaves what the layers before it stored.
def PullAttempt.pullLayers (total : Nat) : Pulling → List (ArtifactLayer × Nat) → Pulling × Option LiveError
  | pulling,[] => (pulling,none)
  | pulling,entry :: rest => match attempt.pullLayer hologram total pulling entry with
    | .error e => (pulling,some e)
    | .ok next => PullAttempt.pullLayers total next rest

def PullAttempt.confirmLayer (store : ObjectStore) (entry : ArtifactLayer × Nat) : Except LiveError Unit := do
  match ← store.readCached entry.1.kappa (attempt.disk.confirm entry.2) with
  | some _ => return ()
  | none => .error (.notFound ("artifact ".toList ++ attempt.reference.display ++ " is incomplete: layer ".toList ++
      entry.1.kappa ++ " is missing after pull".toList))

structure PullOutcome where
  store : ObjectStore
  progress : List PullProgress
  result : Except LiveError PullReport

def PullAttempt.resolve : Except LiveError (ArtifactManifest × Option Str × Kappa) := do
  match ← attempt.fetch.manifest attempt.reference.repository attempt.reference.tag with
  | none => .error (.notFound ("artifact ".toList ++ attempt.reference.display ++ " not found".toList))
  | some (body,manifestDigest) =>
    let manifest ← decode codec body
    let archive ← manifest.archive
    return (manifest,manifestDigest,archive.kappa)

def PullAttempt.pull (store : ObjectStore) : PullOutcome :=
  match attempt.resolve codec with
  | .error e => ⟨store,[],.error e⟩
  | .ok (manifest,manifestDigest,archiveKappa) =>
    match attempt.pullLayers hologram manifest.layers.length ⟨store,0,0,0,[]⟩ manifest.layers.zipIdx with
    | (pulled,some e) => ⟨pulled.store,pulled.progress,.error e⟩
    | (pulled,none) => match manifest.layers.zipIdx.mapM (attempt.confirmLayer pulled.store) with
      | .error e => ⟨pulled.store,pulled.progress,.error e⟩
      | .ok _ => ⟨pulled.store,pulled.progress,.ok ⟨attempt.reference.display,manifestDigest,archiveKappa,
          pulled.layersFetched,pulled.layersPresent,pulled.bytesTransferred⟩⟩

def pulls : List PullAttempt → ObjectStore → List PullOutcome
  | [],_ => []
  | attempt :: rest,store => attempt.pull hologram codec store :: pulls rest (attempt.pull hologram codec store).store

structure Pulled (before : ObjectStore) (store : ObjectStore) (fetched : List Kappa) : Prop where
  kept : ∀ (kappa : Kappa) bytes,before[kappa]? = some bytes → store[kappa]? = some bytes
  addressed : ∀ (kappa : Kappa) bytes,store[kappa]? = some bytes → before[kappa]? = some bytes ∨ hologram.addressBytes bytes = kappa
  once : fetched.Nodup
  fresh : ∀ kappa ∈ fetched,before[kappa]? = none
  present : ∀ kappa ∈ fetched,(store[kappa]?).isSome

end Attempts

section Proofs
variable {hologram : Hologram} {codec : JsonCodec} {attempt : PullAttempt} {store before next : ObjectStore} {kappa : Kappa}
  {bytes : Bytes} {fault : Option LiveError} {pulling : Pulling} {total : Nat} {fetched more : List Kappa}

theorem Pulled.refl : Pulled hologram store store [] where
  kept _ _ present := present
  addressed _ _ present := .inl present
  once := .nil
  fresh _ member := by cases member
  present _ member := by cases member

theorem Pulled.trans (first : Pulled hologram before store fetched) (second : Pulled hologram store next more) :
    Pulled hologram before next (fetched ++ more) where
  kept kappa bytes present := second.kept kappa bytes (first.kept kappa bytes present)
  addressed kappa bytes present := (second.addressed kappa bytes present).elim (first.addressed kappa bytes) .inr
  once := by
    refine nodup_append.mpr ⟨first.once,second.once,fun a old b new same => ?_⟩
    have there := first.present a old
    rw [same,second.fresh b new] at there
    cases there
  fresh kappa member := by
    rcases mem_append.mp member with old | new
    · exact first.fresh kappa old
    · cases found : before[kappa]? with
      | none => rfl
      | some bytes =>
        have there := first.kept kappa bytes found
        rw [second.fresh kappa new] at there; cases there
  present kappa member := by
    rcases mem_append.mp member with old | new
    · obtain ⟨bytes,there⟩ := Option.isSome_iff_exists.mp (first.present kappa old)
      rw [second.kept kappa bytes there]
      rfl
    · exact second.present kappa new

theorem Pulled.insert (absent : store[kappa]? = none) (mine : hologram.addressBytes bytes = kappa) :
    Pulled hologram store (store.insert kappa bytes) [kappa] where
  kept other old present := by
    rw [get_insert,if_neg,present]
    rintro rfl
    rw [absent] at present
    cases present
  addressed other found present := by
    rw [get_insert] at present
    split at present
    · rename_i same
      cases present
      exact .inr (mine.trans same)
    · exact .inl present
  once := nodup_singleton kappa
  fresh other member := by
    rw [mem_singleton.mp member]
    exact absent
  present other member := by
    rw [mem_singleton.mp member,get_insert,if_pos rfl]
    rfl

theorem resolve_ok (ran : attempt.resolve codec = .ok (manifest,digest,kappa)) :
    ∃ body,attempt.fetch.manifest attempt.reference.repository attempt.reference.tag = .ok (some (body,digest)) ∧
      decode codec body = .ok manifest := by
  unfold PullAttempt.resolve at ran
  obtain ⟨found,asked,ran⟩ := bind_ok ran
  cases found with
  | none => cases ran
  | some answer =>
    obtain ⟨manifest',decoded,ran⟩ := bind_ok ran
    obtain ⟨archive,_,ran⟩ := bind_ok ran
    cases ran
    exact ⟨answer.1,asked,decoded⟩

end Proofs
end HologramLive
