import HologramLive.Oci.Store
namespace HologramLive
namespace Content
open Tables

structure BlobStat where
  size : Nat
  storedAs : Digest
deriving DecidableEq, Repr

def notHere (repo : RepoName) (digest : Digest) : OciStoreError := .notInRepository repo.text digest.asStr

-- The link check comes first. A blob linked under one of its names is also
-- reachable by the other.
def requireLink (c : Content) (repo : RepoName) (digest : Digest) : Except OciStoreError Unit :=
  match c.linkGet repo digest with
  | some _ => .ok ()
  | none => match c.aliasOf digest with
    | none => .error (notHere repo digest)
    | some other => match c.linkGet repo other with
      | some _ => .ok ()
      | none => .error (notHere repo digest)

-- The digest the store holds the bytes under: the requested one, or its alias.
def resolveStored (c : Content) (repo : RepoName) (digest : Digest) : Except OciStoreError Digest :=
  let lost : OciStoreError := .io (digest.asStr ++ " is linked in ".toList ++ repo.text ++
    " but the store does not hold it".toList)
  match c.blobs[digest]? with
  | some _ => .ok digest
  | none => match c.aliasOf digest with
    | none => .error lost
    | some other => match c.blobs[other]? with
      | some _ => .ok other
      | none => .error lost

def notFound (digest : Digest) : Str := "not found: ".toList ++ digest.asStr

def blobStat (c : Content) (repo : RepoName) (digest : Digest) : Except OciStoreError BlobStat :=
  match c.requireLink repo digest with
  | .error e => .error e
  | .ok _ => match c.resolveStored repo digest with
    | .error e => .error e
    | .ok storedAs => match c.blobs[storedAs]? with
      | none => .error (.io ("size of ".toList ++ storedAs.asStr ++ ": ".toList ++ notFound storedAs))
      | some bytes => .ok ⟨bytes.length,storedAs⟩

def blobOpen (c : Content) (repo : RepoName) (digest : Digest) : Except OciStoreError (BlobStat × Bytes) :=
  match c.blobStat repo digest with
  | .error e => .error e
  | .ok stat => match c.blobs[stat.storedAs]? with
    | none => .error (.io ("open ".toList ++ stat.storedAs.asStr ++ ": ".toList ++ notFound stat.storedAs))
    | some bytes => .ok (stat,bytes)

def mount (c : Content) (target source : RepoName) (asked : Digest) : Except OciStoreError Bool × Content :=
  match c.blobStat source asked with
  | .ok stat => (.ok true,c.linkAdd target stat.storedAs .blob none)
  | .error (.notInRepository _ _) => (.ok false,c)
  | .error (.unknownRepository _) => (.ok false,c)
  | .error e => (.error e,c)

-- The blob `DELETE` route. Asked by either name, the link is under the name the
-- bytes are stored by. The kind of the link is not looked at.
def deleteBlob (c : Content) (repo : RepoName) (digest : Digest) : Except OciStoreError Unit × Content :=
  match c.blobStat repo digest with
  | .error e => (.error e,c)
  | .ok stat =>
    let after := (c.linkRemove repo stat.storedAs).2
    if stat.storedAs ≠ digest then (.ok (),(after.linkRemove repo digest).2) else (.ok (),after)

def Linked (c : Content) (repo : RepoName) (digest : Digest) : Prop := (c.linkGet repo digest).isSome
instance (c : Content) (repo : RepoName) (digest : Digest) : Decidable (c.Linked repo digest) :=
  inferInstanceAs (Decidable (_ = true))
def LinkedUnder (c : Content) (repo : RepoName) (digest : Digest) : Prop :=
  c.Linked repo digest ∨ ∃ other,c.aliasOf digest = some other ∧ c.Linked repo other

variable {c : Content} {repo : RepoName} {digest : Digest}

theorem requireLink_ok : c.requireLink repo digest = .ok () ↔ c.LinkedUnder repo digest := by
  unfold requireLink LinkedUnder Linked
  cases direct : c.linkGet repo digest with
  | some link => simp
  | none =>
    cases named : c.aliasOf digest with
    | none => simp
    | some other => cases reached : c.linkGet repo other with
      | none => simp [reached]
      | some link => simp [reached]

theorem requireLink_error
    (refused : c.requireLink repo digest = .error e) : e = notHere repo digest ∧ ¬c.LinkedUnder repo digest := by
  have absent : ¬c.LinkedUnder repo digest := fun linked => by
    rw [requireLink_ok.mpr linked] at refused
    cases refused
  refine ⟨?_,absent⟩
  unfold requireLink at refused
  split at refused
  · cases refused
  · split at refused
    · exact (Except.error.inj refused).symm
    · split at refused
      · cases refused
      · exact (Except.error.inj refused).symm

-- Where the store finds bytes for a name: its own file, or its alias's when it
-- has none.
inductive StoredUnder (c : Content) (digest : Digest) : Digest → Bytes → Prop
  | own (held : c.blobs[digest]? = some bytes) : StoredUnder c digest digest bytes
  | other (none : c.blobs[digest]? = none) (named : c.aliasOf digest = some other)
      (held : c.blobs[other]? = some bytes) : StoredUnder c digest other bytes

theorem StoredUnder.held (found : StoredUnder c digest storedAs bytes) : c.blobs[storedAs]? = some bytes := by
  cases found <;> assumption

theorem StoredUnder.unique (left : StoredUnder c digest a x) (right : StoredUnder c digest b y) : a = b ∧ x = y := by
  cases left with
  | own held => cases right with
    | own held' => exact ⟨rfl,Option.some.inj (held.symm.trans held')⟩
    | other none => rw [none] at held; cases held
  | other none named held => cases right with
    | own held' => rw [none] at held'; cases held'
    | other none' named' held' =>
      obtain rfl := Option.some.inj (named.symm.trans named')
      exact ⟨rfl,Option.some.inj (held.symm.trans held')⟩

theorem resolveStored_ok :
    c.resolveStored repo digest = .ok storedAs ↔ ∃ bytes,StoredUnder c digest storedAs bytes := by
  unfold resolveStored
  cases own : c.blobs[digest]? with
  | some bytes =>
    constructor
    · intro resolved
      cases resolved
      exact ⟨bytes,.own own⟩
    · rintro ⟨bytes',found⟩
      rw [(found.unique (.own own)).1]
  | none =>
    cases named : c.aliasOf digest with
    | none =>
      refine ⟨fun resolved => by simp at resolved,?_⟩
      rintro ⟨bytes,found⟩
      cases found with
      | own held => rw [own] at held; cases held
      | other _ named' => rw [named] at named'; cases named'
    | some other => cases held : c.blobs[other]? with
      | none =>
        refine ⟨fun resolved => by simp [held] at resolved,?_⟩
        rintro ⟨bytes,found⟩
        cases found with
        | own held' => rw [own] at held'; cases held'
        | other _ named' held' =>
          obtain rfl := Option.some.inj (named.symm.trans named')
          rw [held] at held'; cases held'
      | some bytes =>
        simp only [held]
        constructor
        · intro resolved; cases resolved
          exact ⟨bytes,.other own named held⟩
        · rintro ⟨bytes',found⟩
          rw [(found.unique (.other own named held)).1]

theorem resolveStored_blob (resolved : c.resolveStored repo digest = .ok storedAs) :
    ∃ bytes,c.blobs[storedAs]? = some bytes :=
  let ⟨bytes,found⟩ := resolveStored_ok.mp resolved
  ⟨bytes,found.held⟩

theorem blobStat_ok : c.blobStat repo digest = .ok stat ↔
      c.LinkedUnder repo digest ∧ ∃ bytes,StoredUnder c digest stat.storedAs bytes ∧ stat.size = bytes.length := by
  unfold blobStat
  cases linked : c.requireLink repo digest with
  | error e => simp [(requireLink_error linked).2]
  | ok _ =>
    have under := requireLink_ok.mp linked
    cases resolved : c.resolveStored repo digest with
    | error e =>
      refine ⟨fun bad => by simp at bad,?_⟩
      rintro ⟨-,bytes,found,-⟩
      rw [resolveStored_ok.mpr ⟨bytes,found⟩] at resolved
      cases resolved
    | ok storedAs =>
      obtain ⟨bytes,found⟩ := resolveStored_ok.mp resolved
      simp only [found.held,Except.ok.injEq,under,true_and]
      constructor
      · rintro rfl
        exact ⟨bytes,found,rfl⟩
      · rintro ⟨bytes',found',size⟩
        obtain ⟨rfl,rfl⟩ := found.unique found'
        cases stat
        simp_all

theorem blobOpen_ok : c.blobOpen repo digest = .ok (stat,bytes) ↔
      c.LinkedUnder repo digest ∧ StoredUnder c digest stat.storedAs bytes ∧ stat.size = bytes.length := by
  unfold blobOpen
  cases known : c.blobStat repo digest with
  | error e =>
    refine ⟨fun bad => by simp at bad,?_⟩
    rintro ⟨linked,found,size⟩
    rw [blobStat_ok.mpr ⟨linked,bytes,found,size⟩] at known
    cases known
  | ok stat' =>
    obtain ⟨linked,bytes',found,size⟩ := blobStat_ok.mp known
    simp only [found.held,Except.ok.injEq,Prod.mk.injEq]
    constructor
    · rintro ⟨rfl,rfl⟩
      exact ⟨linked,found,size⟩
    · rintro ⟨-,found',size'⟩
      obtain ⟨same,rfl⟩ := found.unique found'
      cases stat
      cases stat'
      simp_all

def Reads (c : Content) (repo : RepoName) (digest : Digest) (bytes : Bytes) : Prop :=
  ∃ stat,c.blobOpen repo digest = .ok (stat,bytes)

theorem reads_iff :
    c.Reads repo digest bytes ↔ c.LinkedUnder repo digest ∧ ∃ storedAs,StoredUnder c digest storedAs bytes := by
  constructor
  · rintro ⟨stat,opened⟩
    obtain ⟨linked,found,-⟩ := blobOpen_ok.mp opened
    exact ⟨linked,stat.storedAs,found⟩
  · rintro ⟨linked,storedAs,found⟩
    exact ⟨⟨bytes.length,storedAs⟩,blobOpen_ok.mpr ⟨linked,found,rfl⟩⟩

end Content
end HologramLive
