import HologramLive.Lib.Fallible
import HologramLive.Holo.Types
import HologramLive.Lib.Runs
import HologramLive.Lib.Wire
namespace HologramLive.Tls
open Runs

abbrev File := Except Str Bytes

structure CertifiedKey where
  chain : List Bytes
  key : Bytes
deriving DecidableEq, Repr

-- The PEM readers, the check of `CertifiedKey::from_der`, and the hash.
structure Crates where
  certificates : Bytes → Except Str (List Bytes)
  privateKey : Bytes → Except Str Bytes
  fromDer : List Bytes → Bytes → Except Str Unit
  blake3 : Bytes → Bytes

structure Settings where
  certificate : Str
  key : Str

variable (crates : Crates) (settings : Settings)

def bad (path what : Str) : LiveError := .config ("http.tls: ".toList ++ path ++ ": ".toList ++ what)

def readChain (certificate : File) : Except LiveError (List Bytes) := do
  let bytes ← certificate.mapError (bad settings.certificate)
  let chain ← (crates.certificates bytes).mapError (bad settings.certificate)
  if chain = [] then .error (bad settings.certificate "holds no certificate".toList) else .ok chain

def certify (chain : List Bytes) (key : File) : Except LiveError CertifiedKey := do
  let bytes ← key.mapError (bad settings.key)
  let key ← (crates.privateKey bytes).mapError (bad settings.key)
  let _ ← (crates.fromDer chain key).mapError (bad settings.key)
  return ⟨chain,key⟩

def pairOf (certificate key : File) : Except LiveError CertifiedKey := do
  let chain ← readChain crates settings certificate
  certify crates settings chain key

def fed : File → Bytes
  | .ok bytes => (Wire.toBe 8 bytes.length).reverse ++ bytes
  | .error error => toUtf8 error

def fingerprint (certificate key : File) : Bytes := crates.blake3 (fed certificate ++ fed key)

-- Each phase is before one read of a file, or before the pair is put in place.
inductive Phase where
  | startCertificate
  | startKey (certificate : File) (chain : List Bytes)
  | acceptor (certified : CertifiedKey)
  | refused (error : LiveError)
  | firstCertificate
  | firstKey (certificate : File)
  | waiting (seen : Bytes)
  | printCertificate (seen : Bytes)
  | printKey (seen : Bytes) (certificate : File)
  | loadCertificate (seen : Bytes)
  | loadKey (seen : Bytes) (certificate : File) (chain : List Bytes)
  | swap (seen : Bytes) (certified : CertifiedKey)
  | stopped

-- `tried` is what the last load read, the key file only when it got there;
-- `ticks` counts the watcher's ticks since a file was replaced.
structure State where
  certificate : File
  key : File
  phase : Phase
  served : Option CertifiedKey
  failures : Nat
  tried : Option (File × Option File)
  ticks : Nat

inductive Action where
  | replaceCertificate (file : File)
  | replaceKey (file : File)
  | step
  | abort

variable (s : State)

def step : Option State :=
  match s.phase with
  | .startCertificate =>
    match readChain crates settings s.certificate with
    | .error error => some {s with phase := .refused error,tried := some (s.certificate,none)}
    | .ok chain => some {s with phase := .startKey s.certificate chain}
  | .startKey certificate chain =>
    let tried := some (certificate,some s.key)
    match certify crates settings chain s.key with
    | .error error => some {s with phase := .refused error,tried := tried}
    | .ok certified => some {s with phase := .acceptor certified,tried := tried}
  | .acceptor certified => some {s with phase := .firstCertificate,served := some certified}
  | .refused _ => none
  | .firstCertificate => some {s with phase := .firstKey s.certificate}
  | .firstKey certificate => some {s with phase := .waiting (fingerprint crates certificate s.key)}
  | .waiting seen => some {s with phase := .printCertificate seen,ticks := s.ticks+1}
  | .printCertificate seen => some {s with phase := .printKey seen s.certificate}
  | .printKey seen certificate =>
    let now := fingerprint crates certificate s.key
    if now = seen then some {s with phase := .waiting seen} else some {s with phase := .loadCertificate now}
  | .loadCertificate seen =>
    match readChain crates settings s.certificate with
    | .error _ => some {s with phase := .waiting seen,failures := s.failures+1,tried := some (s.certificate,none)}
    | .ok chain => some {s with phase := .loadKey seen s.certificate chain}
  | .loadKey seen certificate chain =>
    let tried := some (certificate,some s.key)
    match certify crates settings chain s.key with
    | .error _ => some {s with phase := .waiting seen,failures := s.failures+1,tried := tried}
    | .ok certified => some {s with phase := .swap seen certified,tried := tried}
  | .swap seen certified => some {s with phase := .waiting seen,served := some certified}
  | .stopped => none

def act : Action → Option State
  | .replaceCertificate file => some {s with certificate := file,ticks := 0}
  | .replaceKey file => some {s with key := file,ticks := 0}
  | .step => step crates settings s
  | .abort =>
    match s.phase with
    | .startCertificate | .startKey .. | .acceptor _ | .refused _ | .stopped => none
    | _ => some {s with phase := .stopped}

def Start : Prop := s.phase = .startCertificate ∧ s.served = none ∧ s.tried = none ∧ s.ticks = 0

def TriedOn (certificate key : File) : Prop :=
  ∃ tried,s.tried = some (certificate,tried) ∧ (tried = none ∨ tried = some key)

-- A fingerprint that is found unchanged stands for the contents that were
-- loaded last.
def fine : Action → Prop
  | .step => ∀ seen certificate,s.phase = .printKey seen certificate → fingerprint crates certificate s.key = seen →
      TriedOn s certificate s.key
  | _ => True

end HologramLive.Tls

namespace HologramLive.Tls
open Runs Fallible

variable {crates : Crates} {settings : Settings} {s t : State}

structure Loaded (crates : Crates) (settings : Settings) (s : State) : Prop where
  served : ∀ certified,s.served = some certified → ∃ certificate key,pairOf crates settings certificate key = .ok certified
  chain : ∀ certificate chain,(s.phase = .startKey certificate chain ∨ ∃ seen,s.phase = .loadKey seen certificate chain) →
    readChain crates settings certificate = .ok chain
  next : ∀ certified,(s.phase = .acceptor certified ∨ ∃ seen,s.phase = .swap seen certified) →
    ∃ certificate key,s.tried = some (certificate,some key) ∧ pairOf crates settings certificate key = .ok certified

variable {certificate key : File} {certified : CertifiedKey}

theorem pairOf_ok
    (read : readChain crates settings certificate = .ok chain) (certifies : certify crates settings chain key = .ok certified) :
    pairOf crates settings certificate key = .ok certified := by
  unfold pairOf
  rw [ok_bind read]
  exact certifies

theorem pairOf_chain (pair : pairOf crates settings certificate key = .ok certified) :
    ∃ chain,readChain crates settings certificate = .ok chain ∧ certify crates settings chain key = .ok certified :=
  bind_ok pair

theorem certify_error
    (read : readChain crates settings certificate = .ok chain) (refuses : certify crates settings chain key = .error error)
    (certified : CertifiedKey) : pairOf crates settings certificate key ≠ .ok certified := by
  intro pair
  obtain ⟨other,again,certifies⟩ := pairOf_chain pair
  rw [read] at again
  cases again
  rw [refuses] at certifies
  cases certifies

theorem step_loaded (loaded : Loaded crates settings s) (ran : step crates settings s = some t) :
    Loaded crates settings t := by
  obtain ⟨served,chain,next⟩ := loaded
  unfold step at ran
  cases phase : s.phase with
  | startCertificate =>
    simp only [phase] at ran
    cases read : readChain crates settings s.certificate with
    | error error =>
      simp only [read] at ran
      cases ran
      exact ⟨served,by simp,by simp⟩
    | ok chain =>
      simp only [read] at ran
      cases ran
      refine ⟨served,?_,by simp⟩
      intro certificate other at_phase
      simp only [Phase.startKey.injEq,reduceCtorEq,exists_false,or_false] at at_phase
      rw [←at_phase.1,←at_phase.2]
      exact read
  | startKey certificate given =>
    simp only [phase] at ran
    have read := chain certificate given (.inl phase)
    cases certifies : certify crates settings given s.key with
    | error error =>
      simp only [certifies] at ran
      cases ran
      exact ⟨served,by simp,by simp⟩
    | ok certified =>
      simp only [certifies] at ran
      cases ran
      refine ⟨served,by simp,?_⟩
      intro other at_phase
      simp only [Phase.acceptor.injEq,reduceCtorEq,exists_false,or_false] at at_phase
      rw [←at_phase]
      exact ⟨certificate,s.key,rfl,pairOf_ok read certifies⟩
  | acceptor certified =>
    simp only [phase] at ran
    cases ran
    obtain ⟨certificate,key,_,pair⟩ := next certified (.inl phase)
    refine ⟨?_,by simp,by simp⟩
    intro other now
    cases now
    exact ⟨certificate,key,pair⟩
  | refused error =>
    simp only [phase] at ran
    cases ran
  | firstCertificate | firstKey certificate | waiting seen | printCertificate seen =>
    simp only [phase] at ran
    cases ran
    exact ⟨served,by simp,by simp⟩
  | printKey seen certificate =>
    simp only [phase] at ran
    split at ran <;>
    · cases ran
      exact ⟨served,by simp,by simp⟩
  | loadCertificate seen =>
    simp only [phase] at ran
    cases read : readChain crates settings s.certificate with
    | error error =>
      simp only [read] at ran
      cases ran
      exact ⟨served,by simp,by simp⟩
    | ok chain =>
      simp only [read] at ran
      cases ran
      refine ⟨served,?_,by simp⟩
      intro certificate other at_phase
      simp only [Phase.loadKey.injEq,reduceCtorEq,false_or] at at_phase
      obtain ⟨_,_,same,chains⟩ := at_phase
      rw [←same,←chains]
      exact read
  | loadKey seen certificate given =>
    simp only [phase] at ran
    have read := chain certificate given (.inr ⟨seen,phase⟩)
    cases certifies : certify crates settings given s.key with
    | error error =>
      simp only [certifies] at ran
      cases ran
      exact ⟨served,by simp,by simp⟩
    | ok certified =>
      simp only [certifies] at ran
      cases ran
      refine ⟨served,by simp,?_⟩
      intro other at_phase
      simp only [Phase.swap.injEq,reduceCtorEq,false_or] at at_phase
      obtain ⟨_,_,same⟩ := at_phase
      rw [←same]
      exact ⟨certificate,s.key,rfl,pairOf_ok read certifies⟩
  | swap seen certified =>
    simp only [phase] at ran
    cases ran
    obtain ⟨certificate,key,_,pair⟩ := next certified (.inr ⟨seen,phase⟩)
    refine ⟨?_,by simp,by simp⟩
    intro other now
    cases now
    exact ⟨certificate,key,pair⟩
  | stopped =>
    simp only [phase] at ran
    cases ran

theorem act_loaded (loaded : Loaded crates settings s) (ran : act crates settings s action = some t) :
    Loaded crates settings t := by
  cases action with
  | replaceCertificate file | replaceKey file =>
    cases ran
    exact ⟨loaded.served,loaded.chain,loaded.next⟩
  | step => exact step_loaded loaded ran
  | abort =>
    simp only [act] at ran
    split at ran
    iterate 5 · cases ran
    cases ran
    exact ⟨loaded.served,by simp,by simp⟩

-- The last load, where it ended, is what is served; one that failed leaves
-- nothing to serve.
def Settled (crates : Crates) (settings : Settings) (s : State) : Prop :=
  ∀ certificate tried,s.tried = some (certificate,tried) → match tried with
    | none => ∀ chain,readChain crates settings certificate ≠ .ok chain
    | some key => ∀ certified,pairOf crates settings certificate key = .ok certified → s.served = some certified

def OnDisk (crates : Crates) (settings : Settings) (s : State) : Prop :=
  ∀ certified,pairOf crates settings s.certificate s.key = .ok certified → s.served = some certified

-- The fingerprint is the one of the files as they are, and these were tried.
def Seen (crates : Crates) (s : State) (seen : Bytes) : Prop :=
  seen = fingerprint crates s.certificate s.key ∧ TriedOn s s.certificate s.key

def Watched (crates : Crates) (settings : Settings) (s : State) : Prop :=
  match s.phase with
  | .startCertificate | .startKey .. | .acceptor _ | .refused _ => s.ticks = 0
  | .firstCertificate | .firstKey _ => Settled crates settings s ∧ s.ticks = 0
  | .waiting seen => Settled crates settings s ∧ (1 ≤ s.ticks → Seen crates s seen)
  | .printCertificate seen => Settled crates settings s ∧ (2 ≤ s.ticks → Seen crates s seen)
  | .printKey seen certificate => Settled crates settings s ∧ (1 ≤ s.ticks → certificate = s.certificate) ∧
      (2 ≤ s.ticks → Seen crates s seen)
  | .loadCertificate seen => s.ticks ≤ 1 ∧ (1 ≤ s.ticks → seen = fingerprint crates s.certificate s.key)
  | .loadKey seen certificate _ => s.ticks ≤ 1 ∧ (1 ≤ s.ticks → certificate = s.certificate ∧
      seen = fingerprint crates s.certificate s.key)
  | .swap seen _ => s.ticks ≤ 1 ∧ (1 ≤ s.ticks → Seen crates s seen)
  | .stopped => 2 ≤ s.ticks → OnDisk crates settings s

theorem settled_served (settled : Settled crates settings s) (tried : TriedOn s s.certificate s.key) :
    OnDisk crates settings s := by
  intro certified pair
  obtain ⟨key,last,reads⟩ := tried
  have ended := settled s.certificate key last
  rcases reads with rfl | rfl
  · obtain ⟨chain,read,_⟩ := pairOf_chain pair
    exact absurd read (ended chain)
  · exact ended certified pair

theorem watched_served (watched : Watched crates settings s) (quiet : 2 ≤ s.ticks) : OnDisk crates settings s := by
  unfold Watched at watched
  split at watched
  iterate 4 · omega
  iterate 2 · omega
  · exact settled_served watched.1 (watched.2 (by omega)).2
  · exact settled_served watched.1 (watched.2 quiet).2
  · exact settled_served watched.1 (watched.2.2 quiet).2
  iterate 3 · omega
  · exact watched quiet

theorem step_watched (loaded : Loaded crates settings s) (watched : Watched crates settings s)
    (allowed : ∀ seen certificate,s.phase = .printKey seen certificate → fingerprint crates certificate s.key = seen →
      TriedOn s certificate s.key) (ran : step crates settings s = some t) : Watched crates settings t := by
  unfold step at ran
  unfold Watched at watched
  cases phase : s.phase with
  | startCertificate =>
    simp only [phase] at ran watched
    cases read : readChain crates settings s.certificate with
    | error error =>
      simp only [read] at ran
      cases ran
      exact watched
    | ok chain =>
      simp only [read] at ran
      cases ran
      exact watched
  | startKey certificate given =>
    simp only [phase] at ran watched
    cases certifies : certify crates settings given s.key with
    | error error =>
      simp only [certifies] at ran
      cases ran
      exact watched
    | ok certified =>
      simp only [certifies] at ran
      cases ran
      exact watched
  | acceptor certified =>
    simp only [phase] at ran watched
    cases ran
    obtain ⟨certificate,key,tried,pair⟩ := loaded.next certified (.inl phase)
    refine ⟨?_,watched⟩
    intro other last now
    rw [tried] at now
    cases now
    intro again pairs
    rw [pair] at pairs
    cases pairs
    rfl
  | refused error =>
    simp only [phase] at ran
    cases ran
  | firstCertificate =>
    simp only [phase] at ran watched
    cases ran
    exact watched
  | firstKey certificate =>
    simp only [phase] at ran watched
    cases ran
    refine ⟨watched.1,?_⟩
    intro quiet
    have none_yet := watched.2
    dsimp only at quiet
    omega
  | waiting seen =>
    simp only [phase] at ran watched
    cases ran
    refine ⟨watched.1,?_⟩
    intro quiet
    exact watched.2 (by dsimp only at quiet; omega)
  | printCertificate seen =>
    simp only [phase] at ran watched
    cases ran
    exact ⟨watched.1,fun _ => rfl,watched.2⟩
  | printKey seen certificate =>
    simp only [phase] at ran watched
    obtain ⟨settled,reads,sees⟩ := watched
    split at ran
    · rename_i same
      cases ran
      refine ⟨settled,?_⟩
      intro quiet
      have tried := allowed seen certificate phase same
      have read := reads quiet
      rw [read] at tried same
      exact ⟨same.symm,tried⟩
    · rename_i changed
      cases ran
      refine ⟨?_,?_⟩
      · -- A second tick on the same files finds what the first one remembered.
        apply Classical.byContradiction
        intro more
        have quiet : 2 ≤ s.ticks := by dsimp only at more; omega
        rw [reads (by omega)] at changed
        exact changed (sees quiet).1.symm
      · intro quiet
        dsimp only
        rw [reads quiet]
  | loadCertificate seen =>
    simp only [phase] at ran watched
    cases read : readChain crates settings s.certificate with
    | error error =>
      simp only [read] at ran
      cases ran
      refine ⟨?_,?_⟩
      · intro certificate tried now
        cases now
        intro chain reads
        rw [read] at reads
        cases reads
      · intro quiet
        exact ⟨watched.2 quiet,none,rfl,.inl rfl⟩
    | ok chain =>
      simp only [read] at ran
      cases ran
      exact ⟨watched.1,fun quiet => ⟨rfl,watched.2 quiet⟩⟩
  | loadKey seen certificate given =>
    simp only [phase] at ran watched
    have read := loaded.chain certificate given (.inr ⟨seen,phase⟩)
    cases certifies : certify crates settings given s.key with
    | error error =>
      simp only [certifies] at ran
      cases ran
      refine ⟨?_,?_⟩
      · intro other tried now
        cases now
        intro certified pair
        exact absurd pair (certify_error read certifies certified)
      · intro quiet
        obtain ⟨same,seen⟩ := watched.2 quiet
        refine ⟨seen,some s.key,?_,.inr rfl⟩
        dsimp only
        rw [same]
    | ok certified =>
      simp only [certifies] at ran
      cases ran
      refine ⟨watched.1,?_⟩
      intro quiet
      obtain ⟨same,seen⟩ := watched.2 quiet
      refine ⟨seen,some s.key,?_,.inr rfl⟩
      dsimp only
      rw [same]
  | swap seen certified =>
    simp only [phase] at ran watched
    cases ran
    obtain ⟨certificate,key,tried,pair⟩ := loaded.next certified (.inr ⟨seen,phase⟩)
    refine ⟨?_,watched.2⟩
    intro other last now
    dsimp only at now
    rw [tried] at now
    cases now
    intro again pairs
    rw [pair] at pairs
    cases pairs
    rfl
  | stopped =>
    simp only [phase] at ran
    cases ran

theorem replaced_watched (watched : Watched crates settings s) (disk : File × File) :
    Watched crates settings {s with certificate := disk.1,key := disk.2,ticks := 0} := by
  unfold Watched at watched ⊢
  cases phase : s.phase with
  | startCertificate | startKey | acceptor | refused => rfl
  | firstCertificate | firstKey =>
    simp only [phase] at watched
    exact ⟨watched.1,rfl⟩
  | waiting | printCertificate =>
    simp only [phase] at watched
    exact ⟨watched.1,fun quiet => nomatch quiet⟩
  | printKey =>
    simp only [phase] at watched
    refine ⟨watched.1,?_,?_⟩ <;>
    · intro quiet
      cases quiet
  | loadCertificate | loadKey | swap => exact ⟨Nat.zero_le 1,fun quiet => nomatch quiet⟩
  | stopped => exact fun quiet => nomatch quiet

theorem act_watched (loaded : Loaded crates settings s) (watched : Watched crates settings s)
    (allowed : fine crates s action) (ran : act crates settings s action = some t) : Watched crates settings t := by
  cases action with
  | replaceCertificate file =>
    cases ran
    exact replaced_watched watched (file,s.key)
  | replaceKey file =>
    cases ran
    exact replaced_watched watched (s.certificate,file)
  | step => exact step_watched loaded watched allowed ran
  | abort =>
    have served := watched_served watched
    simp only [act] at ran
    split at ran
    iterate 5 · cases ran
    cases ran
    exact served

theorem start_watched (start : Start s) : Loaded crates settings s ∧ Watched crates settings s := by
  obtain ⟨phase,served,tried,ticks⟩ := start
  refine ⟨⟨?_,?_,?_⟩,?_⟩
  · intro certified now
    rw [served] at now
    cases now
  · simp [phase]
  · simp [phase]
  · unfold Watched
    rw [phase]
    exact ticks

theorem reached_watched (reached : Reached Start (Taken (act crates settings) (fine crates)) s) :
    Loaded crates settings s ∧ Watched crates settings s := by
  refine reached.invariant (fun s => Loaded crates settings s ∧ Watched crates settings s) (fun _ => start_watched) ?_
  intro s t _ kept taken
  obtain ⟨action,allowed,ran⟩ := taken
  exact ⟨act_loaded kept.1 ran,act_watched kept.1 kept.2 allowed ran⟩

theorem pairOf_checked {belongs : List Bytes → Bytes → Prop}
    (checked : ∀ chain key,crates.fromDer chain key = .ok () → belongs chain key)
    (pair : pairOf crates settings certificate key = .ok certified) : belongs certified.chain certified.key := by
  obtain ⟨chain,_,certifies⟩ := pairOf_chain pair
  unfold certify at certifies
  obtain ⟨bytes,_,certifies⟩ := bind_ok certifies
  obtain ⟨key,_,certifies⟩ := bind_ok certifies
  obtain ⟨_,accepted,certifies⟩ := bind_ok certifies
  cases certifies
  exact checked chain key (mapError_ok accepted)

theorem renewals_served {belongs : List Bytes → Bytes → Prop}
    (checked : ∀ chain key,crates.fromDer chain key = .ok () → belongs chain key)
    (reached : Reached Start (Taken (act crates settings) (fine crates)) s) :
    (2 ≤ s.ticks → ∀ certified,pairOf crates settings s.certificate s.key = .ok certified → s.served = some certified) ∧
    ∀ certified,s.served = some certified → belongs certified.chain certified.key ∧
      ∃ certificate key,pairOf crates settings certificate key = .ok certified := by
  obtain ⟨loaded,watched⟩ := reached_watched reached
  refine ⟨watched_served watched,?_⟩
  intro certified now
  obtain ⟨certificate,key,pair⟩ := loaded.served certified now
  exact ⟨pairOf_checked checked pair,certificate,key,pair⟩

instance (s : State) (certificate key : File) : Decidable (TriedOn s certificate key) :=
  decidable_of_iff (s.tried = some (certificate,none) ∨ s.tried = some (certificate,some key)) ⟨
    fun either => either.elim (fun tried => ⟨none,tried,.inl rfl⟩) fun tried => ⟨some key,tried,.inr rfl⟩,
    fun found => by
      obtain ⟨last,tried,rfl | rfl⟩ := found
      · exact .inl tried
      · exact .inr tried⟩

instance (crates : Crates) : ∀ s action,Decidable (fine crates s action)
  | s,.step =>
    match phase : s.phase with
    | .printKey seen certificate =>
      decidable_of_iff (fingerprint crates certificate s.key = seen → TriedOn s certificate s.key) ⟨
        fun kept other read now => by
          rw [phase] at now; cases now
          exact kept,
        fun all => all seen certificate phase⟩
    | .startCertificate | .startKey .. | .acceptor _ | .refused _ | .firstCertificate | .firstKey _ | .waiting _
    | .printCertificate _ | .loadCertificate _ | .loadKey .. | .swap .. | .stopped =>
      .isTrue fun other read now => by
        rw [phase] at now
        cases now
  | _,.replaceCertificate _ | _,.replaceKey _ | _,.abort => .isTrue trivial

def everything : State → Action → Prop := fun _ _ => True
instance : ∀ s action,Decidable (everything s action) := fun _ _ => .isTrue trivial

def twins : Crates where
  certificates bytes := .ok [bytes]
  privateKey bytes := .ok bytes
  fromDer chain key := if chain = [key] then .ok () else .error "keys may not be consistent: KeyMismatch".toList
  blake3 bytes := bytes

def files : Settings := ⟨"server.crt".toList,"server.key".toList⟩

def begun : State := ⟨.ok [1],.ok [1],.startCertificate,none,0,none,0⟩

theorem begun_starts : Start begun := ⟨rfl,rfl,rfl,rfl⟩

def renewal : List Action :=
  [.step,.step,.step,.step,.step,.replaceCertificate (.ok [2]),.step,.step,.step,.step,.step,.replaceKey (.ok [2]),
    .step,.step,.step,.step,.step,.step,.step]

theorem renewal_served : ∃ s : State,s.ticks = 2 ∧ s.served = some ⟨[[2]],[2]⟩ := by
  have shown : (play (act twins files) (fine twins) begun renewal).any (fun s => decide
      (s.ticks = 2 ∧ s.certificate = .ok [2] ∧ s.key = .ok [2])) = true := by
    decide
  obtain ⟨s,reached,seen⟩ := play_shows begun_starts shown
  obtain ⟨quiet,certificate,key⟩ := of_decide_eq_true seen
  have checked : ∀ chain key,twins.fromDer chain key = .ok () → chain = [key] := by
    intro chain key accepted
    simp only [twins] at accepted
    split at accepted
    · assumption
    · cases accepted
  have served := (renewals_served checked reached).1 (Nat.le_of_eq quiet.symm)
  refine ⟨s,quiet,served _ ?_⟩
  rw [certificate,key]
  decide

def early : List Action :=
  [.step,.step,.step,.replaceCertificate (.ok [2]),.replaceKey (.ok [2]),.step,.step,.step,.step,.step,.step,.step,.step]

theorem renewal_missed : ∃ s,Reached Start (Taken (act twins files) everything) s ∧ 2 ≤ s.ticks ∧
    pairOf twins files s.certificate s.key = .ok ⟨[[2]],[2]⟩ ∧ s.served = some ⟨[[1]],[1]⟩ := by
  have shown : (play (act twins files) everything begun early).any (fun s => decide
      (2 ≤ s.ticks ∧ pairOf twins files s.certificate s.key = .ok ⟨[[2]],[2]⟩ ∧ s.served = some ⟨[[1]],[1]⟩)) = true := by
    decide
  obtain ⟨s,reached,seen⟩ := play_shows begun_starts shown
  exact ⟨s,reached,of_decide_eq_true seen⟩

end HologramLive.Tls
