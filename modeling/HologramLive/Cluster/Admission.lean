import HologramLive.Cluster.Proof
namespace HologramLive.Cluster
open Tables Std List

def ticketContext : Str := "dev.hologram.live.cluster-ticket.v1".toList

inductive Decision where
  | admitted
  | denied (reason : Str)
deriving DecidableEq, Repr

-- A ticket proves the bearer holds the cluster token for this identity.
def ticket (crates : ClusterCrates) (token nodeId : Str) : Str :=
  hex (crates.keyedHash (crates.deriveKey ticketContext (toUtf8 token)) (toUtf8 nodeId))

def constantTimeEq (left right : Bytes) : Bool :=
  if left.length ≠ right.length then false
  else decide ((left.zip right).foldl (fun difference pair => difference ||| (pair.1 ^^^ pair.2)) 0 = 0)

def collect (ids : List Str) : KeySet Str := ids.foldl (fun set id => set.insert id) ∅

structure AllowlistAdmission where
  trusted : KeySet Str

def AllowlistAdmission.new (trusted : List Str) : AllowlistAdmission := ⟨collect trusted⟩

def AllowlistAdmission.authorize (admission : AllowlistAdmission) (nodeId : Str) : Decision :=
  if nodeId ∈ admission.trusted then .admitted else .denied "node is not in cluster.trusted_keys".toList

-- The policy and its pin file. `configured` is rebuilt at every start and is
-- never written; `poisoned` is the state of the lock around `pinned`.
structure TokenAdmission where
  token : Str
  configured : KeySet Str
  pinned : KeySet Str
  poisoned : Bool
  pinFile : Option (KeySet Str)

namespace TokenAdmission

def new (token : Str) (pinFile : Option (KeySet Str)) (trusted : List Str) : TokenAdmission :=
  ⟨token,collect trusted,pinFile.getD ∅,false,pinFile⟩

-- `written` is whether the pin file can be written during the call. A failed
-- write is logged, and the pin stays in memory.
def authorize (crates : ClusterCrates) (written : Bool) (admission : TokenAdmission) (nodeId : Str) (presented : Option Str) :
    Decision × TokenAdmission :=
  if nodeId ∈ admission.configured then (.admitted,admission)
  else if admission.poisoned then (.denied "admission state is poisoned".toList,admission)
  else if nodeId ∈ admission.pinned then (.admitted,admission)
  else match parseNodeId crates nodeId with
    | .error _ => (.denied "node id is not a valid public key".toList,admission)
    | .ok _ => match presented with
      | none => (.denied "unknown node presented no admission ticket".toList,admission)
      | some presented =>
        if !constantTimeEq (toUtf8 (ticket crates admission.token nodeId)) (toUtf8 presented) then
          (.denied "admission ticket is invalid for this node".toList,admission)
        else
          let pinned := admission.pinned.insert nodeId
          (.admitted,{admission with
            pinned := pinned
            pinFile := if written then some pinned else admission.pinFile})

def admitted (admission : TokenAdmission) : KeySet Str :=
  if admission.poisoned then admission.configured
  else admission.pinned.toList.foldl (fun set id => set.insert id) admission.configured

end TokenAdmission

inductive Admission where
  | allowlist (policy : AllowlistAdmission)
  | token (policy : TokenAdmission)

namespace Admission

def authorize (crates : ClusterCrates) (written : Bool) (admission : Admission) (nodeId : Str) (presented : Option Str) :
    Decision × Admission :=
  match admission with
  | .allowlist policy => (policy.authorize nodeId,.allowlist policy)
  | .token policy =>
    let (decision,after) := policy.authorize crates written nodeId presented
    (decision,.token after)

def admitted : Admission → KeySet Str
  | .allowlist policy => policy.trusted
  | .token policy => policy.admitted

end Admission

theorem constantTimeEq_iff : constantTimeEq left right = true ↔ left = right := by
  have folded (pairs : List (UInt8 × UInt8)) (start : UInt8) :
      pairs.foldl (fun difference pair => difference ||| (pair.1 ^^^ pair.2)) start = 0 ↔
        start = 0 ∧ ∀ pair ∈ pairs,pair.1 = pair.2 := by
    induction pairs generalizing start with
    | nil => simp
    | cons pair rest ih =>
      rw [foldl_cons,ih,UInt8.or_eq_zero_iff,UInt8.xor_eq_zero_iff]
      simp only [mem_cons,forall_eq_or_imp,and_assoc]
  unfold constantTimeEq
  by_cases size : left.length = right.length
  · simp only [size,ne_eq,not_true,if_false,decide_eq_true_eq,folded,true_and]
    constructor
    · intro same
      refine ext_getElem size fun k here there => ?_
      exact same (left[k],right[k]) (mem_iff_getElem.mpr ⟨k,by simp [here,there],by simp⟩)
    · rintro rfl pair among
      rw [zip_eq_zipWith] at among
      obtain ⟨k,bound,rfl⟩ := mem_iff_getElem.mp among
      simp
  · simp only [ne_eq,size,not_false_eq_true,if_true,Bool.false_eq_true,false_iff]
    rintro rfl
    exact size rfl

theorem mem_inserted (ids : List Str) (set : KeySet Str) (id : Str) :
    id ∈ ids.foldl (fun grown other => grown.insert other) set ↔ id ∈ set ∨ id ∈ ids := by
  induction ids generalizing set with
  | nil => simp
  | cons first rest ih =>
    rw [foldl_cons,ih]
    simp only [ExtTreeSet.mem_insert,Std.compare_eq_iff_eq,mem_cons]
    grind

theorem mem_collect {id : Str} : id ∈ collect ids ↔ id ∈ ids := by
  unfold collect
  rw [mem_inserted]
  simp

namespace TokenAdmission
variable {admission : TokenAdmission}

theorem mem_admitted {id : Str} (live : admission.poisoned = false) :
    id ∈ admission.admitted ↔ id ∈ admission.configured ∨ id ∈ admission.pinned := by
  unfold admitted
  rw [live]
  simp only [Bool.false_eq_true,if_false,mem_inserted,ExtTreeSet.mem_toList]

-- A call pins an id that is not yet admitted and carries its own ticket.
def Pins (crates : ClusterCrates) (admission : TokenAdmission) (nodeId : Str) (presented : Option Str) : Prop :=
  nodeId ∉ admission.configured ∧ nodeId ∉ admission.pinned ∧ (∃ key,parseNodeId crates nodeId = .ok key) ∧
    presented = some (ticket crates admission.token nodeId)

-- A call pins its id and admits it, or leaves the policy and its file alone.
theorem authorize_cases (crates : ClusterCrates) (written : Bool) (nodeId : Str) (presented : Option Str) (live : admission.poisoned = false) :
    (Pins crates admission nodeId presented ∧ admission.authorize crates written nodeId presented =
      (.admitted,{admission with
        pinned := admission.pinned.insert nodeId
        pinFile := if written then some (admission.pinned.insert nodeId) else admission.pinFile})) ∨
    (¬Pins crates admission nodeId presented ∧ (admission.authorize crates written nodeId presented).2 = admission ∧
      ((admission.authorize crates written nodeId presented).1 = .admitted ↔
        nodeId ∈ admission.configured ∨ nodeId ∈ admission.pinned)) := by
  unfold authorize Pins
  by_cases configured : nodeId ∈ admission.configured
  · simp [configured]
  · by_cases pinned : nodeId ∈ admission.pinned
    · simp [configured,live,pinned]
    · simp only [configured,live,pinned,if_false,Bool.false_eq_true,not_false_eq_true,true_and,or_self]
      cases parsed : parseNodeId crates nodeId with
      | error e => simp
      | ok key => cases presented with
        | none => simp
        | some text =>
          by_cases own : text = ticket crates admission.token nodeId
          · have same := constantTimeEq_iff.mpr (rfl : toUtf8 (ticket crates admission.token nodeId) = _)
            simp [own,same]
          · have differs : constantTimeEq (toUtf8 (ticket crates admission.token nodeId)) (toUtf8 text) = false := by
              apply Bool.eq_false_iff.mpr
              intro same
              apply own
              have spelled := fromUtf8_iff.mpr (constantTimeEq_iff.mp same)
              exact Option.some.inj (spelled.symm.trans (fromUtf8_iff.mpr rfl))
            simp [own,differs]

end TokenAdmission

-- A small world to evaluate in: two nodes, one token, and a join of the first
-- node that it signed for the second.
namespace Sample

def bytesOf (text : String) : Bytes := (unhex text.toList).getD []
def alice : Str := nodeIdPrefix ++ "d75a980182b10ab7d54bfed3c964073a0ee172f3daa62325af021a68f707511a".toList
def bob : Str := nodeIdPrefix ++ "3d4017c3e843895a92b70aa74d1b7ebc9c982ccf2ec4968cc0cd55f12af4660c".toList
def aliceKey : Bytes := bytesOf "d75a980182b10ab7d54bfed3c964073a0ee172f3daa62325af021a68f707511a"
def bobKey : Bytes := bytesOf "3d4017c3e843895a92b70aa74d1b7ebc9c982ccf2ec4968cc0cd55f12af4660c"
def token : Str := "a sufficiently long shared cluster admission token".toList
def tokenKey : Bytes := bytesOf "ee1625e22c1058739f66f065fe185b4ec88c50e3bdb72c50d1641f780cc9dce5"
def joinBody : Bytes := toUtf8 ("\x7b\"node\":\x7b\"node_id\":\"".toList ++ alice ++
  "\",\"version\":\"1\",\"operations\":[],\"endpoint\":\"https://a.example\",\"last_seen_millis\":0\x7d\x7d".toList)
def joinDigest : Bytes := bytesOf "f43ae99ebd42b759ac1af7508204a543866de5274e51c9bcdbb65edfb46caf82"
def joinMessage : Bytes := toUtf8 (signingContext ++ "\nPOST\n/api/v1/cluster/join\n\n".toList ++ bob ++
  "\n1700000000000\n".toList ++ hex joinDigest)
def joinSignature : Str :=
  "14f9b63a3a768056415b0e31e16542dbbbaf68d92dc57f6d1de3b70480d19247".toList ++
    "b06902c7c2de4927f8868b11b87f207fe7eef21c4aba7f1f56a41e0ea24b2602".toList
def aliceOrigin : Str := "https://a.example".toList

def crates : ClusterCrates where
  blake3 bytes := if bytes = joinBody then joinDigest else replicate 32 0
  deriveKey context material :=
    if context = ticketContext ∧ material = toUtf8 token then tokenKey else replicate 32 0
  keyedHash key bytes :=
    if key = tokenKey ∧ bytes = toUtf8 alice then
      bytesOf "483371a8181cefe2f2461c645440d39bd3ba863fb6233ccaeb6e99c33df95ba5"
    else replicate 32 0
  keyValid key := decide (key = aliceKey ∨ key = bobKey)
  verify key message signature :=
    decide (key = aliceKey ∧ message = joinMessage ∧ unhex joinSignature = some signature)
  parseUrl text :=
    if text = aliceOrigin then
      .ok ⟨"https".toList,some "a.example".toList,some 443,['/'],none,none,[],none⟩
    else .error "relative URL without a base".toList

end Sample

end HologramLive.Cluster
