import HologramLive.Cluster.Admission
namespace HologramLive.Cluster
open Tables Fallible List

abbrev Headers := List (Str × Bytes)

def Headers.get (headers : Headers) (name : Str) : Option Bytes := (headers.find? fun row => row.1 = name).map (·.2)

-- A value reads as text when every byte of it is visible ASCII or a tab.
def toStr (value : Bytes) : Option Str :=
  if value.all fun byte => byte = 9 || (32 ≤ byte && byte < 127) then some (value.map fun byte => Char.ofNat byte.toNat)
  else none

def header (headers : Headers) (name : Str) : Except LiveError Str :=
  match (headers.get name).bind toStr with
  | some text => .ok text
  | none => .error (.authentication ("missing ".toList ++ name ++ " header".toList))

def originParts (crates : ClusterCrates) (endpoint : Str) : Option (Str × Str × Nat) := do
  let url ← (crates.parseUrl endpoint).toOption
  let host ← url.hostStr
  let port ← url.portOrKnownDefault
  return (url.scheme.map Char.toLower,host.map Char.toLower,port)

def sameOrigin (crates : ClusterCrates) (left right : Str) : Bool :=
  match originParts crates left,originParts crates right with
  | some left,some right => decide (left = right)
  | _,_ => false

-- A caller names this node by its node id, or by any spelling of its origin.
def recipientNamesSelf (crates : ClusterCrates) (recipient ownNodeId : Str) (ownEndpoint : Option Str) : Bool :=
  decide (recipient = ownNodeId) || ownEndpoint.any fun endpoint => sameOrigin crates recipient endpoint

structure ClusterAuthority where
  nodeId : Str
  endpoint : Option Str
  admission : Admission

structure ProvenRequest where
  method : Str
  path : Str
  query : Option Str
  body : Bytes

def invalidProof : LiveError := .authentication "invalid cluster request proof".toList
def misaddressed : LiveError := .authentication "cluster request is addressed to another node".toList

def authenticate (crates : ClusterCrates) (now : Nat) (authority : ClusterAuthority) (headers : Headers)
    (request : ProvenRequest) : Except LiveError RequestProof := do
  let nodeId ← header headers nodeHeader
  let timestamp ← header headers timestampHeader
  let signature ← header headers signatureHeader
  let proof : RequestProof := ⟨nodeId,timestamp,signature⟩
  let recipient ← header headers recipientHeader
  rejectSeparators request.method request.path request.query recipient
  match verifyRequest crates now proof recipient request.method request.path request.query request.body with
  | .error _ => .error invalidProof
  | .ok _ =>
    if !recipientNamesSelf crates recipient authority.nodeId authority.endpoint then .error misaddressed else .ok proof

def authorizeProof (crates : ClusterCrates) (now : Nat) (written : Bool) (authority : ClusterAuthority) (headers : Headers)
    (request : ProvenRequest) : Except LiveError Str × Admission :=
  match authenticate crates now authority headers request with
  | .error e => (.error e,authority.admission)
  | .ok proof =>
    match authority.admission.authorize crates written proof.nodeId ((headers.get ticketHeader).bind toStr) with
    | (.admitted,after) => (.ok proof.nodeId,after)
    | (.denied reason,after) => (.error (.authorization ("cluster admission denied: ".toList ++ reason)),after)

variable {headers : Headers}

theorem header_ok : header headers name = .ok text ↔ (headers.get name).bind toStr = some text := by
  unfold header
  cases (headers.get name).bind toStr <;> simp

theorem rejectSeparators_ok :
    rejectSeparators method path query recipient = .ok () ↔ separated method = false ∧ separated path = false ∧
      (∀ text ∈ query,separated text = false) ∧ separated recipient = false := by
  unfold rejectSeparators
  split
  · rename_i field found
    have dirty := find?_some found
    have among := mem_of_find?_eq_some found
    simp only [reduceCtorEq,false_iff]
    rintro ⟨method,path,clean,recipient⟩
    simp only [mem_cons,not_mem_nil,or_false] at among
    rcases among with rfl | rfl | rfl | rfl
    · simp [method] at dirty
    · simp [path] at dirty
    · cases asked : query with
      | none => simp [asked] at dirty
      | some text => rw [asked,Option.any_some,clean text asked] at dirty; cases dirty
    · simp [recipient] at dirty
  · rename_i none
    have clean := find?_eq_none.mp none
    simp only [mem_cons,not_mem_nil,or_false,forall_eq_or_imp,forall_eq,Option.any_some,Bool.not_eq_true] at clean
    obtain ⟨method,path,asked,recipient⟩ := clean
    simp only [true_iff]
    refine ⟨method,path,fun text among => ?_,recipient⟩
    rw [Option.mem_def.mp among] at asked
    exact asked

-- A request that proves itself to this node: the four headers that say so, and
-- a signature of exactly this request, by the key it names, for this node, at a
-- time near the local clock.
structure Authentic (crates : ClusterCrates) (now : Nat) (authority : ClusterAuthority) (headers : Headers)
    (request : ProvenRequest) (id : Str) where
  timestamp : Str
  signature : Str
  recipient : Str
  millis : Nat
  key : Bytes
  signed : Bytes
  claimed : (headers.get nodeHeader).bind toStr = some id
  stamped : (headers.get timestampHeader).bind toStr = some timestamp
  carried : (headers.get signatureHeader).bind toStr = some signature
  addressed : (headers.get recipientHeader).bind toStr = some recipient
  clean : separated request.method = false ∧ separated request.path = false ∧
    (∀ text ∈ request.query,separated text = false) ∧ separated recipient = false
  dated : Listing.parseUnsigned (2^64) timestamp = some millis
  fresh : withinClockWindow now millis = true
  named : parseNodeId crates id = .ok key
  decoded : unhex signature = some signed
  whole : signed.length = 64
  verified : crates.verify key
    (preimage crates request.method request.path request.query recipient timestamp request.body) signed = true
  here : recipientNamesSelf crates recipient authority.nodeId authority.endpoint = true

variable {crates : ClusterCrates} {authority : ClusterAuthority} {request : ProvenRequest} {now : Nat}

theorem authenticate_ok (answered : authenticate crates now authority headers request = .ok proof) :
    Nonempty (Authentic crates now authority headers request proof.nodeId) := by
  unfold authenticate at answered
  obtain ⟨nodeId,claimed,answered⟩ := bind_ok answered
  obtain ⟨timestamp,stamped,answered⟩ := bind_ok answered
  obtain ⟨signature,carried,answered⟩ := bind_ok answered
  obtain ⟨recipient,addressed,answered⟩ := bind_ok answered
  obtain ⟨_,clean,answered⟩ := bind_ok answered
  split at answered
  · cases answered
  · rename_i checked
    obtain ⟨millis,dated,fresh,signed⟩ := verifyRequest_ok.mp checked
    obtain ⟨key,bytes,named,decoded,whole,verified⟩ := verifySignature_ok.mp signed
    split at answered
    · cases answered
    · rename_i here
      cases answered
      exact ⟨⟨timestamp,signature,recipient,millis,key,bytes,header_ok.mp claimed,header_ok.mp stamped,header_ok.mp carried,
        header_ok.mp addressed,rejectSeparators_ok.mp clean,dated,fresh,named,decoded,whole,verified,by simpa using here⟩⟩

theorem Authentic.accepted {id : Str} (proven : Authentic crates now authority headers request id) :
    authenticate crates now authority headers request = .ok ⟨id,proven.timestamp,proven.signature⟩ := by
  have signed := verifySignature_ok.mpr ⟨proven.key,proven.signed,proven.named,proven.decoded,proven.whole,proven.verified⟩
  have checked : verifyRequest crates now ⟨id,proven.timestamp,proven.signature⟩ proven.recipient request.method request.path
      request.query request.body = .ok () := verifyRequest_ok.mpr ⟨proven.millis,proven.dated,proven.fresh,signed⟩
  unfold authenticate
  refine (ok_bind (header_ok.mpr proven.claimed)).trans ?_
  refine (ok_bind (header_ok.mpr proven.stamped)).trans ?_
  refine (ok_bind (header_ok.mpr proven.carried)).trans ?_
  refine (ok_bind (header_ok.mpr proven.addressed)).trans ?_
  refine (ok_bind (rejectSeparators_ok.mpr proven.clean)).trans ?_
  simp only [checked,proven.here,Bool.not_true,Bool.false_eq_true,if_false]

theorem authorize_denied {admission after : Admission} (denied : admission.authorize crates written nodeId presented = (.denied reason,after)) :
    after = admission := by
  cases admission with
  | allowlist policy => exact (Prod.mk.inj denied).2.symm
  | token policy =>
    unfold Admission.authorize TokenAdmission.authorize at denied
    simp only at denied
    split at denied
    · cases denied
    · split at denied
      · exact (Prod.mk.inj denied).2.symm
      · split at denied
        · cases denied
        · split at denied
          · exact (Prod.mk.inj denied).2.symm
          · split at denied
            · exact (Prod.mk.inj denied).2.symm
            · split at denied
              · exact (Prod.mk.inj denied).2.symm
              · cases denied

theorem authorizeProof_ok {id : Str} {after : Admission}
    (answered : authorizeProof crates now written authority headers request = (.ok id,after)) :
    Nonempty (Authentic crates now authority headers request id) ∧
      authority.admission.authorize crates written id ((headers.get ticketHeader).bind toStr) = (.admitted,after) := by
  unfold authorizeProof at answered
  split at answered
  · cases answered
  · rename_i proof proven
    split at answered
    · rename_i admitted
      cases answered
      exact ⟨authenticate_ok proven,admitted⟩
    · cases answered

-- A request is let in exactly when it proves itself to this node and the policy
-- admits the key it proved, and one that is refused leaves the policy, its pins
-- and its pin file as they were.
theorem proof_authorized_iff (crates : ClusterCrates) (now : Nat) (written : Bool) (authority : ClusterAuthority)
    (headers : Headers) (request : ProvenRequest) :
    (∀ id after,authorizeProof crates now written authority headers request = (.ok id,after) ↔
      Nonempty (Authentic crates now authority headers request id) ∧
        authority.admission.authorize crates written id ((headers.get ticketHeader).bind toStr) = (.admitted,after)) ∧
    ∀ e after,authorizeProof crates now written authority headers request = (.error e,after) → after = authority.admission := by
  refine ⟨fun id after => ?_,fun e after refused => ?_⟩
  · constructor
    · intro answered
      exact authorizeProof_ok answered
    · rintro ⟨⟨proven⟩,admitted⟩
      simp only [authorizeProof,proven.accepted,admitted]
  · unfold authorizeProof at refused
    split at refused
    · exact (Prod.mk.inj refused).2.symm
    · split at refused
      · cases refused
      · rename_i denied
        obtain ⟨-,rfl⟩ := Prod.mk.inj refused
        exact authorize_denied denied

end HologramLive.Cluster
