import HologramLive.Rpc.Protocol
namespace HologramLive.Rpc
open Tables

structure Endpoint where
  name : Str
  url : Str
  token : Option Str
deriving DecidableEq, Repr

structure LiveClient where
  endpoints : List Endpoint
  allowReadFallback : Bool

inductive Code where
  | ok | cancelled | unknown | invalidArgument | deadlineExceeded | notFound | alreadyExists | permissionDenied
  | resourceExhausted | failedPrecondition | aborted | outOfRange | unimplemented | internal | unavailable
  | dataLoss | unauthenticated
deriving DecidableEq, Repr

structure Status where
  code : Code
  message : Str
  shown : Str
deriving DecidableEq, Repr

-- What the network and the transport crate give: whether a text may stand in a
-- header, how the server at a position of the list answers a request (a status,
-- or a message that reads as a response or not), and the debug text of a response.
structure Transport where
  metadataValue : Str → Except Str Unit
  answer : Nat → RpcRequest → Except Status (Except LiveError RpcResponse)
  debug : RpcResponse → Str

abbrev Manifests := Table Str CapabilityManifest

def isSecurityError : LiveError → Bool
  | .authentication _ | .authorization _ => true
  | _ => false

def mapGrpcStatus (status : Status) : LiveError :=
  match status.code with
  | .unauthenticated => .authentication status.message
  | .permissionDenied => .authorization status.message
  | .unimplemented => .capability status.message
  | .notFound => .notFound status.message
  | .failedPrecondition | .alreadyExists => .conflict status.message
  | .invalidArgument | .outOfRange => .protocol status.message
  | _ =>
    let lowercase := status.shown.map Char.toLower
    if "certificate".toList <:+: lowercase ∨ "tls".toList <:+: lowercase ∨ "unknown issuer".toList <:+: lowercase then
      .authentication ("secure transport validation failed: ".toList ++ status.shown)
    else .transport status.shown

inductive Event where
  | asked (endpoint : Nat) (answer : Except LiveError CapabilityManifest)
  | dispatched (endpoint : Nat) (answer : Except LiveError RpcResponse)

structure Called (α : Type) where
  outcome : Except LiveError α
  events : List Event
  manifests : Manifests

def Called.after {α : Type} (event : Event) (called : Called α) : Called α :=
  {called with events := event :: called.events}

structure RouteDecision where
  operation : Str
  target : Str
  endpoint : Str
  reason : Str
deriving DecidableEq, Repr

variable (transport : Transport)

def sendDirect (position : Nat) (endpoint : Endpoint) (request : RpcRequest) : Except LiveError RpcResponse := do
  match endpoint.token with
  | none => pure ()
  | some token => (transport.metadataValue ("Bearer ".toList ++ token)).mapError fun error =>
      .authentication ("invalid token: ".toList ++ error)
  let response ← (transport.answer position request).mapError mapGrpcStatus
  response

def handshake (position : Nat) (endpoint : Endpoint) (manifests : Manifests) :
    Except LiveError CapabilityManifest × Manifests :=
  match manifests[endpoint.url]? with
  | some manifest => (.ok manifest,manifests)
  | none =>
    match sendDirect transport position endpoint .handshake with
    | .error error => (.error error,manifests)
    | .ok (.capabilityManifest manifest) => (.ok manifest,manifests.insert endpoint.url manifest)
    | .ok (.error error) => (.error error.toLiveError,manifests)
    | .ok other => (.error (.protocol (endpoint.name ++ " returned ".toList ++ transport.debug other ++
        " to handshake".toList)),manifests)

def provides (manifest : CapabilityManifest) (operation : Str) : Bool :=
  manifest.operations.any fun item => item.id == operation

namespace LiveClient
variable (client : LiveClient) (request : RpcRequest)

def exhausted (capabilityMisses transportErrors : List Str) : LiveError :=
  if capabilityMisses ≠ [] then .capability ("no configured target provides ".toList ++ request.operation ++
    "; missing on ".toList ++ ", ".toList.intercalate capabilityMisses)
  else .transport ("all configured targets failed: ".toList ++ "; ".toList.intercalate transportErrors)

variable (manifests : Manifests)

def dispatchTo (endpoint : Endpoint) (position : Nat) (next : Str → Called RpcResponse) : Called RpcResponse :=
  let answer := sendDirect transport position endpoint request
  Called.after (.dispatched position answer) <|
    match answer with
    | .ok (.error error) => ⟨.error error.toLiveError,[],manifests⟩
    | .ok response => ⟨.ok response,[],manifests⟩
    | .error error =>
      if isSecurityError error then ⟨.error error,[],manifests⟩
      else if request.kind ≠ .read then
        ⟨.error (.unknownCommitState (endpoint.name ++ " may have received mutation ".toList ++ request.operation ++
          ": ".toList ++ error.message)),[],manifests⟩
      else if !client.allowReadFallback || isSecurityError error then ⟨.error error,[],manifests⟩
      else next (endpoint.name ++ ": ".toList ++ error.message)

def callFrom (manifests : Manifests) (capabilityMisses transportErrors : List Str) :
    List (Endpoint × Nat) → Called RpcResponse
  | [] => ⟨.error (exhausted request capabilityMisses transportErrors),[],manifests⟩
  | (endpoint,position) :: rest =>
    if request = .handshake then
      client.dispatchTo transport request manifests endpoint position fun failure =>
        callFrom manifests capabilityMisses (transportErrors ++ [failure]) rest
    else
      let (answer,manifests) := handshake transport position endpoint manifests
      Called.after (.asked position answer) <|
        match answer with
        | .ok manifest =>
          if provides manifest request.operation then
            client.dispatchTo transport request manifests endpoint position fun failure =>
              callFrom manifests capabilityMisses (transportErrors ++ [failure]) rest
          else callFrom manifests (capabilityMisses ++ [endpoint.name]) transportErrors rest
        | .error error =>
          if isSecurityError error then ⟨.error error,[],manifests⟩
          else if request.kind ≠ .read ∨ !client.allowReadFallback then ⟨.error error,[],manifests⟩
          else callFrom manifests capabilityMisses
            (transportErrors ++ [endpoint.name ++ " handshake: ".toList ++ error.message]) rest

def call : Called RpcResponse :=
  client.callFrom transport request manifests [] [] client.endpoints.zipIdx

def explainFrom (manifests : Manifests) (failures : List Str) : List (Endpoint × Nat) → Called RouteDecision
  | [] => ⟨.error (.capability ("no configured target can serve ".toList ++ request.operation ++ ": ".toList ++
      "; ".toList.intercalate failures)),[],manifests⟩
  | (endpoint,position) :: rest =>
    let (answer,manifests) := handshake transport position endpoint manifests
    Called.after (.asked position answer) <|
      match answer with
      | .ok manifest =>
        if provides manifest request.operation then
          ⟨.ok ⟨request.operation,endpoint.name,endpoint.url,endpoint.name ++ " advertises operation ".toList ++
            request.operation ++ " under native protocol v".toList ++
            decimal manifest.protocolVersion.toNat⟩,[],manifests⟩
        else explainFrom manifests (failures ++ [endpoint.name ++ " does not advertise ".toList ++ request.operation]) rest
      | .error error =>
        if isSecurityError error then ⟨.error error,[],manifests⟩
        else explainFrom manifests (failures ++ [endpoint.name ++ ": ".toList ++ error.message]) rest

def explainRoute : Called RouteDecision :=
  explainFrom transport request manifests [] client.endpoints.zipIdx

end LiveClient
end HologramLive.Rpc

namespace HologramLive.Rpc
open Tables

def Event.securityFailed : Event → Bool
  | .asked _ (.error error) | .dispatched _ (.error error) => isSecurityError error
  | .dispatched _ (.ok (.error error)) => isSecurityError error.toLiveError
  | _ => false

def Event.dispatch : Event → Option Nat
  | .asked .. => none
  | .dispatched endpoint _ => some endpoint

def Event.endpoint : Event → Nat
  | .asked endpoint _ | .dispatched endpoint _ => endpoint

def Called.dispatches {α : Type} (called : Called α) : List Nat := called.events.filterMap Event.dispatch

inductive Admitted (request : RpcRequest) (k : Nat) : List Event → Prop
  | bare (itself : request = .handshake) : Admitted request k []
  | provided {manifest : CapabilityManifest} (other : request ≠ .handshake)
      (has : provides manifest request.operation = true) : Admitted request k [.asked k (.ok manifest)]

inductive Trace (client : LiveClient) (request : RpcRequest) : Nat → List Event → Prop
  | exhausted (k : Nat) : Trace client request k []
  | missing {manifest : CapabilityManifest} {later : List Event} (lacks : provides manifest request.operation = false)
      (rest : Trace client request (k+1) later) : Trace client request k (.asked k (.ok manifest) :: later)
  | refused {error : LiveError} : Trace client request k [.asked k (.error error)]
  | failed {error : LiveError} {later : List Event} (plain : isSecurityError error = false)
      (reads : request.kind = .read) (allowed : client.allowReadFallback = true)
      (rest : Trace client request (k+1) later) : Trace client request k (.asked k (.error error) :: later)
  | answered {admission : List Event} {answer : Except LiveError RpcResponse} (admitted : Admitted request k admission) :
      Trace client request k (admission ++ [.dispatched k answer])
  | retried {admission later : List Event} {error : LiveError} (admitted : Admitted request k admission)
      (plain : isSecurityError error = false) (reads : request.kind = .read) (allowed : client.allowReadFallback = true)
      (rest : Trace client request (k+1) later) : Trace client request k (admission ++ .dispatched k (.error error) :: later)

variable {transport : Transport} {client : LiveClient} {request : RpcRequest} {k : Nat}

variable (manifests : Manifests)

open LiveClient

theorem dispatchTo_cases (endpoint : Endpoint) (next : Str → Called RpcResponse) :
    (∃ answer,(client.dispatchTo transport request manifests endpoint k next).events = [.dispatched k answer]) ∨
    ∃ error failure,isSecurityError error = false ∧ request.kind = .read ∧ client.allowReadFallback = true ∧
      (client.dispatchTo transport request manifests endpoint k next).events =
        .dispatched k (.error error) :: (next failure).events := by
  unfold dispatchTo
  rcases sendDirect transport k endpoint request with error | response
  · dsimp only
    split
    · exact .inl ⟨_,rfl⟩
    · rename_i insecure
      split
      · exact .inl ⟨_,rfl⟩
      · rename_i reads; split
        · exact .inl ⟨_,rfl⟩
        · rename_i kept
          simp only [Bool.or_eq_true,Bool.not_eq_true',not_or,Bool.not_eq_false] at kept
          exact .inr ⟨error,_,by simpa using insecure,by simpa using reads,kept.1,rfl⟩
  · left
    cases response <;> exact ⟨_,rfl⟩

theorem dispatchTo_trace {admission : List Event} (admitted : Admitted request k admission) (manifests : Manifests)
    (endpoint : Endpoint) (next : Str → Called RpcResponse)
    (rest : ∀ failure,Trace client request (k+1) (next failure).events) :
    Trace client request k (admission ++ (client.dispatchTo transport request manifests endpoint k next).events) := by
  rcases @dispatchTo_cases transport client request k manifests endpoint next with
    ⟨answer,same⟩ | ⟨error,failure,plain,reads,allowed,same⟩
  · rw [same]
    exact .answered admitted
  · rw [same]
    exact .retried admitted plain reads allowed (rest failure)

theorem callFrom_trace (endpoints : List Endpoint) (k : Nat) (manifests : Manifests) (misses errors : List Str) :
    Trace client request k (client.callFrom transport request manifests misses errors (endpoints.zipIdx k)).events := by
  induction endpoints generalizing k manifests misses errors with
  | nil => exact .exhausted k
  | cons endpoint endpoints ih =>
    rw [List.zipIdx_cons]
    unfold LiveClient.callFrom
    split
    · rename_i itself
      have sent := @dispatchTo_trace transport client request k [] (.bare itself) manifests endpoint _ fun failure =>
        ih (k+1) manifests misses (errors ++ [failure])
      exact sent
    · rename_i other
      rcases handshake transport k endpoint manifests with ⟨answer,after⟩
      dsimp only [Called.after]
      split
      · rename_i manifest; split
        · rename_i has
          exact dispatchTo_trace (.provided other has) _ _ _ fun failure => ih (k+1) ..
        · rename_i lacks; exact .missing (by simpa using lacks) (ih (k+1) ..)
      · rename_i error; split
        · exact .refused
        · rename_i plain; split
          · exact .refused
          · rename_i kept
            simp only [not_or,Bool.not_eq_true',Bool.not_eq_false,ne_eq,not_not] at kept
            exact .failed (by simpa using plain) kept.1 kept.2 (ih (k+1) ..)

theorem call_trace : Trace client request 0 (client.call transport request manifests).events :=
  callFrom_trace client.endpoints 0 manifests [] []

namespace Trace
variable {events : List Event}

variable {admission : List Event}

theorem admitted_quiet (admitted : Admitted request k admission) :
    ∀ event ∈ admission,event.securityFailed = false := by
  intro event member
  cases admitted with
  | bare => cases member
  | provided => rw [List.mem_singleton.mp member]; rfl

theorem admitted_dispatches (admitted : Admitted request k admission) : admission.filterMap Event.dispatch = [] := by
  cases admitted <;> rfl

theorem admitted_endpoint (admitted : Admitted request k admission) : ∀ event ∈ admission,event.endpoint = k := by
  intro event member
  cases admitted with
  | bare => cases member
  | provided => rw [List.mem_singleton.mp member]; rfl

theorem calm (trace : Trace client request k events) : events.Pairwise fun event _ => event.securityFailed = false := by
  induction trace with
  | exhausted => exact .nil
  | missing _ _ ih => exact List.pairwise_cons.mpr ⟨fun _ _ => rfl,ih⟩
  | refused => exact List.pairwise_singleton ..
  | failed plain _ _ _ ih => exact List.pairwise_cons.mpr ⟨fun _ _ => plain,ih⟩
  | answered admitted =>
    have quiet := admitted_quiet admitted
    refine List.pairwise_append.mpr ⟨?_,List.pairwise_singleton ..,fun event member _ _ => quiet event member⟩
    exact List.pairwise_of_forall_mem_list fun event member _ _ => quiet event member
  | retried admitted plain _ _ _ ih =>
    have quiet := admitted_quiet admitted
    refine List.pairwise_append.mpr ⟨?_,List.pairwise_cons.mpr ⟨fun _ _ => plain,ih⟩,fun event member _ _ => quiet event member⟩
    exact List.pairwise_of_forall_mem_list fun event member _ _ => quiet event member

theorem one_dispatch (trace : Trace client request k events) (writes : request.kind ≠ .read) :
    (events.filterMap Event.dispatch).length ≤ 1 := by
  induction trace with
  | exhausted | refused => exact Nat.zero_le 1
  | missing _ _ ih => exact ih
  | failed _ reads => exact absurd reads writes
  | answered admitted => simp [List.filterMap_append,admitted_dispatches admitted,Event.dispatch]
  | retried _ _ reads => exact absurd reads writes

theorem endpoint_le (trace : Trace client request k events) : ∀ event ∈ events,k ≤ event.endpoint := by
  induction trace with
  | exhausted => intro event member; cases member
  | missing _ _ ih =>
    intro event member
    rcases List.mem_cons.mp member with rfl | later
    · exact Nat.le_refl _
    · exact Nat.le_of_succ_le (ih event later)
  | refused =>
    intro event member
    rw [List.mem_singleton.mp member]
    exact Nat.le_refl _
  | failed _ _ _ _ ih =>
    intro event member
    rcases List.mem_cons.mp member with rfl | later
    · exact Nat.le_refl _
    · exact Nat.le_of_succ_le (ih event later)
  | answered admitted =>
    intro event member
    rcases List.mem_append.mp member with early | last
    · exact Nat.le_of_eq (admitted_endpoint admitted event early).symm
    · rw [List.mem_singleton.mp last]
      exact Nat.le_refl _
  | retried admitted _ _ _ _ ih =>
    intro event member
    rcases List.mem_append.mp member with early | later
    · exact Nat.le_of_eq (admitted_endpoint admitted event early).symm
    · rcases List.mem_cons.mp later with rfl | later
      · exact Nat.le_refl _
      · exact Nat.le_of_succ_le (ih event later)

theorem sent_le (trace : Trace client request k events) (sent : i ∈ events.filterMap Event.dispatch) : k ≤ i := by
  obtain ⟨event,member,named⟩ := List.mem_filterMap.mp sent
  have least := trace.endpoint_le event member
  cases event with
  | asked => cases named
  | dispatched => cases named; exact least

theorem admitted_asked (admitted : Admitted request k admission) (other : request ≠ .handshake) :
    ∃ manifest,.asked k (.ok manifest) ∈ admission := by
  cases admitted with
  | bare itself => exact absurd itself other
  | provided => exact ⟨_,List.mem_singleton_self _⟩

theorem admitted_provides (admitted : Admitted request k admission) (asked : .asked i (.ok manifest) ∈ admission) :
    provides manifest request.operation = true := by
  cases admitted with
  | bare => cases asked
  | provided _ has => cases List.mem_singleton.mp asked; exact has

-- A dispatch to an endpoint goes with the handshake in which its manifest named
-- the operation, and no other handshake with that endpoint is made.
theorem provided (trace : Trace client request k events) (other : request ≠ .handshake)
    (sent : i ∈ events.filterMap Event.dispatch) : (∃ manifest,.asked i (.ok manifest) ∈ events) ∧
      ∀ manifest,.asked i (.ok manifest) ∈ events → provides manifest request.operation = true := by
  induction trace with
  | exhausted | refused => cases sent
  | missing _ rest ih =>
    have above := rest.sent_le sent
    obtain ⟨⟨manifest,asked⟩,all⟩ := ih sent
    refine ⟨⟨manifest,List.mem_cons_of_mem _ asked⟩,fun manifest member => ?_⟩
    rcases List.mem_cons.mp member with same | later
    · cases same
      omega
    · exact all manifest later
  | failed _ _ _ _ ih =>
    obtain ⟨⟨manifest,asked⟩,all⟩ := ih sent
    refine ⟨⟨manifest,List.mem_cons_of_mem _ asked⟩,fun manifest member => ?_⟩
    rcases List.mem_cons.mp member with same | later
    · cases same
    · exact all manifest later
  | answered admitted =>
    rw [List.filterMap_append,admitted_dispatches admitted,List.nil_append] at sent
    cases List.mem_singleton.mp sent
    obtain ⟨manifest,asked⟩ := admitted_asked admitted other
    refine ⟨⟨manifest,List.mem_append_left _ asked⟩,fun manifest member => ?_⟩
    rcases List.mem_append.mp member with early | last
    · exact admitted_provides admitted early
    · cases List.mem_singleton.mp last
  | @retried k admission later error admitted _ _ _ rest ih =>
    rw [List.filterMap_append,admitted_dispatches admitted,List.nil_append] at sent
    have split (manifest : CapabilityManifest) (member : .asked i (.ok manifest) ∈ admission ++ .dispatched k (.error error) :: later) :
        .asked i (.ok manifest) ∈ admission ∨ .asked i (.ok manifest) ∈ later := by
      rcases List.mem_append.mp member with early | last
      · exact .inl early
      · rcases List.mem_cons.mp last with same | last
        · cases same
        · exact .inr last
    rcases List.mem_cons.mp sent with same | sent
    · cases same
      obtain ⟨manifest,asked⟩ := admitted_asked admitted other
      refine ⟨⟨manifest,List.mem_append_left _ asked⟩,fun manifest member => ?_⟩
      rcases split manifest member with early | last
      · exact admitted_provides admitted early
      · exact absurd (rest.endpoint_le _ last) (Nat.not_succ_le_self _)
    · obtain ⟨⟨manifest,asked⟩,all⟩ := ih sent
      refine ⟨⟨manifest,List.mem_append_right _ (List.mem_cons_of_mem _ asked)⟩,fun manifest member => ?_⟩
      rcases split manifest member with early | last
      · exact admitted_provides admitted early
      · exact all manifest last

theorem missed_before (trace : Trace client request k events) (kept : client.allowReadFallback = false)
    (sent : i ∈ events.filterMap Event.dispatch) (from_k : k ≤ j) (before : j < i) :
    ∃ manifest,.asked j (.ok manifest) ∈ events ∧ provides manifest request.operation = false := by
  induction trace with
  | exhausted | refused => cases sent
  | @missing k manifest later lacks rest ih =>
    rcases Nat.eq_or_lt_of_le from_k with same | above
    · cases same
      exact ⟨manifest,List.mem_cons_self,lacks⟩
    · obtain ⟨manifest,asked,lacks⟩ := ih sent above
      exact ⟨manifest,List.mem_cons_of_mem _ asked,lacks⟩
  | failed _ _ allowed => exact absurd allowed (by rw [kept]; decide)
  | answered admitted =>
    rw [List.filterMap_append,admitted_dispatches admitted,List.nil_append] at sent
    cases List.mem_singleton.mp sent
    omega
  | retried _ _ _ allowed => exact absurd allowed (by rw [kept]; decide)

end Trace

-- A handshake that the walk of `explain_route` makes may fail by a security
-- error only, unless the request falls back.
def Plain (client : LiveClient) (request : RpcRequest) (events : List Event) : Prop :=
  (request.kind = .read ∧ client.allowReadFallback = true) ∨
    ∀ i error,.asked i (.error error) ∈ events → isSecurityError error = true

-- The endpoint that is named is the one that is first dispatched to.
def Named (endpoints : List (Endpoint × Nat)) (explained : Called RouteDecision) (called : Called RpcResponse) : Prop :=
  match explained.outcome with
  | .ok decision => ∃ endpoint i,(endpoint,i) ∈ endpoints ∧ called.dispatches.head? = some i ∧
      decision.target = endpoint.name ∧ decision.endpoint = endpoint.url
  | .error _ => called.dispatches = []

theorem dispatchTo_first (endpoint : Endpoint) (next : Str → Called RpcResponse) :
    (client.dispatchTo transport request manifests endpoint k next).dispatches.head? = some k := by
  unfold Called.dispatches
  rcases @dispatchTo_cases transport client request k manifests endpoint next with ⟨_,same⟩ | ⟨_,_,_,_,_,same⟩ <;>
    · rw [same]
      rfl

theorem Plain.later (plain : Plain client request (event :: events)) : Plain client request events := by
  rcases plain with falls | secure
  · exact .inl falls
  · exact .inr fun i error member => secure i error (List.mem_cons_of_mem _ member)

theorem Named.later {endpoints : List (Endpoint × Nat)}
    (named : Named endpoints explained called) (entry : Endpoint × Nat) (i j : Nat)
    (answer answer' : Except LiveError CapabilityManifest) :
    Named (entry :: endpoints) (explained.after (.asked i answer)) (called.after (.asked j answer')) := by
  unfold Named at named ⊢
  cases outcome : explained.outcome with
  | ok decision =>
    simp only [outcome,Called.after] at named ⊢
    obtain ⟨endpoint,position,member,first,target,url⟩ := named
    exact ⟨endpoint,position,List.mem_cons_of_mem _ member,first,target,url⟩
  | error error => simp only [outcome,Called.after] at named ⊢; exact named

theorem explainFrom_named (other : request ≠ .handshake) (endpoints : List (Endpoint × Nat)) (manifests : Manifests)
    (failures misses errors : List Str)
    (plain : Plain client request (LiveClient.explainFrom transport request manifests failures endpoints).events) :
    Named endpoints (LiveClient.explainFrom transport request manifests failures endpoints)
      (client.callFrom transport request manifests misses errors endpoints) := by
  induction endpoints generalizing manifests failures misses errors with
  | nil => rfl
  | cons entry endpoints ih =>
    obtain ⟨endpoint,position⟩ := entry
    unfold LiveClient.explainFrom at plain ⊢
    unfold LiveClient.callFrom
    rw [if_neg other]
    generalize handshake transport position endpoint manifests = negotiated at plain ⊢
    obtain ⟨answer,after⟩ := negotiated
    dsimp only at plain ⊢
    cases answer with
    | ok manifest =>
      dsimp only at plain ⊢
      split
      · rename_i has
        have first := @dispatchTo_first transport client request position after endpoint fun failure =>
          client.callFrom transport request after misses (errors ++ [failure]) endpoints
        exact ⟨endpoint,position,List.mem_cons_self,first,rfl,rfl⟩
      · rename_i lacks
        rw [if_neg lacks] at plain
        exact (ih _ _ _ _ plain.later).later ..
    | error error =>
      dsimp only at plain ⊢
      split
      · rfl
      · rename_i insecure
        rw [if_neg insecure] at plain
        have falls : request.kind = .read ∧ client.allowReadFallback = true := by
          rcases plain with falls | secure
          · exact falls
          · exact absurd (secure position error List.mem_cons_self) insecure
        rw [if_neg (by simp [falls.1,falls.2])]
        exact (ih _ _ _ _ plain.later).later ..

-- The route of every call. A handshake goes to the first endpoint without a
-- manifest, and an endpoint that lacks the operation is passed over by every
-- request.
theorem call_routed (transport : Transport) (client : LiveClient) (request : RpcRequest) (manifests : Manifests) :
    let called := client.call transport request manifests
    let explained := client.explainRoute transport request manifests
    (request.kind ≠ .read → called.dispatches.length ≤ 1) ∧
    (request ≠ .handshake → ∀ i ∈ called.dispatches,(∃ manifest,.asked i (.ok manifest) ∈ called.events) ∧
      ∀ manifest,.asked i (.ok manifest) ∈ called.events → provides manifest request.operation = true) ∧
    (called.events.Pairwise fun event _ => event.securityFailed = false) ∧
    (client.allowReadFallback = false → ∀ i ∈ called.dispatches,∀ j < i,
      ∃ manifest,.asked j (.ok manifest) ∈ called.events ∧ provides manifest request.operation = false) ∧
    (request ≠ .handshake → Plain client request explained.events →
      Named client.endpoints.zipIdx explained called) := by
  intro called explained
  have trace : Trace client request 0 called.events := call_trace manifests
  refine ⟨trace.one_dispatch,fun other i sent => trace.provided other sent,trace.calm,?_,?_⟩
  · intro kept i sent j before
    exact trace.missed_before kept sent (Nat.zero_le j) before
  · intro other plain
    exact explainFrom_named other _ _ _ _ _ plain

def localEndpoint : Endpoint := ⟨"local".toList,"http://127.0.0.1:4141".toList,none⟩
def remoteEndpoint : Endpoint := ⟨"remote".toList,"https://remote".toList,none⟩

def manifestOf (operations : List RpcRequest) : CapabilityManifest :=
  ⟨1,"0.1.0".toList,"server".toList,"edge".toList,
    operations.map fun request => ⟨request.operation,request.kind,request.kind = .read⟩,[],1024⟩

def answered (first : Except Status CapabilityManifest) (second : CapabilityManifest) : Transport where
  metadataValue _ := .ok ()
  answer position request :=
    match request,position with
    | .handshake,0 => first.map fun manifest => .ok (.capabilityManifest manifest)
    | .handshake,_ => .ok (.ok (.capabilityManifest second))
    | _,_ => .ok (.ok .accepted)
  debug _ := []

def unavailable : Status := ⟨.unavailable,"connection refused".toList,"connection refused".toList⟩

theorem routes_apart : provides (manifestOf []) RpcRequest.handshake.operation = false ∧
    (call (answered (.ok (manifestOf [])) (manifestOf [])) ⟨[localEndpoint],true⟩ .handshake
      ((∅ : Manifests).insert localEndpoint.url (manifestOf []))).dispatches = [0] ∧
    (call (answered (.ok (manifestOf [])) (manifestOf [.health])) ⟨[localEndpoint,remoteEndpoint],false⟩
      .health ∅).dispatches = [1] ∧
    (call (answered (.error unavailable) (manifestOf [.shutdown])) ⟨[localEndpoint,remoteEndpoint],true⟩
      .shutdown ∅).dispatches = [] ∧ ((explainRoute (answered (.error unavailable) (manifestOf [.shutdown]))
      ⟨[localEndpoint,remoteEndpoint],true⟩ .shutdown ∅).outcome.toOption.map (·.target)) = some "remote".toList := by
  decide +kernel

end HologramLive.Rpc
