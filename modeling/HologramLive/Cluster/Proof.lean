import HologramLive.Holo.Types
import HologramLive.Registry.Listing
namespace HologramLive.Cluster
open Tables

structure Url where
  scheme : Str
  hostStr : Option Str
  portOrKnownDefault : Option Nat
  path : Str
  query : Option Str
  fragment : Option Str
  username : Str
  password : Option Str
deriving DecidableEq, Repr

-- What the cluster takes from crates that are not in the repository: the hash,
-- the signature scheme and the URL reader. A key is 32 bytes and a signature 64.
structure ClusterCrates where
  blake3 : Bytes → Bytes
  deriveKey : Str → Bytes → Bytes
  keyedHash : Bytes → Bytes → Bytes
  keyValid : Bytes → Bool
  verify : Bytes → Bytes → Bytes → Bool
  parseUrl : Str → Except Str Url

def nodeHeader : Str := "x-hologram-cluster-node".toList
def timestampHeader : Str := "x-hologram-cluster-timestamp".toList
def signatureHeader : Str := "x-hologram-cluster-signature".toList
def ticketHeader : Str := "x-hologram-cluster-ticket".toList
def recipientHeader : Str := "x-hologram-cluster-recipient".toList
def signingContext : Str := "dev.hologram.live.cluster.v2".toList
def maxClockSkewMillis : Nat := 30000
def nodeIdPrefix : Str := "ed25519:".toList

def unhexPairs : Bytes → Option Bytes
  | [] => some []
  | [_] => none
  | high :: low :: rest =>
    match hexValue (Char.ofNat high.toNat),hexValue (Char.ofNat low.toNat) with
    | some sixteens,some units => (unhexPairs rest).map fun bytes => UInt8.ofNat (16 * sixteens + units) :: bytes
    | _,_ => none

def unhex (text : Str) : Option Bytes := unhexPairs (toUtf8 text)

variable (crates : ClusterCrates)

-- A node id is a map key, so it has one spelling: lowercase hex of a public key.
def parseNodeId (nodeId : Str) : Except LiveError Bytes :=
  match stripPrefix nodeIdPrefix nodeId with
  | none => .error (.protocol ("cluster node id must start with ".toList ++ nodeIdPrefix))
  | some encoded =>
    if encoded.any Char.isUpper then .error (.protocol "cluster node id must be lowercase hexadecimal".toList)
    else match unhex encoded with
      | none => .error (.protocol "cluster node id is not hexadecimal".toList)
      | some key =>
        if key.length ≠ 32 then .error (.protocol "cluster node id must be 32 bytes".toList)
        else if crates.keyValid key then .ok key
        else .error (.protocol "cluster node id is not a valid public key".toList)

def verifySignature (nodeId : Str) (message : Bytes) (signature : Str) : Except LiveError Unit :=
  match parseNodeId crates nodeId with
  | .error e => .error e
  | .ok key => match unhex signature with
    | none => .error (.authentication "cluster signature is not hexadecimal".toList)
    | some bytes =>
      if bytes.length ≠ 64 then .error (.authentication "cluster signature must be 64 bytes".toList)
      else if crates.verify key message bytes then .ok ()
      else .error (.authentication "invalid cluster signature".toList)

structure RequestProof where
  nodeId : Str
  timestamp : Str
  signature : Str
deriving DecidableEq, Repr

def canonicalQuery : Option Str → Str
  | none => []
  | some raw => ['&'].intercalate (((raw.splitOn '&').filter fun segment => !segment.isEmpty).insertionSort (· ≤ ·))

def separated (text : Str) : Bool := text.any fun c => c = '\n' || c = '\r'

def rejectSeparators (method path : Str) (query : Option Str) (recipient : Str) : Except LiveError Unit :=
  match [("method",some method),("path",some path),("query",query),("recipient",some recipient)].find? fun field =>
      field.2.any separated with
  | some field => .error (.authentication ("cluster request ".toList ++ field.1.toList ++ " contains a line separator".toList))
  | none => .ok ()

def preimage (method path : Str) (query : Option Str) (recipient timestamp : Str) (body : Bytes) : Bytes :=
  toUtf8 (['\n'].intercalate
    [signingContext,method,path,canonicalQuery query,recipient,timestamp,hex (crates.blake3 body)])

def withinClockWindow (reference claimed : Nat) : Bool :=
  decide (max reference claimed - min reference claimed ≤ maxClockSkewMillis)

def verifyRequest (now : Nat) (proof : RequestProof) (recipient method path : Str)
    (query : Option Str) (body : Bytes) : Except LiveError Unit :=
  match Listing.parseUnsigned (2^64) proof.timestamp with
  | none => .error (.authentication "invalid cluster timestamp".toList)
  | some timestampMillis =>
    if !withinClockWindow now timestampMillis then
      .error (.authentication "cluster timestamp is outside the allowed clock window".toList)
    else verifySignature crates proof.nodeId (preimage crates method path query recipient proof.timestamp body) proof.signature

theorem verifySignature_ok {crates : ClusterCrates} {nodeId signature : Str} {message : Bytes} :
    verifySignature crates nodeId message signature = .ok () ↔ ∃ key bytes,parseNodeId crates nodeId = .ok key ∧
      unhex signature = some bytes ∧ bytes.length = 64 ∧ crates.verify key message bytes = true := by
  unfold verifySignature
  cases parsed : parseNodeId crates nodeId with
  | error e => simp
  | ok key => cases decoded : unhex signature with
    | none => simp
    | some bytes =>
      by_cases size : bytes.length = 64
      · cases verified : crates.verify key message bytes <;> simp [size,verified]
      · simp [size]

theorem verifyRequest_ok {crates : ClusterCrates} {now : Nat} {proof : RequestProof} {recipient method path : Str}
    {query : Option Str} {body : Bytes} : verifyRequest crates now proof recipient method path query body = .ok () ↔
      ∃ millis,Listing.parseUnsigned (2^64) proof.timestamp = some millis ∧ withinClockWindow now millis = true ∧
        verifySignature crates proof.nodeId (preimage crates method path query recipient proof.timestamp body)
          proof.signature = .ok () := by
  unfold verifyRequest
  cases Listing.parseUnsigned (2^64) proof.timestamp with
  | none => simp
  | some millis => cases window : withinClockWindow now millis <;> simp [window]

end HologramLive.Cluster
