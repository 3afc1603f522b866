import HologramLive.Oci.Types
namespace HologramLive

structure BlobRead where
  content : Bytes
  position : Nat
deriving DecidableEq, Repr

-- What the file does in one trip to the blocking pool. A read that does not fail
-- gives as many bytes as the file likes, and at least one where there is one.
structure Trip where
  seekFails : Option Str
  readFails : Option Str
  short : Nat
deriving DecidableEq, Repr

variable (reader : BlobRead)

def BlobRead.seek (position : Nat) (trip : Trip) : BlobRead × Except Str Unit :=
  match trip.seekFails with
  | some error => (reader,.error error)
  | none => ({reader with position := position},.ok ())

def BlobRead.read (want : Nat) (trip : Trip) : BlobRead × Except Str Bytes :=
  match trip.readFails with
  | some error => (reader,.error error)
  | none =>
    let chunk := (reader.content.drop reader.position).take (min want (max 1 trip.short))
    ({reader with position := reader.position + chunk.length},.ok chunk)

namespace AsyncBlob

def chunkMax : Nat := 1024 * 1024

inductive State where
  | idle (reader : Option BlobRead)
  | reading (reader : BlobRead) (seekTo : Option Nat) (want : Nat)
  | buffered (reader : BlobRead) (chunk : Bytes) (handed : Nat)
deriving DecidableEq, Repr

end AsyncBlob

-- `seekTo` is where the first read must seek to. Taken by that read.
structure AsyncBlob where
  state : AsyncBlob.State
  seekTo : Option Nat
  remaining : Nat
deriving DecidableEq, Repr

namespace AsyncBlob

variable (start len : Nat)

def new : AsyncBlob := ⟨.idle (some reader),some start,len⟩

variable (seekTo : Option Nat)

def runTrip (want : Nat) (trip : Trip) : BlobRead × Except Str Bytes :=
  match seekTo with
  | none => reader.read want trip
  | some position => match reader.seek position trip with
    | (reader,.error error) => (reader,.error error)
    | (reader,.ok _) => reader.read want trip

-- What the pool's handle answers when it is polled.
inductive Handle where
  | pending
  | joinError (error : Str)
  | ready (trip : Trip)
deriving DecidableEq, Repr

inductive Polled where
  | pending
  | ready (given : Bytes)
  | failed (error : Str)
deriving DecidableEq, Repr

def lost : Str := "blob reader was lost by an earlier failed read".toList

def turn (blob : AsyncBlob) (room : Nat) (handle : Handle) : AsyncBlob × Option Polled :=
  match blob.state with
  | .buffered reader chunk handed =>
    if handed < chunk.length then
      let count := min room (chunk.length - handed)
      ({blob with state := .buffered reader chunk (handed + count)},some (.ready ((chunk.drop handed).take count)))
    else ({blob with state := .idle (some reader)},none)
  | .idle none => (blob,some (.failed lost))
  | .idle (some reader) =>
    if blob.remaining = 0 then (blob,some (.ready []))
    else (⟨.reading reader blob.seekTo (min blob.remaining chunkMax),none,blob.remaining⟩,none)
  | .reading reader seekTo want => match handle with
    | .pending => (blob,some .pending)
    | .joinError error => ({blob with state := .idle none},some (.failed error))
    | .ready trip => match runTrip reader seekTo want trip with
      | (reader,.error error) => ({blob with state := .idle (some reader)},some (.failed error))
      | (reader,.ok chunk) =>
        -- The file ended early.
        if chunk = [] then ({blob with state := .idle (some reader),remaining := 0},some (.ready []))
        else ({blob with state := .buffered reader chunk 0,remaining := blob.remaining - chunk.length},none)

def turns : Nat → AsyncBlob → Nat → Handle → AsyncBlob × Option Polled
  | 0,blob,_,_ => (blob,none)
  | fuel + 1,blob,room,handle => match turn blob room handle with
    | (after,some answer) => (after,some answer)
    | (after,none) => turns fuel after room handle

def pollRead (blob : AsyncBlob) (room : Nat) (handle : Handle) : AsyncBlob × Option Polled := turns 4 blob room handle

-- The turns a poll takes at most: a spent chunk is put away, a read is sent, its
-- answer is taken, and bytes are handed over.
def left (blob : AsyncBlob) : Nat :=
  match blob.state with
  | .buffered _ chunk handed => if handed < chunk.length then 1 else 4
  | .idle _ => 3
  | .reading .. => 2

open List

variable {blob : AsyncBlob}

-- The bytes a blob has still to hand over: what is left of the chunk, and what it
-- would read. Nothing is known of a blob that lost its reader.
def unread (remaining : Nat) : Bytes :=
  (reader.content.drop (seekTo.getD reader.position)).take remaining

def owed (blob : AsyncBlob) : Option Bytes :=
  match blob.state with
  | .idle none => none
  | .idle (some reader) => some (unread reader blob.seekTo blob.remaining)
  | .reading reader seekTo _ => some (unread reader seekTo blob.remaining)
  | .buffered reader chunk handed => some (chunk.drop handed ++ unread reader blob.seekTo blob.remaining)

-- Once a read is sent the seek is its own, and it asks for something.
structure Sound (blob : AsyncBlob) : Prop where
  asked : ∀ reader seekTo want,blob.state = .reading reader seekTo want →
    0 < want ∧ want ≤ blob.remaining ∧ blob.seekTo = none
  sought : ∀ reader chunk handed,blob.state = .buffered reader chunk handed → blob.seekTo = none

-- What an answer that is no failure does to what is owed. One that leaves a buffer
-- with room empty is the end.
inductive Settles (room : Nat) : Option Bytes → Option Polled → Option Bytes → Prop
  | again : Settles room before none before
  | pending : Settles room before (some .pending) before
  | ready (last : given = [] → 0 < room → rest = []) : Settles room (some (given ++ rest)) (some (.ready given)) (some rest)

theorem Settles.ended : Settles room (some []) (some (.ready [])) (some []) :=
  (.ready fun _ _ => rfl : Settles room (some ([] ++ [])) (some (.ready [])) (some []))

theorem Settles.same {before after : Option Bytes} (settled : Settles room before none after) : after = before := by
  cases settled
  rfl

-- One call of `poll_read`: how much room its buffer has, and what the pool's
-- handle answers if it is asked.
structure Poll where
  room : Nat
  handle : Handle
deriving DecidableEq, Repr

-- What a response body has seen of its blob: the bytes handed over so far, how many
-- of its buffers with room came back, and whether a poll failed. A body that met
-- a failure drops its reader.
structure Delivery where
  blob : AsyncBlob
  delivered : Bytes
  answered : Nat
  failed : Bool
deriving DecidableEq, Repr

def Delivery.poll (d : Delivery) (poll : Poll) : Delivery :=
  if d.failed then d
  else match pollRead d.blob poll.room poll.handle with
    | (after,some (.ready given)) =>
      {d with blob := after,delivered := d.delivered ++ given,answered := d.answered + if poll.room = 0 then 0 else 1}
    | (after,some (.failed _)) => {d with blob := after,failed := true}
    | (after,_) => {d with blob := after}

def serve (polls : List Poll) : Delivery :=
  polls.foldl Delivery.poll ⟨new reader start len,[],0,false⟩

-- What was delivered and what is owed are the bytes asked for, and each buffer
-- that came back brought one of them or the end.
structure Faithful (target : Bytes) (d : Delivery) : Prop where
  sound : d.failed = false → Sound d.blob
  whole : d.failed = false → ∀ rest,d.blob.owed = some rest → d.delivered ++ rest = target
  begins : d.delivered <+: target
  counted : min d.answered target.length ≤ d.delivered.length

-- Two short reads into buffers of other sizes.
example : (serve ⟨[1,2,3,4,5,6],0⟩ 1 4 [⟨3,.pending⟩,⟨1,.ready ⟨none,none,2⟩⟩,⟨9,.pending⟩,⟨9,.ready ⟨none,none,9⟩⟩]).delivered =
    [2,3,4,5] := by decide

end AsyncBlob
end HologramLive
