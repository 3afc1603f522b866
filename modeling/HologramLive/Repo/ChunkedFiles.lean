import HologramLive.Repo.Manifest
namespace HologramLive.Repo
open Fallible

structure Hashes where
  blake3 : Bytes → Bytes
  sha256 : Bytes → Bytes
  blake3_length : ∀ bytes,(blake3 bytes).length = 32
  sha256_length : ∀ bytes,(sha256 bytes).length = 32

def Hashes.kappaOf (hashes : Hashes) (bytes : Bytes) : Str := blake3Prefix ++ hex (hashes.blake3 bytes)
def Hashes.sha256Of (hashes : Hashes) (bytes : Bytes) : Str := sha256Prefix ++ hex (hashes.sha256 bytes)

def byteLen (bytes : Bytes) : UInt64 := if bytes.length < 2^64 then UInt64.ofNat bytes.length else UInt64.ofNat u64Max

-- What the next calls of a reader do: give some bytes but not all, be
-- interrupted, or fail. With no answer left a call fills its buffer.
inductive ReadAnswer where
  | short (more : Nat)
  | interrupted
  | failed (error : Str)
deriving DecidableEq, Repr

structure Reader where
  contents : Bytes
  answers : List ReadAnswer
deriving DecidableEq, Repr

def readFull : List ReadAnswer → Bytes → Nat → Except Str (Bytes × Reader)
  | [],contents,room => .ok (contents.take room,⟨contents.drop room,[]⟩)
  | answer :: rest,contents,room =>
    if room = 0 then .ok ([],⟨contents,answer :: rest⟩)
    else match answer with
      | .failed error => .error error
      | .interrupted => readFull rest contents room
      | .short more =>
        let read := contents.take (min (more+1) room)
        if read.isEmpty then .ok ([],⟨contents,rest⟩)
        else (readFull rest (contents.drop (min (more+1) room)) (room-read.length)).map fun later => (read ++ later.1,later.2)

theorem readFull_split
    (ran : readFull answers contents room = .ok (bytes,next)) : contents = bytes ++ next.contents := by
  induction answers generalizing contents room bytes with
  | nil => cases ran; exact (List.take_append_drop room contents).symm
  | cons answer rest ih =>
    unfold readFull at ran
    split at ran
    · cases ran
      rfl
    · cases answer with
      | failed error => cases ran
      | interrupted => exact ih ran
      | short more =>
        dsimp only at ran; split at ran
        · cases ran; rfl
        · cases later : readFull rest (contents.drop (min (more+1) room)) (room-(contents.take (min (more+1) room)).length) with
          | error e => rw [later] at ran; cases ran
          | ok out =>
            rw [later] at ran; cases ran
            rw [List.append_assoc,←ih later,List.take_append_drop]

def describeChunks (hashes : Hashes) (capacity : Nat) (reader : Reader) (whole : Bytes) (chunks : List ManifestChunk)
    (offset : UInt64) : Except Str (Bytes × List ManifestChunk × UInt64) :=
  match filled : readFull reader.answers reader.contents capacity with
  | .error error => .error error
  | .ok (bytes,next) =>
    if empty : bytes.length = 0 then .ok (whole,chunks,offset)
    else
      let size := byteLen bytes
      let chunks := chunks ++ [⟨hashes.kappaOf bytes,offset,size⟩]
      if bytes.length < capacity then .ok (whole ++ bytes,chunks,offset+size)
      else describeChunks hashes capacity next (whole ++ bytes) chunks (offset+size)
termination_by reader.contents.length
decreasing_by
  have split := readFull_split filled
  rw [split,List.length_append]
  omega

def describeFile (hashes : Hashes) (path : Str) (reader : Reader) (chunkBytes : UInt64) : Except LiveError ManifestFile := do
  validateFilePath path
  if chunkBytes = 0 || maxChunkBytes < chunkBytes then .error (.protocol ("chunk size ".toList ++
    decimal chunkBytes.toNat ++ " must be between 1 and ".toList ++ decimal maxChunkBytes.toNat ++ " bytes".toList))
  else
    let (whole,chunks,size) ← (describeChunks hashes chunkBytes.toNat reader [] [] 0).mapError fun error =>
      .io ("read ".toList ++ quoted path ++ ": ".toList ++ error)
    return ⟨path,size,none,some (hashes.sha256Of whole),hashes.kappaOf whole,chunks⟩

section Reassemble
variable {σ ω : Type} (hashes : Hashes) (fetch : σ → Str → Except LiveError (Option Bytes) × σ)
  (writeAll : ω → Bytes → Except Str Unit × ω)

def reassembleChunks (path : Str) : List ManifestChunk → Bytes → UInt64 → σ → ω →
    Except LiveError (Bytes × UInt64) × σ × ω
  | [],whole,written,store,sink => (.ok (whole,written),store,sink)
  | chunk :: rest,whole,written,store,sink =>
    match fetch store chunk.kappa with
    | (.error error,store) => (.error error,store,sink)
    | (.ok none,store) => (.error (.notFound ("chunk ".toList ++ chunk.kappa ++ " of ".toList ++ quoted path ++
        " is not available".toList)),store,sink)
    | (.ok (some bytes),store) =>
      if byteLen bytes ≠ chunk.size then (.error (.invalidHolo ("chunk ".toList ++ chunk.kappa ++ " of ".toList ++
        quoted path ++ " is ".toList ++ decimal bytes.length ++ " bytes but the manifest declares ".toList ++
        decimal chunk.size.toNat)),store,sink)
      else if hashes.kappaOf bytes ≠ chunk.kappa then (.error (.invalidHolo ("chunk at offset ".toList ++
        decimal chunk.offset.toNat ++ " of ".toList ++ quoted path ++ " does not match its kappa ".toList ++
        chunk.kappa)),store,sink)
      else match writeAll sink bytes with
        | (.error error,sink) => (.error (.io ("write ".toList ++ quoted path ++ ": ".toList ++ error)),store,sink)
        | (.ok (),sink) => reassembleChunks path rest (whole ++ bytes) (written+chunk.size) store sink

variable (file : ManifestFile)

def checkWhole (whole : Bytes) : Except LiveError Unit :=
  if hashes.kappaOf whole ≠ file.blake3 then .error (.invalidHolo ("reassembled ".toList ++ quoted file.path ++
    " is ".toList ++ hashes.kappaOf whole ++ " but the manifest declares ".toList ++ file.blake3))
  else match file.sha256 with
    | none => .ok ()
    | some expected =>
      if hashes.sha256Of whole ≠ expected then .error (.invalidHolo ("reassembled ".toList ++ quoted file.path ++
        " is ".toList ++ hashes.sha256Of whole ++ " but the manifest declares ".toList ++ expected))
      else .ok ()

def reassembleFileTo (store : σ) (sink : ω) : Except LiveError UInt64 × σ × ω :=
  match validateFile file with
  | .error error => (.error error,store,sink)
  | .ok () =>
    match reassembleChunks hashes fetch writeAll file.path file.chunks [] 0 store sink with
    | (.error error,store,sink) => (.error error,store,sink)
    | (.ok (whole,written),store,sink) => ((checkWhole hashes file whole).map fun _ => written,store,sink)

def writeVec (output bytes : Bytes) : Except Str Unit × Bytes := (.ok (),output ++ bytes)

def reassembleFile (store : σ) : Except LiveError Bytes × σ :=
  match reassembleFileTo hashes fetch writeVec file store [] with
  | (.error error,store,_) => (.error error,store)
  | (.ok _,store,output) => (.ok output,store)

end Reassemble
end HologramLive.Repo

namespace HologramLive.Repo
open Fallible
variable {hashes : Hashes}

def Tiles : Nat → List ManifestChunk → Nat → Prop
  | start,[],stop => start = stop
  | start,chunk :: rest,stop => chunk.offset.toNat = start ∧ 0 < chunk.size.toNat ∧ Tiles (start+chunk.size.toNat) rest stop

variable {bytes : Bytes}

theorem byteLen_small (small : bytes.length < 2^64) : (byteLen bytes).toNat = bytes.length := by
  unfold byteLen
  rw [if_pos small]
  exact UInt64.toNat_ofNat_of_lt' small

theorem byteLen_chunk (same : byteLen bytes = size) (bound : size ≤ maxChunkBytes) : bytes.length = size.toNat := by
  by_cases small : bytes.length < 2^64
  · rw [←same,byteLen_small small]
  · unfold byteLen at same
    rw [if_neg small] at same
    rw [←same] at bound
    exact absurd bound (by decide)

theorem checkedAdd_some (added : checkedAdd a b = some next) : next.toNat = a.toNat+b.toNat := by
  unfold checkedAdd at added
  split at added
  · rename_i small
    cases added
    rw [UInt64.toNat_add]
    exact Nat.mod_eq_of_lt small
  · cases added

variable {path : Str}

theorem validateChunk_ok
    (ok : validateChunk path offset chunk = .ok next) : chunk.offset = offset ∧ 0 < chunk.size.toNat ∧
      chunk.size ≤ maxChunkBytes ∧ next.toNat = offset.toNat+chunk.size.toNat := by
  unfold validateChunk at ok
  obtain ⟨_,_,ok⟩ := bind_ok ok
  split at ok
  · cases ok
  · rename_i sized
    split at ok
    · cases ok
    · rename_i placed
      split at ok
      · rename_i later added; cases ok
        simp only [Bool.or_eq_true,decide_eq_true_eq,not_or] at sized
        refine ⟨not_not.mp placed,?_,UInt64.not_lt.mp sized.2,checkedAdd_some added⟩
        have positive : chunk.size.toNat ≠ 0 := fun zero => sized.1 (UInt64.toNat_inj.mp zero)
        omega
      · cases ok

variable {chunks : List ManifestChunk}

theorem validateChunks_tiles (ok : chunks.foldlM (validateChunk path) offset = .ok covered) :
    Tiles offset.toNat chunks covered.toNat ∧ ∀ chunk ∈ chunks,chunk.size ≤ maxChunkBytes := by
  induction chunks generalizing offset with
  | nil => cases ok; exact ⟨rfl,by simp⟩
  | cons chunk rest ih =>
    rw [List.foldlM_cons] at ok
    obtain ⟨next,first,others⟩ := bind_ok ok
    obtain ⟨placed,positive,bound,after⟩ := validateChunk_ok first
    obtain ⟨tiles,bounds⟩ := ih others
    rw [after] at tiles
    exact ⟨⟨by rw [placed],positive,tiles⟩,List.forall_mem_cons.mpr ⟨bound,bounds⟩⟩

variable {file : ManifestFile}

theorem validateFile_tiles (ok : validateFile file = .ok ()) :
    Tiles 0 file.chunks file.size.toNat ∧ ∀ chunk ∈ file.chunks,chunk.size ≤ maxChunkBytes := by
  unfold validateFile at ok
  obtain ⟨_,_,ok⟩ := bind_ok ok
  obtain ⟨_,_,ok⟩ := bind_ok ok
  obtain ⟨_,_,ok⟩ := bind_ok ok
  obtain ⟨_,_,ok⟩ := bind_ok ok
  obtain ⟨covered,chunks,ok⟩ := bind_ok ok
  split at ok
  · cases ok
  · rename_i all
    rw [←not_not.mp all]
    exact validateChunks_tiles chunks

section Describe

theorem hexDigit_lower : ∀ k < 16,isLowerHex (hexDigits.getD k '0') = true := by decide

theorem hex_lower (bytes : Bytes) : (hex bytes).length = 2*bytes.length ∧ (hex bytes).all isLowerHex = true := by
  induction bytes with
  | nil => exact ⟨rfl,rfl⟩
  | cons byte rest ih =>
    have small : byte.toNat < 256 := UInt8.toNat_lt byte
    have high := hexDigit_lower (byte.toNat/16) (by omega)
    have low := hexDigit_lower (byte.toNat%16) (by omega)
    obtain ⟨length,all⟩ := ih
    have spelled : hex (byte :: rest) =
        hexDigits.getD (byte.toNat/16) '0' :: hexDigits.getD (byte.toNat%16) '0' :: hex rest := rfl
    rw [spelled]
    refine ⟨?_,?_⟩
    · rw [List.length_cons,List.length_cons,List.length_cons,length]
      omega
    · rw [List.all_cons,List.all_cons,high,low,all]
      rfl

theorem validateKappa_of (hashes : Hashes) (bytes : Bytes) : validateKappa (hashes.kappaOf bytes) = .ok () := by
  obtain ⟨length,all⟩ := hex_lower (hashes.blake3 bytes)
  rw [hashes.blake3_length] at length
  refine if_pos ?_
  show ((hex (hashes.blake3 bytes)).length = 64 && (hex (hashes.blake3 bytes)).all isLowerHex) = true
  rw [length,all]
  rfl

theorem validateSha256_of (hashes : Hashes) (bytes : Bytes) :
    validateDigest (hashes.sha256Of bytes) sha256Prefix = .ok () := by
  obtain ⟨length,all⟩ := hex_lower (hashes.sha256 bytes)
  rw [hashes.sha256_length] at length
  refine if_pos ?_
  show ((hex (hashes.sha256 bytes)).length = 64 && (hex (hashes.sha256 bytes)).all isLowerHex) = true
  rw [length,all]
  rfl

def Plain (answers : List ReadAnswer) : Prop := ∀ error,.failed error ∉ answers

theorem take_room {contents : Bytes} {got room : Nat} (within : got ≤ room) :
    contents.take got ++ (contents.drop got).take (room-(contents.take got).length) = contents.take room ∧
      (contents.drop got).drop (room-(contents.take got).length) = contents.drop room := by
  by_cases long : got ≤ contents.length
  · rw [List.length_take,Nat.min_eq_left long,←List.take_add,List.drop_drop,Nat.add_sub_cancel' within]
    exact ⟨rfl,rfl⟩
  · have short : contents.length ≤ got := by omega
    rw [List.drop_of_length_le short,List.take_of_length_le short,List.take_of_length_le (Nat.le_trans short within),
      List.drop_of_length_le (Nat.le_trans short within)]
    simp

theorem readFull_plain (plain : Plain answers) (contents : Bytes) (room : Nat) :
    ∃ later,readFull answers contents room = .ok (contents.take room,⟨contents.drop room,later⟩) ∧ Plain later := by
  induction answers generalizing contents room with
  | nil => exact ⟨[],rfl,plain⟩
  | cons answer rest ih =>
    have others : Plain rest := fun error member => plain error (List.mem_cons_of_mem _ member)
    unfold readFull
    split
    · rename_i full
      rw [full]
      exact ⟨answer :: rest,rfl,plain⟩
    · rename_i open_
      cases answer with
      | failed error => exact absurd List.mem_cons_self (plain error)
      | interrupted => exact ih others contents room
      | short more =>
        dsimp only; split
        · rename_i ended
          have nothing : contents = [] := by
            rw [List.isEmpty_iff,List.take_eq_nil_iff] at ended
            obtain zero | nothing := ended
            · omega
            · exact nothing
          subst nothing; exact ⟨rest,by simp,others⟩
        · obtain ⟨later,ran,plain'⟩ := ih others (contents.drop (min (more+1) room))
            (room-(contents.take (min (more+1) room)).length)
          obtain ⟨taken,dropped⟩ := @take_room contents (min (more+1) room) room (Nat.min_le_right _ _)
          refine ⟨later,?_,plain'⟩
          rw [ran]
          show Except.ok (_ ++ _,_) = _
          rw [taken,dropped]

def laid (hashes : Hashes) : UInt64 → List Bytes → List ManifestChunk
  | _,[] => []
  | offset,part :: rest => ⟨hashes.kappaOf part,offset,byteLen part⟩ :: laid hashes (offset+byteLen part) rest

def laidEnd : UInt64 → List Bytes → UInt64
  | offset,[] => offset
  | offset,part :: rest => laidEnd (offset+byteLen part) rest

theorem describeChunks_ok {capacity : Nat} (positive : 0 < capacity) {reader : Reader} (plain : Plain reader.answers)
    (whole : Bytes) (chunks : List ManifestChunk) (offset : UInt64) :
    ∃ parts : List Bytes,describeChunks hashes capacity reader whole chunks offset =
        .ok (whole ++ reader.contents,chunks ++ laid hashes offset parts,laidEnd offset parts) ∧
      parts.flatten = reader.contents ∧ ∀ part ∈ parts,part ≠ [] ∧ part.length ≤ capacity := by
  obtain ⟨later,read,plain'⟩ := readFull_plain plain reader.contents capacity
  rw [describeChunks]
  split
  · rename_i error failed
    rw [read] at failed
    cases failed
  · rename_i bytes next filled
    rw [read] at filled
    cases filled
    dsimp only
    split
    · rename_i empty
      have nothing : reader.contents = [] := by
        rw [List.length_eq_zero_iff,List.take_eq_nil_iff] at empty
        obtain zero | nothing := empty
        · omega
        · exact nothing
      rw [nothing]
      exact ⟨[],by simp [laid,laidEnd],rfl,by simp⟩
    · rename_i some_
      have full : reader.contents.take capacity ≠ [] := fun nothing => some_ (by rw [nothing]; rfl)
      have bound : (reader.contents.take capacity).length ≤ capacity := by rw [List.length_take]; omega
      split
      · rename_i last
        have all : reader.contents.take capacity = reader.contents := by
          rw [List.length_take] at last; exact List.take_of_length_le (by omega)
        rw [all] at full bound ⊢
        refine ⟨[reader.contents],rfl,by simp,?_⟩
        exact List.forall_mem_singleton.mpr ⟨full,bound⟩
      · have shorter : (reader.contents.drop capacity).length < reader.contents.length := by
          have parts := congrArg List.length (List.take_append_drop capacity reader.contents)
          rw [List.length_append] at parts; omega
        obtain ⟨parts,ran,covered,each⟩ := @describeChunks_ok capacity positive ⟨reader.contents.drop capacity,later⟩ plain'
          (whole ++ reader.contents.take capacity)
          (chunks ++ [⟨hashes.kappaOf (reader.contents.take capacity),offset,byteLen (reader.contents.take capacity)⟩])
          (offset+byteLen (reader.contents.take capacity))
        refine ⟨reader.contents.take capacity :: parts,?_,?_,List.forall_mem_cons.mpr ⟨⟨full,bound⟩,each⟩⟩
        · rw [ran]
          dsimp only; rw [List.append_assoc,List.take_append_drop,List.append_assoc]
          rfl
        · rw [List.flatten_cons,covered]; exact List.take_append_drop capacity reader.contents
termination_by reader.contents.length

theorem laidEnd_length (fits : offset.toNat+parts.flatten.length < 2^64) :
    (laidEnd offset parts).toNat = offset.toNat+parts.flatten.length := by
  induction parts generalizing offset with
  | nil => rfl
  | cons part rest ih =>
    rw [List.flatten_cons,List.length_append] at fits ⊢
    have part_ : (byteLen part).toNat = part.length := byteLen_small (by omega)
    have next : (offset+byteLen part).toNat = offset.toNat+part.length := by
      rw [UInt64.toNat_add,part_]
      exact Nat.mod_eq_of_lt (by omega)
    have rest_ := @ih (offset+byteLen part) (by omega)
    show (laidEnd (offset+byteLen part) rest).toNat = _
    rw [rest_,next]
    omega

theorem validateChunks_laid {parts : List Bytes} {offset : UInt64} (fits : offset.toNat+parts.flatten.length < 2^64)
    (each : ∀ part ∈ parts,part ≠ [] ∧ part.length ≤ maxChunkBytes.toNat) :
    (laid hashes offset parts).foldlM (validateChunk path) offset = .ok (laidEnd offset parts) := by
  induction parts generalizing offset with
  | nil => rfl
  | cons part rest ih =>
    obtain ⟨⟨full,bound⟩,others⟩ := List.forall_mem_cons.mp each
    rw [List.flatten_cons,List.length_append] at fits
    have part_ : (byteLen part).toNat = part.length := byteLen_small (by omega)
    have next : (offset+byteLen part).toNat = offset.toNat+part.length := by
      rw [UInt64.toNat_add,part_]
      exact Nat.mod_eq_of_lt (by omega)
    have one : validateChunk path offset ⟨hashes.kappaOf part,offset,byteLen part⟩ = .ok (offset+byteLen part) := by
      unfold validateChunk
      rw [ok_bind (validateKappa_of hashes part)]
      have sized : ¬((byteLen part = 0 || maxChunkBytes < byteLen part) = true) := by
        simp only [Bool.or_eq_true,decide_eq_true_eq,not_or]
        refine ⟨fun zero => full ?_,UInt64.not_lt.mpr (UInt64.le_iff_toNat_le.mpr (by omega))⟩
        rw [zero] at part_; exact List.length_eq_zero_iff.mp part_.symm
      dsimp only
      rw [if_neg sized,if_neg (not_not.mpr rfl)]
      have added : checkedAdd offset (byteLen part) = some (offset+byteLen part) := if_pos (by rw [part_]; omega)
      rw [added]
      rfl
    rw [laid,List.foldlM_cons,ok_bind one]
    exact ih (by rw [next]; omega) others

end Describe

section Reassemble
variable {σ ω : Type} {fetch : σ → Str → Except LiveError (Option Bytes) × σ} {writeAll : ω → Bytes → Except Str Unit × ω}

theorem reassembleChunks_laid {path : Str} {contents : Bytes} {parts : List Bytes} {before : Bytes} {offset : UInt64}
    (shape : contents = before ++ parts.flatten) (at_ : before.length = offset.toNat) (fits : contents.length < 2^64)
    (stored : ∀ chunk ∈ laid hashes offset parts,∀ store,
      (fetch store chunk.kappa).1 = .ok (some ((contents.drop chunk.offset.toNat).take chunk.size.toNat)))
    (whole : Bytes) (written : UInt64) (store : σ) (output : Bytes) :
    ∃ written' store',reassembleChunks hashes fetch writeVec path (laid hashes offset parts) whole written store output =
      (.ok (whole ++ parts.flatten,written'),store',output ++ parts.flatten) := by
  induction parts generalizing before offset whole written store output with
  | nil => exact ⟨written,store,by simp [laid,reassembleChunks]⟩
  | cons part rest ih =>
    obtain ⟨first,others⟩ := List.forall_mem_cons.mp stored
    rw [List.flatten_cons] at shape
    have length := congrArg List.length shape
    rw [List.length_append,List.length_append] at length
    have part_ : (byteLen part).toNat = part.length := byteLen_small (by omega)
    have held := first store
    dsimp only at held
    rw [part_,←at_,shape,List.drop_left,List.take_left] at held
    have next : (before ++ part).length = (offset+byteLen part).toNat := by
      rw [UInt64.toNat_add,part_,List.length_append,Nat.mod_eq_of_lt (by omega),at_]
    obtain ⟨written',store',ran⟩ := ih (by rw [shape,List.append_assoc]) next others (whole ++ part)
      (written+byteLen part) (fetch store (hashes.kappaOf part)).2 (output ++ part)
    refine ⟨written',store',?_⟩
    have fetched : fetch store (hashes.kappaOf part) = (.ok (some part),(fetch store (hashes.kappaOf part)).2) :=
      Prod.ext held rfl
    rw [laid,reassembleChunks,fetched]
    dsimp only
    rw [if_neg (not_not.mpr rfl),if_neg (not_not.mpr rfl)]
    show reassembleChunks hashes fetch writeVec path _ _ _ _ (output ++ part) = _
    rw [ran,List.flatten_cons,List.append_assoc,List.append_assoc]

def Matches (hashes : Hashes) (part : Bytes) (chunk : ManifestChunk) : Prop :=
  hashes.kappaOf part = chunk.kappa ∧ byteLen part = chunk.size

-- However the loop ends, whole chunks were written, each after its check.
theorem reassembleChunks_written {path : Str} (chunks : List ManifestChunk) (whole : Bytes) (written : UInt64) (store : σ)
    (sink : ω) : ∃ parts : List Bytes,List.Forall₂ (Matches hashes) parts (chunks.take parts.length) ∧
      (reassembleChunks hashes fetch writeAll path chunks whole written store sink).2.2 =
        parts.foldl (fun sink bytes => (writeAll sink bytes).2) sink ∧
      ∀ done,(reassembleChunks hashes fetch writeAll path chunks whole written store sink).1 = .ok done →
        parts.length = chunks.length ∧ done.1 = whole ++ parts.flatten := by
  induction chunks generalizing whole written store sink with
  | nil =>
    refine ⟨[],.nil,rfl,fun done finished => ?_⟩
    cases finished
    exact ⟨rfl,(List.append_nil _).symm⟩
  | cons chunk rest ih =>
    have stopped (error : LiveError) (later : σ) : ∃ parts : List Bytes,
        List.Forall₂ (Matches hashes) parts ((chunk :: rest).take parts.length) ∧
        ((.error error,later,sink) : Except LiveError (Bytes × UInt64) × σ × ω).2.2 =
          parts.foldl (fun sink bytes => (writeAll sink bytes).2) sink ∧
        ∀ done,((.error error,later,sink) : Except LiveError (Bytes × UInt64) × σ × ω).1 = .ok done →
          parts.length = (chunk :: rest).length ∧ done.1 = whole ++ parts.flatten :=
      ⟨[],.nil,rfl,fun done finished => by cases finished⟩
    unfold reassembleChunks
    split
    · exact stopped _ _
    · exact stopped _ _
    · rename_i bytes later fetched
      split
      · exact stopped _ _
      · rename_i sized; split
        · exact stopped _ _
        · rename_i named
          have fits : Matches hashes bytes chunk := ⟨not_not.mp named,not_not.mp sized⟩
          split
          · rename_i error sink' refused
            refine ⟨[bytes],.cons fits .nil,?_,fun done finished => by cases finished⟩
            show sink' = (writeAll sink bytes).2
            rw [refused]
          · rename_i sink' taken
            obtain ⟨parts,matched,state,finished⟩ := ih (whole ++ bytes) (written+chunk.size) later sink'
            refine ⟨bytes :: parts,.cons fits matched,?_,fun done ran => ?_⟩
            · rw [state,List.foldl_cons,taken]
            · obtain ⟨length,all⟩ := finished done ran
              exact ⟨by rw [List.length_cons,List.length_cons,length],by rw [all,List.flatten_cons,List.append_assoc]⟩

theorem foldl_writeVec (parts : List Bytes) (output : Bytes) :
    parts.foldl (fun sink bytes => (writeVec sink bytes).2) output = output ++ parts.flatten := by
  induction parts generalizing output with
  | nil => exact (List.append_nil output).symm
  | cons part rest ih =>
    rw [List.foldl_cons,List.flatten_cons,←List.append_assoc]
    exact ih (output ++ part)

theorem tiles_length {start : Nat} (tiles : Tiles start chunks stop)
    (bounds : ∀ chunk ∈ chunks,chunk.size ≤ maxChunkBytes) (matched : List.Forall₂ (Matches hashes) parts chunks) :
    start+parts.flatten.length = stop := by
  induction matched generalizing start with
  | nil => exact tiles
  | cons one others ih =>
    rename_i part chunk parts chunks
    obtain ⟨_,_,later⟩ := tiles
    obtain ⟨bound,rest⟩ := List.forall_mem_cons.mp bounds
    have length := byteLen_chunk one.2 bound
    have all := ih later rest
    rw [List.flatten_cons,List.length_append]
    omega

theorem checkWhole_ok (ok : checkWhole hashes file whole = .ok done) :
    hashes.kappaOf whole = file.blake3 ∧ ∀ expected,file.sha256 = some expected → hashes.sha256Of whole = expected := by
  unfold checkWhole at ok
  split at ok
  · cases ok
  · rename_i named
    refine ⟨not_not.mp named,fun expected declared => ?_⟩
    rw [declared] at ok
    dsimp only at ok
    split at ok
    · cases ok
    · rename_i same
      exact not_not.mp same

theorem reassembleFileTo_written (file : ManifestFile) (store : σ) (sink : ω) :
    ∃ parts : List Bytes,List.Forall₂ (Matches hashes) parts (file.chunks.take parts.length) ∧
      (reassembleFileTo hashes fetch writeAll file store sink).2.2 =
        parts.foldl (fun sink bytes => (writeAll sink bytes).2) sink := by
  unfold reassembleFileTo
  split
  · exact ⟨[],.nil,rfl⟩
  · obtain ⟨parts,matched,state,_⟩ := @reassembleChunks_written hashes σ ω fetch writeAll file.path file.chunks [] 0 store sink
    refine ⟨parts,matched,?_⟩
    split
    · rename_i ran
      rw [ran] at state
      exact state
    · rename_i ran
      rw [ran] at state
      exact state

theorem reassembleFile_verified
    (ok : (reassembleFile hashes fetch file store).1 = .ok bytes) : bytes.length = file.size.toNat ∧
      hashes.kappaOf bytes = file.blake3 ∧ ∀ expected,file.sha256 = some expected → hashes.sha256Of bytes = expected := by
  unfold reassembleFile reassembleFileTo at ok
  cases valid : validateFile file with
  | error e => rw [valid] at ok; cases ok
  | ok done =>
    rw [valid] at ok
    dsimp only at ok
    obtain ⟨parts,matched,state,finished⟩ :=
      @reassembleChunks_written hashes σ Bytes fetch writeVec file.path file.chunks [] 0 store []
    generalize reassembleChunks hashes fetch writeVec file.path file.chunks [] 0 store [] = ran at ok state finished
    obtain ⟨answer,later,output⟩ := ran
    cases answer with
    | error e => cases ok
    | ok result =>
      obtain ⟨whole,written⟩ := result
      dsimp only at ok state finished
      obtain ⟨length,all⟩ := finished _ rfl
      rw [foldl_writeVec] at state
      cases checked : checkWhole hashes file whole with
      | error e => rw [checked] at ok; cases ok
      | ok _ =>
        rw [checked] at ok; cases ok
        obtain ⟨tiles,bounds⟩ := validateFile_tiles valid
        rw [length,List.take_length] at matched
        have size := tiles_length tiles bounds matched
        have same := state.trans all.symm
        rw [same]
        refine ⟨?_,checkWhole_ok checked⟩
        rw [all,List.nil_append]; omega

end Reassemble

-- A described file validates and comes back from a store that holds its chunks,
-- and nothing comes back that is not what the manifest declares.
theorem chunked_files (hashes : Hashes) :
    (∀ path reader chunkBytes,validateFilePath path = .ok () → chunkBytes ≠ 0 → chunkBytes ≤ maxChunkBytes →
      Plain reader.answers → reader.contents.length < 2^64 →
      ∃ entry,describeFile hashes path reader chunkBytes = .ok entry ∧ validateFile entry = .ok () ∧
        Tiles 0 entry.chunks entry.size.toNat ∧ entry.size.toNat = reader.contents.length ∧
        ∀ {σ : Type} (fetch : σ → Str → Except LiveError (Option Bytes) × σ),
          (∀ chunk ∈ entry.chunks,∀ store,(fetch store chunk.kappa).1 =
            .ok (some ((reader.contents.drop chunk.offset.toNat).take chunk.size.toNat))) →
          ∀ store,(reassembleFile hashes fetch entry store).1 = .ok reader.contents) ∧
    (∀ {σ : Type} (fetch : σ → Str → Except LiveError (Option Bytes) × σ) file store bytes,
      (reassembleFile hashes fetch file store).1 = .ok bytes → bytes.length = file.size.toNat ∧
        hashes.kappaOf bytes = file.blake3 ∧ ∀ expected,file.sha256 = some expected → hashes.sha256Of bytes = expected) ∧
    ∀ {σ ω : Type} (fetch : σ → Str → Except LiveError (Option Bytes) × σ) (writeAll : ω → Bytes → Except Str Unit × ω)
      file store sink,∃ parts : List Bytes,List.Forall₂ (Matches hashes) parts (file.chunks.take parts.length) ∧
        (reassembleFileTo hashes fetch writeAll file store sink).2.2 =
          parts.foldl (fun sink bytes => (writeAll sink bytes).2) sink := by
  refine ⟨?_,fun fetch file store bytes ok => reassembleFile_verified ok,fun fetch writeAll file store sink =>
    reassembleFileTo_written file store sink⟩
  intro path reader chunkBytes pathed positive bound plain small
  have room : 0 < chunkBytes.toNat := by
    have nonzero : chunkBytes.toNat ≠ 0 := fun zero => positive (UInt64.toNat_inj.mp zero)
    omega
  obtain ⟨parts,described,covered,each⟩ := @describeChunks_ok hashes chunkBytes.toNat room reader plain [] [] 0
  have fits : (0 : UInt64).toNat+parts.flatten.length < 2^64 := by
    rw [covered]
    show 0+_ < _
    omega
  have bounds : ∀ part ∈ parts,part ≠ [] ∧ part.length ≤ maxChunkBytes.toNat :=
    fun part member => ⟨(each part member).1,Nat.le_trans (each part member).2 (UInt64.le_iff_toNat_le.mp bound)⟩
  have size : (laidEnd 0 parts).toNat = reader.contents.length := by
    rw [laidEnd_length fits,covered]
    exact Nat.zero_add _
  have valid : validateFile ⟨path,laidEnd 0 parts,none,some (hashes.sha256Of reader.contents),
      hashes.kappaOf reader.contents,laid hashes 0 parts⟩ = .ok () := by
    unfold validateFile
    dsimp only
    rw [ok_bind pathed]
    have sha256 : (some (hashes.sha256Of reader.contents)).mapM (fun sha256 => validateDigest sha256 sha256Prefix) =
        .ok (some ()) := by
      show (validateDigest (hashes.sha256Of reader.contents) sha256Prefix).map some = _
      rw [validateSha256_of]
      rfl
    have media : (none : Option Str).mapM (validateMediaType path) = (.ok none : Except LiveError (Option Unit)) := rfl
    rw [ok_bind media,ok_bind sha256,ok_bind (validateKappa_of hashes _),ok_bind (validateChunks_laid fits bounds)]
    exact if_neg (not_not.mpr rfl)
  refine ⟨_,?_,valid,(validateFile_tiles valid).1,size,?_⟩
  · unfold describeFile
    have within : ¬((chunkBytes = 0 || maxChunkBytes < chunkBytes) = true) := by
      simp only [Bool.or_eq_true,decide_eq_true_eq,not_or]
      exact ⟨positive,UInt64.not_lt.mpr bound⟩
    rw [ok_bind pathed,if_neg within,described]
    rfl
  · intro σ fetch stored store
    obtain ⟨written,store',ran⟩ := @reassembleChunks_laid hashes σ fetch path reader.contents parts [] 0
      (by rw [covered]; rfl) rfl small stored [] 0 store []
    unfold reassembleFile reassembleFileTo
    rw [valid]
    dsimp only
    rw [ran]
    dsimp only
    rw [List.nil_append,covered]
    have whole : checkWhole hashes ⟨path,laidEnd 0 parts,none,some (hashes.sha256Of reader.contents),
        hashes.kappaOf reader.contents,laid hashes 0 parts⟩ reader.contents = .ok () := by
      unfold checkWhole
      dsimp only
      rw [if_neg (not_not.mpr rfl),if_neg (not_not.mpr rfl)]
    rw [whole]
    rfl

def trickle : Reader := ⟨[1,2,3],[.short 0,.interrupted,.short 0]⟩

def padded (bytes : Bytes) : Bytes := (bytes ++ List.replicate 32 0).take 32

def paddedHashes : Hashes where
  blake3 := padded
  sha256 := padded
  blake3_length bytes := by simp [padded]
  sha256_length bytes := by simp [padded]

def trickleFetch (store : Unit) (kappa : Str) : Except LiveError (Option Bytes) × Unit :=
  (.ok (([[1,2],[3]] : List Bytes).find? fun bytes => paddedHashes.kappaOf bytes = kappa),store)

theorem trickle_described : describeChunks paddedHashes 2 trickle [] [] 0 =
    .ok ([1,2,3],[⟨paddedHashes.kappaOf [1,2],0,2⟩,⟨paddedHashes.kappaOf [3],2,1⟩],3) := by
  rw [describeChunks]
  simp [trickle,readFull,Except.map]
  rw [describeChunks]
  simp [readFull]
  exact ⟨⟨by decide,by decide⟩,rfl⟩

theorem trickle_round_trip : ∃ entry,describeFile paddedHashes "w.bin".toList trickle 2 = .ok entry ∧
    validateFile entry = .ok () ∧ (reassembleFile paddedHashes trickleFetch entry ()).1 = .ok trickle.contents := by
  obtain ⟨entry,described,valid,_,_,back⟩ := (chunked_files paddedHashes).1 "w.bin".toList trickle 2 (by decide)
    (by decide) (by decide) (by unfold Plain; simp [trickle]) (by decide)
  refine ⟨entry,described,valid,back trickleFetch (fun chunk member store => ?_) ()⟩
  have named : entry.chunks = [⟨paddedHashes.kappaOf [1,2],0,2⟩,⟨paddedHashes.kappaOf [3],2,1⟩] := by
    unfold describeFile at described
    rw [ok_bind (show validateFilePath "w.bin".toList = .ok () by decide),if_neg (by decide)] at described
    rw [show (2 : UInt64).toNat = 2 from rfl,trickle_described] at described
    cases described
    rfl
  rw [named] at member
  cases store
  obtain rfl | last := List.mem_cons.mp member
  · decide
  · rw [List.mem_singleton.mp last]
    decide

end HologramLive.Repo
