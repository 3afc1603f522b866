import HologramLive.Artifact.Reference
import HologramLive.Cluster.Requests
import HologramLive.Oci.BlobReader
namespace HologramLive.BlobRanges
open Listing Cluster

inductive ByteRange where
  | whole
  | part (start len : Nat)
  | unsatisfiable
  | malformed
deriving DecidableEq, Repr

-- The arithmetic of a u64; nothing where a result leaves it.
def u64Add (a b : Nat) : Option Nat := if a + b < 2^64 then some (a + b) else none
def u64Sub (a b : Nat) : Option Nat := if b ≤ a then some (a - b) else none

def parseU64 (text : Str) : Option Nat := parseUnsigned (2^64) text

inductive Element where
  | malformed
  | past
  | held (start len : Nat)
deriving DecidableEq, Repr

def element (size : Nat) (part : Str) : Option Element :=
  match splitOnce '-' part with
  | none => some .malformed
  | some (before,after) =>
    let first := trimWhitespace before
    let last := trimWhitespace after
    if first = [] then
      match parseU64 last with
      | none => some .malformed
      | some n =>
        let n := min n size
        if n = 0 then some .past else (u64Sub size n).map fun start => .held start n
    else match parseU64 first with
      | none => some .malformed
      | some start =>
        if size ≤ start then some .past
        else
          let held := fun stop => do
            let length ← u64Sub stop start
            let len ← u64Add length 1
            pure (Element.held start len)
          if last = [] then (u64Sub size 1).bind held
          else match parseU64 last with
            | none => some .malformed
            | some stop => if start ≤ stop then (u64Sub size 1).bind fun final => held (min stop final) else some .malformed

def rangesOf (size : Nat) : List Str → List (Nat × Nat) → Bool → Option ByteRange
  | [],ranges,pastTheEnd => match ranges with
    | [] => some (if pastTheEnd then .unsatisfiable else .whole)
    | [(start,len)] => some (.part start len)
    | _ => some .whole
  | part :: rest,ranges,pastTheEnd => match element size part with
    | none => none
    | some .malformed => some .malformed
    | some .past => rangesOf size rest ranges true
    | some (.held start len) => rangesOf size rest (ranges ++ [(start,len)]) pastTheEnd

def elements (spec : Str) : List Str := ((spec.splitOn ',').map trimWhitespace).filter fun part => !part.isEmpty

def rangeSpec (header : Bytes) : Option Str := (toStr header).bind (stripPrefix "bytes=".toList)

def byteRange (header : Option Bytes) (size : Nat) : Option ByteRange :=
  match header with
  | none => some .whole
  | some header => match rangeSpec header with
    | none => some .malformed
    | some spec => rangesOf size (elements spec) [] false

structure BlobHeaders where
  contentDigest : Option Str
  etag : Option Str
  contentRange : Option Str
  contentLength : Option Nat
  contentType : Option Str
  contentTypeOptions : Option Str
  acceptRanges : Option Str
  cacheControl : Option Str
deriving DecidableEq, Repr

inductive BlobBody where
  | empty
  | text (text : Str)
  | bytes (reader : BlobRead) (start len : Nat)
deriving DecidableEq, Repr

structure BlobResponse where
  status : Nat
  headers : BlobHeaders
  body : BlobBody
deriving DecidableEq, Repr

def noHeaders : BlobHeaders := ⟨none,none,none,none,none,none,none,none⟩

def stampDigest (headers : BlobHeaders) (digest : Digest) : BlobHeaders :=
  {headers with contentDigest := some digest.asStr,etag := some ('"' :: digest.asStr ++ ['"'])}

def trimWeak : Str → Str
  | 'W' :: '/' :: rest => trimWeak rest
  | text => text

def notModified (headers : Headers) (digest : Digest) : Bool :=
  let values := (headers.filter fun row => row.1 = "if-none-match".toList).filterMap fun row => toStr row.2
  let entries := (values.flatMap fun value => value.splitOn ',').map fun entry =>
    trimMatches (· = '"') (trimWeak (trimWhitespace entry))
  entries.any fun entry => entry = ['*'] || entry = digest.asStr

def immutable : Str := "max-age=31536000".toList

def refuseRange (digest : Digest) (text : Str) : BlobResponse :=
  let headers := {noHeaders with
    contentType := some "text/plain; charset=utf-8".toList
    contentTypeOptions := some "nosniff".toList}
  ⟨416,{stampDigest headers digest with etag := none},.text text⟩

def answer (out : BlobHeaders) (size : Nat) (reader : Option BlobRead) (start len : Nat) : BlobResponse :=
  ⟨if len ≠ size then 206 else 200,
    {out with
      contentLength := some len
      contentType := some "application/octet-stream".toList
      acceptRanges := some "bytes".toList
      cacheControl := some immutable},
    match reader with
    | some reader => .bytes reader start len
    | none => .empty⟩

def get (asked : Digest) (headers : Headers) (size : Nat) (reader : Option BlobRead) : Option BlobResponse :=
  let out := stampDigest noHeaders asked
  if notModified headers asked then some ⟨304,{out with cacheControl := some immutable},.empty⟩
  else match byteRange (headers.get "range".toList) size with
    | none => none
    | some .whole => some (answer out size reader 0 size)
    | some (.part start len) => do
      let past ← u64Add start len
      let final ← u64Sub past 1
      let range := "bytes ".toList ++ decimal start ++ '-' :: decimal final ++ '/' :: decimal size
      pure (answer {out with contentRange := some range} size reader start len)
    | some .unsatisfiable =>
      let refused := refuseRange asked "invalid range: failed to overlap\n".toList
      some {refused with headers := {refused.headers with contentRange := some ("bytes */".toList ++ decimal size)}}
    | some .malformed => some (refuseRange asked "invalid range\n".toList)

inductive RangeSpec where
  | between (first last : Nat)
  | onward (first : Nat)
  | suffix (count : Nat)
deriving DecidableEq, Repr

def RangeSpec.Covers (size : Nat) : RangeSpec → Nat → Prop
  | .between first last,i => first ≤ i ∧ i ≤ last ∧ i < size
  | .onward first,i => first ≤ i ∧ i < size
  | .suffix count,i => size ≤ i + count ∧ i < size

inductive Reads : Str → RangeSpec → Prop
  | between (one : '-' ∉ before) (first : parseU64 (trimWhitespace before) = some n)
      (last : parseU64 (trimWhitespace after) = some m) (ordered : n ≤ m) : Reads (before ++ '-' :: after) (.between n m)
  | onward (one : '-' ∉ before) (first : parseU64 (trimWhitespace before) = some n) (rest : trimWhitespace after = []) :
      Reads (before ++ '-' :: after) (.onward n)
  | suffix (one : '-' ∉ before) (none : trimWhitespace before = []) (last : parseU64 (trimWhitespace after) = some n) :
      Reads (before ++ '-' :: after) (.suffix n)

def RangeSpec.bytes (size : Nat) : RangeSpec → Option (Nat × Nat)
  | .between first last => if first < size then some (first,min last (size - 1) - first + 1) else none
  | .onward first => if first < size then some (first,size - first) else none
  | .suffix count => if min count size = 0 then none else some (size - min count size,min count size)

variable {size start len : Nat} {text : Str} {spec : RangeSpec}

theorem bytes_some (reads : Reads text spec) (named : spec.bytes size = some (start,len)) :
    1 ≤ len ∧ start + len ≤ size ∧ ∀ i,(start ≤ i ∧ i < start + len) ↔ spec.Covers size i := by
  cases reads with
  | between _ _ _ ordered =>
    simp only [RangeSpec.bytes] at named
    split at named
    · cases named
      simp only [RangeSpec.Covers]
      refine ⟨by omega,by omega,fun i => by omega⟩
    · cases named
  | onward =>
    simp only [RangeSpec.bytes] at named
    split at named
    · cases named
      simp only [RangeSpec.Covers]
      refine ⟨by omega,by omega,fun i => by omega⟩
    · cases named
  | suffix =>
    simp only [RangeSpec.bytes] at named
    split at named
    · cases named
    · cases named
      simp only [RangeSpec.Covers]
      refine ⟨by omega,by omega,fun i => by omega⟩

theorem bytes_none (named : spec.bytes size = none) (i : Nat) : ¬spec.Covers size i := by
  cases spec with
  | between first last =>
    simp only [RangeSpec.bytes] at named
    split at named
    · cases named
    · simp only [RangeSpec.Covers]; omega
  | onward first =>
    simp only [RangeSpec.bytes] at named
    split at named
    · cases named
    · simp only [RangeSpec.Covers]; omega
  | suffix count =>
    simp only [RangeSpec.bytes] at named
    split at named
    · simp only [RangeSpec.Covers]; omega
    · cases named

theorem parse_given (parsed : parseU64 text = some n) : text ≠ [] := by
  rintro rfl
  have nothing : parseU64 [] = none := by decide
  rw [nothing] at parsed
  cases parsed

def RangeSpec.element (size : Nat) (spec : RangeSpec) : Element :=
  match spec.bytes size with
  | some (start,len) => .held start len
  | none => .past

theorem element_reads (fits : size < 2^64) (reads : Reads text spec) :
    element size text = some (spec.element size) := by
  cases reads with
  | @between before n after m one first last ordered =>
    unfold element RangeSpec.element RangeSpec.bytes
    rw [splitOnce_append one]
    simp only [if_neg (parse_given first),if_neg (parse_given last),first,last,if_pos ordered]
    by_cases past : size ≤ n
    · rw [if_pos past,if_neg (by omega)]
    · have one : u64Sub size 1 = some (size - 1) := if_pos (by omega)
      have two : u64Sub (min m (size - 1)) n = some (min m (size - 1) - n) := if_pos (by omega)
      have three : u64Add (min m (size - 1) - n) 1 = some (min m (size - 1) - n + 1) := if_pos (by omega)
      rw [if_neg past,if_pos (by omega),one,Option.bind_some,two,Option.bind_eq_bind,Option.bind_some,three]
      rfl
  | @onward before n after one first rest =>
    unfold element RangeSpec.element RangeSpec.bytes
    rw [splitOnce_append one]
    simp only [if_neg (parse_given first),first,if_pos rest]
    by_cases past : size ≤ n
    · rw [if_pos past,if_neg (by omega)]
    · have one : u64Sub size 1 = some (size - 1) := if_pos (by omega)
      have two : u64Sub (size - 1) n = some (size - 1 - n) := if_pos (by omega)
      have three : u64Add (size - 1 - n) 1 = some (size - n) := by
        have sum : size - 1 - n + 1 = size - n := by omega
        rw [u64Add,sum,if_pos (by omega)]
      rw [if_neg past,if_pos (by omega),one,Option.bind_some,two,Option.bind_eq_bind,Option.bind_some,three]
      rfl
  | @suffix before after n one blank last =>
    unfold element RangeSpec.element RangeSpec.bytes
    rw [splitOnce_append one]
    simp only [if_pos blank,last]
    split
    · rfl
    · have within : u64Sub size (min n size) = some (size - min n size) := if_pos (by omega)
      rw [within]
      rfl

theorem held_reads (held : element size text = some (.held start len)) : ∃ spec,Reads text spec := by
  unfold element at held
  split at held
  · cases held
  · rename_i before after split
    obtain ⟨rfl,one⟩ := splitOnce_parts split
    dsimp only at held
    split at held
    · rename_i blank
      split at held
      · cases held
      · rename_i n last; exact ⟨.suffix n,.suffix one blank last⟩
    · split at held
      · cases held
      · rename_i n first; split at held
        · cases held
        · split at held
          · rename_i rest; exact ⟨.onward n,.onward one first rest⟩
          · split at held
            · cases held
            · rename_i m last; split at held
              · rename_i ordered; exact ⟨.between n m,.between one first last ordered⟩
              · cases held

theorem element_total (fits : size < 2^64) (text : Str) : ∃ answer,element size text = some answer := by
  have sub {a b : Nat} (within : b ≤ a) : u64Sub a b = some (a - b) := if_pos within
  have add {a : Nat} (within : a + 1 < 2^64) : u64Add a 1 = some (a + 1) := if_pos within
  have len {start stop : Nat} (ordered : start ≤ stop) (within : stop < size) :
      ∃ answer,(do
        let length ← u64Sub stop start
        let len ← u64Add length 1
        pure (Element.held start len)) = some answer := by
    rw [sub ordered,Option.bind_eq_bind,Option.bind_some,add (by omega)]
    exact ⟨_,rfl⟩
  unfold element
  split
  · exact ⟨_,rfl⟩
  · dsimp only
    split
    · split
      · exact ⟨_,rfl⟩
      · split
        · exact ⟨_,rfl⟩
        · rw [sub (Nat.min_le_right ..)]; exact ⟨_,rfl⟩
    · split
      · exact ⟨_,rfl⟩
      · split
        · exact ⟨_,rfl⟩
        · rename_i within
          have final : u64Sub size 1 = some (size - 1) := sub (by omega)
          rw [final,Option.bind_some]; split
          · exact len (by omega) (by omega)
          · split
            · exact ⟨_,rfl⟩
            · split
              · exact len (by omega) (by omega)
              · exact ⟨_,rfl⟩

theorem rangesOf_total (fits : size < 2^64) (parts : List Str) (ranges : List (Nat × Nat)) (pastTheEnd : Bool) :
    ∃ answer,rangesOf size parts ranges pastTheEnd = some answer := by
  induction parts generalizing ranges pastTheEnd with
  | nil =>
    unfold rangesOf
    split <;> exact ⟨_,rfl⟩
  | cons part rest ih =>
    obtain ⟨answer,asked⟩ := element_total fits part
    unfold rangesOf
    rw [asked]
    cases answer with
    | malformed => exact ⟨_,rfl⟩
    | past => exact ih ..
    | held start len => exact ih ..

-- A part comes of one element of the list; the others start past the end.
theorem rangesOf_part (answered : rangesOf size parts ranges pastTheEnd = some (.part start len)) :
    (ranges = [(start,len)] ∧ ∀ part ∈ parts,element size part = some .past) ∨
    (ranges = [] ∧ ∃ before text after,parts = before ++ text :: after ∧ element size text = some (.held start len) ∧
      ∀ other ∈ before ++ after,element size other = some .past) := by
  induction parts generalizing ranges pastTheEnd with
  | nil =>
    unfold rangesOf at answered
    split at answered
    · split at answered <;> cases answered
    · cases answered
      exact .inl ⟨rfl,fun part none => (by cases none)⟩
    · cases answered
  | cons part rest ih =>
    unfold rangesOf at answered
    split at answered
    · cases answered
    · cases answered
    · rename_i past
      rcases ih answered with ⟨one,others⟩ | ⟨empty,before,text,after,rfl,held,others⟩
      · exact .inl ⟨one,List.forall_mem_cons.mpr ⟨past,others⟩⟩
      · exact .inr ⟨empty,part :: before,text,after,rfl,held,List.forall_mem_cons.mpr ⟨past,others⟩⟩
    · rename_i first count held
      rcases ih answered with ⟨one,others⟩ | ⟨none,_⟩
      · obtain ⟨rfl,same⟩ := List.append_eq_singleton_iff.mp one |>.resolve_right fun full => (by simp at full)
        obtain ⟨rfl,rfl⟩ := Prod.mk.inj (List.singleton_inj.mp same)
        exact .inr ⟨rfl,[],part,rest,rfl,held,others⟩
      · simp at none

-- A part is the bytes of one range of the header, and no other range of it names
-- a byte.
structure Denotes (header : Option Bytes) (size start len : Nat) : Prop where
  given : 1 ≤ len
  inside : start + len ≤ size
  named : ∃ value spec before text after range,header = some value ∧ rangeSpec value = some spec ∧
    elements spec = before ++ text :: after ∧ Reads text range ∧
    (∀ i,(start ≤ i ∧ i < start + len) ↔ range.Covers size i) ∧
    ∀ other ∈ before ++ after,∀ range,Reads other range → ∀ i,¬range.Covers size i

theorem held_covers (fits : size < 2^64) (held : element size text = some (.held start len)) :
    ∃ range,Reads text range ∧ 1 ≤ len ∧ start + len ≤ size ∧ ∀ i,(start ≤ i ∧ i < start + len) ↔ range.Covers size i := by
  obtain ⟨range,reads⟩ := held_reads held
  have answer := (element_reads fits reads).symm.trans held
  unfold RangeSpec.element at answer
  split at answer
  · rename_i named
    cases answer
    exact ⟨range,reads,bytes_some reads named⟩
  · cases answer

theorem past_covers (fits : size < 2^64) (past : element size text = some .past)
    (reads : Reads text range) (i : Nat) : ¬range.Covers size i := by
  have answer := (element_reads fits reads).symm.trans past
  unfold RangeSpec.element at answer
  split at answer
  · cases answer
  · rename_i nothing
    exact bytes_none nothing i

theorem byteRange_denotes {header : Option Bytes} (fits : size < 2^64)
    (answered : byteRange header size = some (.part start len)) : Denotes header size start len := by
  unfold byteRange at answered
  split at answered
  · cases answered
  · rename_i value
    split at answered
    · cases answered
    · rename_i spec asked
      rcases rangesOf_part answered with ⟨none,_⟩ | ⟨_,before,text,after,listed,held,others⟩
      · cases none
      · obtain ⟨range,reads,given,inside,covers⟩ := held_covers fits held
        exact ⟨given,inside,value,spec,before,text,after,range,rfl,asked,listed,reads,covers,fun other member range reads =>
          past_covers fits (others other member) reads⟩

theorem byteRange_total (header : Option Bytes) (fits : size < 2^64) : ∃ given,byteRange header size = some given := by
  unfold byteRange
  split
  · exact ⟨_,rfl⟩
  · split
    · exact ⟨_,rfl⟩
    · exact rangesOf_total fits ..

def RangeSpec.answer (size : Nat) (range : RangeSpec) : ByteRange :=
  match range.bytes size with
  | some (start,len) => .part start len
  | none => .unsatisfiable

theorem byteRange_single {spec text : Str} (fits : size < 2^64)
    (asked : rangeSpec value = some spec) (listed : elements spec = [text]) (reads : Reads text range) :
    byteRange (some value) size = some (range.answer size) := by
  unfold byteRange
  simp only [asked,listed,rangesOf,element_reads fits reads]
  unfold RangeSpec.element RangeSpec.answer
  cases range.bytes size with
  | none => rfl
  | some named => rfl

def partText (start len size : Nat) : Str :=
  "bytes ".toList ++ decimal start ++ '-' :: decimal (start + len - 1) ++ '/' :: decimal size

def Shows (size : Nat) (response : BlobResponse) : ByteRange → Prop
  | .whole => response.status = 200 ∧ response.headers.contentRange = none
  | .part start len => (len ≠ size → response.status = 206) ∧ response.headers.contentRange = some (partText start len size)
  | .unsatisfiable =>
    response.status = 416 ∧ response.headers.contentRange = some ("bytes */".toList ++ decimal size)
  | .malformed => response.status = 416 ∧ response.headers.contentRange = none

theorem get_shows (asked : Digest) (headers : Headers) (fits : size < 2^64) (reader : Option BlobRead) :
    ∃ response,get asked headers size reader = some response ∧
      (notModified headers asked = true → response.status = 304 ∧ response.headers.contentRange = none) ∧
      (notModified headers asked = false → ∀ given,byteRange (headers.get "range".toList) size = some given →
        Shows size response given) := by
  unfold get
  cases fresh : notModified headers asked with
  | true => exact ⟨_,rfl,fun _ => ⟨rfl,rfl⟩,fun stale => (by cases stale)⟩
  | false =>
    obtain ⟨given,ranged⟩ := byteRange_total (headers.get "range".toList) fits
    simp only [ranged,Bool.false_eq_true,if_false]
    cases given with
    | whole =>
      refine ⟨_,rfl,fun stale => (by cases stale),fun _ given same => ?_⟩
      cases same
      exact ⟨if_neg (not_not_intro rfl),rfl⟩
    | part start len =>
      have denotes := byteRange_denotes fits ranged
      have sum : u64Add start len = some (start + len) := if_pos (by have := denotes.inside; omega)
      have final : u64Sub (start + len) 1 = some (start + len - 1) := if_pos (by have := denotes.given; omega)
      simp only [sum,Option.bind_eq_bind,Option.bind_some,final]
      refine ⟨_,rfl,fun stale => (by cases stale),fun _ given same => ?_⟩
      cases same
      exact ⟨fun shorter => if_pos shorter,rfl⟩
    | unsatisfiable =>
      refine ⟨_,rfl,fun stale => (by cases stale),fun _ given same => ?_⟩
      cases same
      exact ⟨rfl,rfl⟩
    | malformed =>
      refine ⟨_,rfl,fun stale => (by cases stale),fun _ given same => ?_⟩
      cases same
      exact ⟨rfl,rfl⟩

theorem partial_ranged (fits : size < 2^64) (answered : get asked headers size reader = some response) (partly : response.status = 206) :
    response.headers.contentRange.isSome = true := by
  obtain ⟨shown,same,stale,fresh⟩ := get_shows asked headers fits reader
  obtain rfl := Option.some.inj (answered.symm.trans same)
  cases modified : notModified headers asked with
  | true => rw [(stale modified).1] at partly; cases partly
  | false =>
    obtain ⟨given,ranged⟩ := byteRange_total (headers.get "range".toList) fits
    have shows_ := fresh modified given ranged
    cases given with
    | whole => rw [shows_.1] at partly; cases partly
    | part start len => rw [shows_.2]; rfl
    | unsatisfiable => rw [shows_.1] at partly; cases partly
    | malformed => rw [shows_.1] at partly; cases partly

-- For every header and every size: no step overflows, a part is the bytes of one
-- range of the header, a header of one range is answered as what it names, and a
-- 206 carries a range; a part shorter than the blob is a 206 that carries its own.
theorem ranges_served (asked : Digest) (headers : Headers) (size : UInt64) (reader : Option BlobRead) :
    (∀ header,∃ given,byteRange header size.toNat = some given ∧
      ∀ start len,given = .part start len → Denotes header size.toNat start len) ∧
    (∀ value spec text range,rangeSpec value = some spec → elements spec = [text] → Reads text range →
      byteRange (some value) size.toNat = some (range.answer size.toNat)) ∧
    ∃ response,get asked headers size.toNat reader = some response ∧
      (response.status = 206 → response.headers.contentRange.isSome = true) ∧
      (notModified headers asked = true → response.status = 304 ∧ response.headers.contentRange = none) ∧
      (notModified headers asked = false → ∀ given,byteRange (headers.get "range".toList) size.toNat = some given →
        (∀ start len,given = .part start len → len ≠ size.toNat) → Shows size.toNat response given) := by
  have fits : size.toNat < 2^64 := size.toNat_lt
  refine ⟨fun header => ?_,fun value spec text range => byteRange_single fits,?_⟩
  · obtain ⟨given,answered⟩ := byteRange_total header fits
    exact ⟨given,answered,fun start len same => byteRange_denotes fits (same ▸ answered)⟩
  · obtain ⟨response,answered,stale,fresh⟩ := get_shows asked headers fits reader
    exact ⟨response,answered,partial_ranged fits answered,stale,fun modified given ranged _ => fresh modified given ranged⟩

-- A range past the end is refused with the size in the same header.
theorem refusal_ranged : ¬∀ (asked : Digest) (headers : Headers) (size : UInt64) (reader : Option BlobRead)
    (response : BlobResponse),get asked headers size.toNat reader = some response →
      (response.status = 206 ↔ response.headers.contentRange.isSome = true) := by
  intro every
  have shown : (get (Digest.ofHex .sha256 []) [("range".toList,asciiBytes "bytes=9-")] (4 : UInt64).toNat none).map
      (fun response => (response.status,response.headers.contentRange.isSome)) = some (416,true) := by decide
  obtain ⟨response,answered,same⟩ := Option.map_eq_some_iff.mp shown
  obtain ⟨status,ranged⟩ := Prod.mk.inj same
  have partly := (every _ _ _ _ response answered).mpr ranged
  rw [status] at partly
  cases partly

end HologramLive.BlobRanges
