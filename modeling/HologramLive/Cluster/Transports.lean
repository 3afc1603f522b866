import HologramLive.Cluster.Convergence
import HologramLive.Artifact.ReferenceGrammar
import HologramLive.Repo.Canonical
namespace HologramLive.Cluster
open Tables Rpc Objects Fallible LocalRegistry List Mirror
open Objects.ObjectStore (Read)

def visible (c : Char) : Bool := c = '\t' || (32 ≤ c.toNat && c.toNat < 127)

theorem visible_small (seen : visible c = true) : c.toNat < 128 := by
  unfold visible at seen
  simp only [Bool.or_eq_true,decide_eq_true_eq,Bool.and_eq_true] at seen
  rcases seen with rfl | ⟨-,small⟩
  · decide
  · omega

theorem utf8_small (small : c.toNat < 128) : String.utf8EncodeChar c = [UInt8.ofNat c.toNat] := by
  have size : c.utf8Size = 1 := by
    unfold Char.utf8Size
    change c.val.toNat < 128 at small
    rw [if_pos (UInt32.le_iff_toNat_le.mpr (show c.val.toNat ≤ 127 by omega))]
  rw [String.utf8EncodeChar_eq_singleton size]
  rfl

variable {text : Str}

theorem toUtf8_visible (seen : ∀ c ∈ text,visible c = true) : toUtf8 text = text.map fun c => UInt8.ofNat c.toNat := by
  induction text with
  | nil => rfl
  | cons c rest ih =>
    have first := utf8_small (visible_small (seen c mem_cons_self))
    have later := ih fun d among => seen d (mem_cons_of_mem _ among)
    rw [map_cons,←later]
    unfold toUtf8
    rw [flatMap_cons,first]
    rfl

def visibleByte (b : UInt8) : Bool := b = 9 || (32 ≤ b && b < 127)

theorem visibleByte_char : ∀ n < 256,visibleByte (UInt8.ofNat n) = true →
    visible (Char.ofNat n) = true ∧ UInt8.ofNat (Char.ofNat n).toNat = UInt8.ofNat n := by decide +kernel

theorem visible_byte : ∀ n < 128,visible (Char.ofNat n) = true → visibleByte (UInt8.ofNat n) = true := by decide

variable {value : Bytes}

theorem toStr_iff : toStr value = some text ↔ value = toUtf8 text ∧ ∀ c ∈ text,visible c = true := by
  unfold toStr
  constructor
  · intro read
    split at read
    · rename_i seen
      cases read
      have each : ∀ b ∈ value,visible (Char.ofNat b.toNat) = true ∧ UInt8.ofNat (Char.ofNat b.toNat).toNat = b := by
        intro b among
        have here : visibleByte b = true := all_eq_true.mp seen b among
        have byte := visibleByte_char b.toNat b.toNat_lt (by rwa [UInt8.ofNat_toNat])
        rwa [UInt8.ofNat_toNat] at byte
      have shown : ∀ c ∈ value.map (fun b => Char.ofNat b.toNat),visible c = true := by
        intro c among
        obtain ⟨b,inside,rfl⟩ := mem_map.mp among
        exact (each b inside).1
      refine ⟨?_,shown⟩
      rw [toUtf8_visible shown,map_map]
      exact ((map_congr_left fun b inside => (each b inside).2).trans (map_id value)).symm
    · cases read
  · rintro ⟨rfl,seen⟩
    have small : ∀ c ∈ text,(UInt8.ofNat c.toNat).toNat = c.toNat := fun c among => by
      have := visible_small (seen c among)
      rw [UInt8.toNat_ofNat']
      omega
    have shown : (text.map fun c => UInt8.ofNat c.toNat).all (fun b => b = 9 || (32 ≤ b && b < 127)) = true := by
      refine all_eq_true.mpr fun b among => ?_
      obtain ⟨c,inside,rfl⟩ := mem_map.mp among
      exact visible_byte c.toNat (visible_small (seen c inside)) (by rw [Char.ofNat_toNat]; exact seen c inside)
    rw [toUtf8_visible seen,if_pos shown,map_map]
    refine congrArg some ((map_congr_left fun c among => ?_).trans (map_id text))
    simp only [Function.comp_apply,small c among,Char.ofNat_toNat,id_eq]

-- Header values as the HTTP crate makes them of texts: visible text passes as its
-- bytes, and whatever passes is the bytes of the text.
structure HeaderValues where
  fromStr : Str → Option Bytes
  passes : ∀ text,(∀ c ∈ text,visible c = true) → fromStr text = some (toUtf8 text)
  spelled : ∀ text value,fromStr text = some value → value = toUtf8 text

def blank (b : UInt8) : Bool := b = 32 || b = 9

def fieldValue (value : Bytes) : Bytes := ((value.dropWhile blank).reverse.dropWhile blank).reverse

def carried (text : Str) : Option Str := toStr (fieldValue (toUtf8 text))

structure Plain (text : Str) : Prop where
  seen : ∀ c ∈ text,visible c = true
  first : ∀ c,text.head? = some c → c ≠ ' ' ∧ c ≠ '\t'
  last : ∀ c,text.getLast? = some c → c ≠ ' ' ∧ c ≠ '\t'

theorem dropWhile_same {α : Type} {p : α → Bool} {items : List α} :
    (items.dropWhile p).length = items.length ↔ ∀ a,items.head? = some a → p a = false := by
  cases items with
  | nil => simp
  | cons a rest =>
    rw [dropWhile_cons]
    have shorter := (dropWhile_suffix p (l := rest)).length_le
    cases drops : p a with
    | true => simp [drops]; omega
    | false => simp [drops]

theorem fieldValue_same : fieldValue value = value ↔
    (∀ b,value.head? = some b → blank b = false) ∧ ∀ b,value.getLast? = some b → blank b = false := by
  have left := (dropWhile_suffix blank (l := value)).length_le
  have right := (dropWhile_suffix blank (l := (value.dropWhile blank).reverse)).length_le
  rw [length_reverse] at right
  constructor
  · intro same
    have whole : ((value.dropWhile blank).reverse.dropWhile blank).length = value.length := by
      rw [←length_reverse]
      exact congrArg length same
    have begins : (value.dropWhile blank).length = value.length := by omega
    have kept : value.dropWhile blank = value := (dropWhile_suffix blank).eq_of_length begins
    rw [kept,←@length_reverse _ value] at whole
    refine ⟨dropWhile_same.mp begins,fun b last => dropWhile_same.mp whole b ?_⟩
    rwa [List.head?_reverse]
  · rintro ⟨first,last⟩
    have kept : value.dropWhile blank = value := (dropWhile_suffix blank).eq_of_length (dropWhile_same.mpr first)
    have ends : value.reverse.dropWhile blank = value.reverse :=
      (dropWhile_suffix blank).eq_of_length (dropWhile_same.mpr (by simpa using last))
    unfold fieldValue
    rw [kept,ends,reverse_reverse]

theorem blank_char : ∀ n < 128,blank (UInt8.ofNat n) = false ↔ Char.ofNat n ≠ ' ' ∧ Char.ofNat n ≠ '\t' := by decide

theorem carried_iff : carried text = some text ↔ Plain text := by
  unfold carried
  rw [toStr_iff]
  have blanks : ∀ c,visible c = true → (blank (UInt8.ofNat c.toNat) = false ↔ c ≠ ' ' ∧ c ≠ '\t') := by
    intro c seen
    have here := blank_char c.toNat (visible_small seen)
    rwa [Char.ofNat_toNat] at here
  constructor
  · rintro ⟨same,seen⟩
    rw [toUtf8_visible seen] at same
    obtain ⟨first,last⟩ := fieldValue_same.mp same
    refine ⟨seen,fun c head => (blanks c (seen c (mem_of_mem_head? head))).mp (first _ ?_),
      fun c tail => (blanks c (seen c (mem_of_getLast? tail))).mp (last _ ?_)⟩
    · rw [List.head?_map,head]
      rfl
    · rw [getLast?_map,tail]
      rfl
  · rintro ⟨seen,first,last⟩
    refine ⟨?_,seen⟩
    rw [toUtf8_visible seen,fieldValue_same]
    refine ⟨fun b head => ?_,fun b tail => ?_⟩
    · rw [List.head?_map] at head
      obtain ⟨c,here,rfl⟩ := Option.map_eq_some_iff.mp head
      exact (blanks c (seen c (mem_of_mem_head? here))).mpr (first c here)
    · rw [getLast?_map] at tail
      obtain ⟨c,here,rfl⟩ := Option.map_eq_some_iff.mp tail
      exact (blanks c (seen c (mem_of_getLast? here))).mpr (last c here)

def safeCharacter (c : Char) : Char := if asciiAlnum c || c = '.' || c = '-' || c = '_' || c = ' ' then c else '_'

def safeFilename (filename : Str) : Str :=
  let basename := (filename.reverse.takeWhile fun c => c ≠ '/' && c ≠ '\\').reverse
  let safe := basename.map safeCharacter
  if safe.isEmpty then "download".toList else safe

section Route
variable (values : HeaderValues)

def headerOr (error : Str) (text : Str) : Except LiveError Bytes :=
  match values.fromStr text with
  | some value => .ok value
  | none => .error (.protocol (error ++ ": failed to parse header value".toList))

def objectResponse (object : ObjectContent) : Except LiveError (Headers × Bytes) := do
  let contentType ← headerOr values "build object response".toList object.metadata.mediaType
  let etag ← headerOr values "build object response".toList ('"' :: object.metadata.id ++ ['"'])
  let disposition ← match object.metadata.filename with
    | none => pure []
    | some filename => do
      let value ← headerOr values "build object response".toList
        ("attachment; filename=\"".toList ++ safeFilename filename ++ ['"'])
      pure [("content-disposition".toList,value)]
  return ([("content-type".toList,contentType),("etag".toList,etag)] ++ disposition,object.bytes)

def getClusterObject (object : ObjectContent) : Except LiveError (Headers × Bytes) := do
  let (headers,body) ← objectResponse values object
  let kind ← headerOr values "cluster object kind header".toList object.metadata.kind
  let created ← headerOr values "cluster object timestamp header".toList (decimal object.metadata.createdAtMillis)
  let filename ← match object.metadata.filename with
    | none => pure []
    | some filename => do
      let value ← headerOr values "cluster object filename header".toList filename
      pure [("x-hologram-object-filename".toList,value)]
  return (headers ++ [("x-hologram-object-kind".toList,kind),("x-hologram-object-created-at-millis".toList,created)] ++ filename,body)

def statusOf : LiveError → Nat
  | .authentication _ => 401
  | .authorization _ => 403
  | .notFound _ => 404
  | .conflict _ | .unknownCommitState _ => 409
  | .capability _ => 501
  | .config _ | .protocol _ | .invalidHolo _ => 400
  | .io _ | .transport _ => 500

-- What the HTTP network makes of an answer: a header that does not read as text is
-- dropped, and a body over the bound is refused while it is read. Of a failure only
-- the status is looked at.
def received (endpoint : Str) (bound : Option Nat) (answer : Except LiveError (Headers × Bytes)) : Except LiveError ClusterResponse :=
  match answer with
  | .error e => .ok ⟨statusOf e,[],[]⟩
  | .ok (headers,body) =>
    match bound.filter fun limit => limit < body.length with
    | some limit => .error (.capability ("cluster peer ".toList ++ endpoint ++ " response exceeds its ".toList ++
        decimal limit ++ " byte ceiling".toList))
    | none => .ok ⟨200,headers.filterMap fun row => (toStr (fieldValue row.2)).map fun text => (row.1,text),body⟩

end Route

-- An object of a peer, as its registry read and verified it, with the reads that its
-- copy behind a blob channel gives.
structure PeerObject (blake3 : Blake3) where
  entry : ObjectMetadata
  bytes : Bytes
  addressed : entry.id = blake3.id bytes
  reader : List Read
  reads : ObjectStore.streamed [] 0 reader = .ok (bytes,saturated bytes.length)

-- How a peer is dialled; a recipient is an origin or a node id.
structure Dialled where
  endpoint : Str
  recipient : Str
  clean : separated recipient = false

def httpPeer {blake3 : Blake3} (values : HeaderValues) (dialled : Dialled) (object : PeerObject blake3) : Peer where
  endpoint := dialled.endpoint
  recipient := some dialled.recipient
  send path _ bound :=
    if path = objectsPath ++ "/".toList ++ object.entry.id then
      received dialled.endpoint bound (getClusterObject values ⟨object.entry,object.bytes⟩)
    else received dialled.endpoint bound (.error (.notFound "no such route".toList))
  blobChannel := none

def channelPeer {blake3 : Blake3} (values : HeaderValues) (dialled : Dialled) (object : PeerObject blake3) : Peer :=
  {httpPeer values dialled object with
    blobChannel := some {
      fetch := fun id => if id = object.entry.id then .ok object.bytes.length else .error (.io "no such blob".toList)
      reader := fun id => if id = object.entry.id then .ok object.reader else .error (.io "no such blob".toList)}}

-- What the object route can put into headers, and what of it the other end reads.
structure Passes (values : HeaderValues) (metadata : ObjectMetadata) : Prop where
  mediaType : (values.fromStr metadata.mediaType).isSome = true
  kind : (values.fromStr metadata.kind).isSome = true
  filename : ∀ filename,metadata.filename = some filename → (values.fromStr filename).isSome = true

structure Carries (values : HeaderValues) (metadata : ObjectMetadata) : Prop where
  kind : (values.fromStr metadata.kind).isSome = true
  mediaType : Plain metadata.mediaType
  filename : ∀ filename,metadata.filename = some filename → Plain filename

section Answers
variable {values : HeaderValues} {blake3 : Blake3} {dialled : Dialled} {object : PeerObject blake3}

theorem headerOr_visible {error text : Str} (seen : ∀ c ∈ text,visible c = true) :
    headerOr values error text = .ok (toUtf8 text) := by
  unfold headerOr
  rw [values.passes text seen]

variable {error : Str}

theorem headerOr_some (passes : (values.fromStr text).isSome = true) :
    headerOr values error text = .ok (toUtf8 text) := by
  unfold headerOr
  obtain ⟨value,passed⟩ := Option.isSome_iff_exists.mp passes
  rw [passed,values.spelled text value passed]

theorem headerOr_ok (passed : headerOr values error text = .ok value) : (values.fromStr text).isSome = true := by
  unfold headerOr at passed
  split at passed
  · rename_i found
    rw [found]
    rfl
  · cases passed

theorem alnum_visible : ∀ n < 128,asciiAlnum (Char.ofNat n) = true → visible (Char.ofNat n) = true := by decide

theorem safeCharacter_visible (c : Char) : visible (safeCharacter c) = true := by
  unfold safeCharacter
  split
  · rename_i safe
    simp only [Bool.or_eq_true,decide_eq_true_eq] at safe
    rcases safe with (((alnum | rfl) | rfl) | rfl) | rfl
    · have small : c.toNat < 128 := by
        have := asciiAlnum_range alnum
        omega
      have seen := alnum_visible c.toNat small (by rwa [Char.ofNat_toNat])
      rwa [Char.ofNat_toNat] at seen
    all_goals decide
  · decide

theorem safeFilename_visible (filename : Str) : ∀ c ∈ safeFilename filename,visible c = true := by
  unfold safeFilename
  dsimp only
  split
  · decide
  · intro c among
    obtain ⟨d,-,rfl⟩ := List.mem_map.mp among
    exact safeCharacter_visible d

theorem lowerHex_visible : ∀ n < 128,isLowerHex (Char.ofNat n) = true → visible (Char.ofNat n) = true := by decide

theorem id_visible (bytes : Bytes) : ∀ c ∈ blake3.id bytes,visible c = true := by
  intro c among
  rcases List.mem_append.mp among with start | digit
  · have each : ∀ d ∈ blake3Prefix,visible d = true := by decide
    exact each c start
  · have lower := List.all_eq_true.mp (toHex_digest blake3 bytes).2 c digit
    have small : c.toNat < 128 := by
      have range := lower
      unfold isLowerHex at range
      simp only [Bool.or_eq_true,Bool.and_eq_true,decide_eq_true_eq] at range
      rcases range with ⟨-,most⟩ | ⟨-,most⟩
      · exact Nat.lt_of_le_of_lt (UInt32.le_iff_toNat_le.mp (Char.le_def.mp most)) (by decide)
      · exact Nat.lt_of_le_of_lt (UInt32.le_iff_toNat_le.mp (Char.le_def.mp most)) (by decide)
    have seen := lowerHex_visible c.toNat small (by rwa [Char.ofNat_toNat])
    rwa [Char.ofNat_toNat] at seen

theorem decimal_visible (n : Nat) : ∀ c ∈ decimal n,visible c = true := by
  intro c among
  have digit : c.isDigit = true := Nat.isDigit_of_mem_toDigits (by decide) (by decide) among
  have alnum : asciiAlnum c = true := by
    unfold asciiAlnum
    rw [digit]
    simp
  have small : c.toNat < 128 := by
    have := asciiAlnum_range alnum
    omega
  have seen := alnum_visible c.toNat small (by rwa [Char.ofNat_toNat])
  rwa [Char.ofNat_toNat] at seen

variable (metadata : ObjectMetadata)

def etagText : Str := '"' :: metadata.id ++ ['"']
def dispositionText (filename : Str) : Str := "attachment; filename=\"".toList ++ safeFilename filename ++ ['"']

def otherHeaders : Headers :=
  [("etag".toList,toUtf8 (etagText metadata))] ++
  (match metadata.filename with
    | none => []
    | some filename => [("content-disposition".toList,toUtf8 (dispositionText filename))]) ++
  [("x-hologram-object-kind".toList,toUtf8 metadata.kind),
    ("x-hologram-object-created-at-millis".toList,toUtf8 (decimal metadata.createdAtMillis))]

def filenameHeaders : Headers :=
  match metadata.filename with
  | none => []
  | some filename => [("x-hologram-object-filename".toList,toUtf8 filename)]

theorem etag_visible (object : PeerObject blake3) : ∀ c ∈ etagText object.entry,visible c = true := by
  intro c among
  unfold etagText at among
  rcases List.mem_cons.mp among with rfl | later
  · decide
  · rcases List.mem_append.mp later with inside | last
    · rw [object.addressed] at inside
      exact id_visible object.bytes c inside
    · rw [List.mem_singleton] at last
      subst last
      decide

theorem disposition_visible (filename : Str) : ∀ c ∈ dispositionText filename,visible c = true := by
  intro c among
  unfold dispositionText at among
  rcases List.mem_append.mp among with start | last
  · rcases List.mem_append.mp start with first | inside
    · have each : ∀ d ∈ "attachment; filename=\"".toList,visible d = true := by decide
      exact each c first
    · exact safeFilename_visible filename c inside
  · rw [mem_singleton] at last
    subst last
    decide

theorem getClusterObject_passes (passes : Passes values object.entry) :
    getClusterObject values ⟨object.entry,object.bytes⟩ =
      .ok (("content-type".toList,toUtf8 object.entry.mediaType) :: (otherHeaders object.entry ++ filenameHeaders object.entry),
        object.bytes) := by
  have etag := @headerOr_visible values "build object response".toList _ (etag_visible object)
  have created := @headerOr_visible values "cluster object timestamp header".toList _ (decimal_visible object.entry.createdAtMillis)
  unfold etagText at etag
  unfold getClusterObject objectResponse otherHeaders filenameHeaders
  simp only [headerOr_some passes.mediaType,headerOr_some passes.kind,etag,created]
  cases named : object.entry.filename with
  | none => rfl
  | some filename =>
    have disposition := @headerOr_visible values "build object response".toList _ (disposition_visible filename)
    unfold dispositionText at disposition
    simp only [headerOr_some (passes.filename filename named),disposition]
    rfl

theorem getClusterObject_ok
    (answered : getClusterObject values ⟨object.entry,object.bytes⟩ = .ok answer) : Passes values object.entry := by
  unfold getClusterObject objectResponse at answered
  obtain ⟨⟨headers,body⟩,response,answered⟩ := bind_ok answered
  obtain ⟨contentType,typed,response⟩ := bind_ok response
  obtain ⟨kind,kinded,answered⟩ := bind_ok answered
  obtain ⟨created,-,answered⟩ := bind_ok answered
  refine ⟨headerOr_ok typed,headerOr_ok kinded,fun filename named => ?_⟩
  simp only [named] at answered
  obtain ⟨value,passed,-⟩ := bind_ok answered
  exact headerOr_ok passed

def Apart (name : Str) (headers : Headers) : Prop := ∀ row ∈ headers,row.1.map Char.toLower ≠ name.map Char.toLower

def readable (headers : Headers) : List (Str × Str) :=
  headers.filterMap fun row => (toStr (fieldValue row.2)).map fun text => (row.1,text)

theorem header_apart {status : Nat} {name : Str} {headers : Headers} {body : Bytes} (apart : Apart name headers) :
    (ClusterResponse.mk status (readable headers) body).header name = none := by
  unfold ClusterResponse.header
  rw [Option.map_eq_none_iff,find?_eq_none]
  intro row among
  obtain ⟨source,inside,made⟩ := mem_filterMap.mp among
  obtain ⟨text,-,rfl⟩ := Option.map_eq_some_iff.mp made
  simpa using apart source inside

theorem header_at {status : Nat} {name : Str} {value : Bytes} {before after : Headers} {body : Bytes}
    (left : Apart name before) (right : Apart name after) :
    (ClusterResponse.mk status (readable (before ++ (name,value) :: after)) body).header name = toStr (fieldValue value) := by
  have first := @header_apart status name before body left
  have second := @header_apart status name after body right
  unfold ClusterResponse.header readable at *
  simp only [Option.map_eq_none_iff] at first second
  rw [filterMap_append,find?_append,first,Option.none_or,filterMap_cons]
  cases read : toStr (fieldValue value) with
  | none =>
    simp only [Option.map_none]
    rw [second]
    rfl
  | some text => simp

theorem otherHeaders_apart :
    Apart "content-type".toList (otherHeaders metadata) ∧ Apart "x-hologram-object-filename".toList (otherHeaders metadata) := by
  unfold otherHeaders Apart
  cases metadata.filename with
  | none =>
    simp only [append_nil,cons_append,nil_append,mem_cons,not_mem_nil,or_false,forall_eq_or_imp,forall_eq]
    decide
  | some filename =>
    simp only [cons_append,nil_append,mem_cons,not_mem_nil,or_false,forall_eq_or_imp,forall_eq]
    decide

def answerOf (bytes : Bytes) : ClusterResponse :=
  ⟨200,readable (("content-type".toList,toUtf8 metadata.mediaType) :: (otherHeaders metadata ++ filenameHeaders metadata)),bytes⟩

theorem answerOf_mediaType (bytes : Bytes) :
    (answerOf metadata bytes).header "content-type".toList = carried metadata.mediaType := by
  refine @header_at _ _ _ [] _ _ (fun row among => (by cases among)) fun row among => ?_
  rcases mem_append.mp among with other | named
  · exact (otherHeaders_apart metadata).1 row other
  · unfold filenameHeaders at named
    split at named
    · cases named
    · rw [mem_singleton] at named
      subst named
      exact of_decide_eq_true rfl

theorem answerOf_filename (bytes : Bytes) :
    (answerOf metadata bytes).header "x-hologram-object-filename".toList = metadata.filename.bind carried := by
  have others : Apart "x-hologram-object-filename".toList
      (("content-type".toList,toUtf8 metadata.mediaType) :: otherHeaders metadata) := by
    intro row among
    rcases mem_cons.mp among with rfl | other
    · exact of_decide_eq_true rfl
    · exact (otherHeaders_apart metadata).2 row other
  unfold answerOf filenameHeaders
  cases metadata.filename with
  | none => rw [append_nil]; exact header_apart others
  | some filename => rw [←cons_append]; exact header_at others fun row among => (by cases among)

theorem objectPath_clean : rejectSeparators "GET".toList (objectsPath ++ "/".toList ++ object.entry.id) none dialled.recipient = .ok () := by
  refine rejectSeparators_ok.mpr ⟨by decide,?_,fun text asked => (by cases asked),dialled.clean⟩
  have start : separated (objectsPath ++ "/".toList) = false := by decide
  have address : separated object.entry.id = false := by
    refine any_eq_false.mpr fun c among => ?_
    rw [object.addressed] at among
    have seen := id_visible object.bytes c among
    intro line
    simp only [Bool.or_eq_true,decide_eq_true_eq] at line
    rcases line with rfl | rfl
    · exact absurd seen (by decide)
    · exact absurd seen (by decide)
  unfold separated at *
  rw [any_append,start,address]
  rfl

theorem signedGet_http (bound : Option Nat) :
    signedGet (httpPeer values dialled object) dialled.recipient (objectsPath ++ "/".toList ++ object.entry.id) none bound =
      received dialled.endpoint bound (getClusterObject values ⟨object.entry,object.bytes⟩) := by
  refine (ok_bind objectPath_clean).trans ?_
  simp only [httpPeer,if_true]

section Outcomes
variable {decodePage : Bytes → Except Str ObjectPage} {maxObjects maxBytes : Nat} {now : Moment} {store : Objects.ObjectStore}

theorem local_put (kind mediaType : Str) (filename : Option Str) :
    checkStored object.entry.id ((localNode blake3 decodePage maxObjects maxBytes).registry.putObject store now kind mediaType
      filename object.bytes) = (.ok true,(store.put blake3 now.millis.toNat kind mediaType filename object.bytes).2) :=
  checkStored_ok object.addressed.symm

theorem fetchObject_passes (passes : Passes values object.entry) (short : object.bytes.length ≤ maxBytes) :
    fetchObject (localNode blake3 decodePage maxObjects maxBytes) (httpPeer values dialled object) dialled.recipient now store
      object.entry = (.ok true,(store.put blake3 now.millis.toNat object.entry.kind
        ((carried object.entry.mediaType).getD "application/octet-stream".toList) (object.entry.filename.bind carried)
        object.bytes).2) := by
  have answered : signedGet (httpPeer values dialled object) dialled.recipient (objectsPath ++ "/".toList ++ object.entry.id) none
      (some maxBytes) = .ok (answerOf object.entry object.bytes) := by
    rw [signedGet_http,getClusterObject_passes passes]
    have fits : (some maxBytes).filter (fun limit => decide (limit < object.bytes.length)) = none := by
      simp [Option.filter,Nat.not_lt.mpr short]
    simp only [received,fits]
    rfl
  have whole : (answerOf object.entry object.bytes).body = object.bytes := rfl
  have success : (answerOf object.entry object.bytes).isSuccess = true := rfl
  unfold fetchObject
  rw [show (localNode blake3 decodePage maxObjects maxBytes).maxBytes = maxBytes from rfl,answered]
  simp only [success,Bool.not_true,Bool.false_eq_true,if_false,whole,Nat.not_lt.mpr short,answerOf_mediaType,answerOf_filename]
  exact local_put _ _ _

theorem statusOf_failure (e : LiveError) (body : Bytes) : (ClusterResponse.mk (statusOf e) [] body).isSuccess = false := by
  cases e <;> rfl

theorem fetchObject_fails (refused : ¬(Passes values object.entry ∧ object.bytes.length ≤ maxBytes)) :
    ∃ e,fetchObject (localNode blake3 decodePage maxObjects maxBytes) (httpPeer values dialled object) dialled.recipient now store
      object.entry = (.error e,store) := by
  unfold fetchObject
  rw [show (localNode blake3 decodePage maxObjects maxBytes).maxBytes = maxBytes from rfl,signedGet_http]
  cases answered : getClusterObject values ⟨object.entry,object.bytes⟩ with
  | error e => simp only [received,statusOf_failure,Bool.not_false,if_true]; exact ⟨_,rfl⟩
  | ok answer =>
    have passes := getClusterObject_ok answered
    rw [getClusterObject_passes passes] at answered
    cases answered
    have long : maxBytes < object.bytes.length := Nat.lt_of_not_le fun short => refused ⟨passes,short⟩
    have beyond : (some maxBytes).filter (fun limit => decide (limit < object.bytes.length)) = some maxBytes := by
      simp [Option.filter,long]
    simp only [received,beyond]
    exact ⟨_,rfl⟩

theorem fetchAndImportObject_channel (offered : (channelPeer values dialled object).blobChannel = some channel) :
    fetchAndImportObject (localNode blake3 decodePage maxObjects maxBytes) channel now store object.entry =
      (.ok true,(store.put blake3 now.millis.toNat object.entry.kind object.entry.mediaType object.entry.filename object.bytes).2) := by
  cases offered
  have imported : importReader (localNode blake3 decodePage maxObjects maxBytes) now store object.entry object.reader =
      (localNode blake3 decodePage maxObjects maxBytes).registry.putObject store now object.entry.kind object.entry.mediaType
        object.entry.filename object.bytes :=
    localNode_streams blake3 decodePage maxObjects maxBytes _ rfl _ _ _ _ _ _ _ object.reads
  simp only [fetchAndImportObject,if_true,imported]
  exact local_put _ _ _

end Outcomes

theorem Carries.passes (carries : Carries values object.entry) : Passes values object.entry where
  mediaType := by rw [values.passes _ carries.mediaType.seen]; rfl
  kind := carries.kind
  filename name named := by rw [values.passes _ (carries.filename name named).seen]; rfl

theorem plain_mediaType : (carried mediaType).getD "application/octet-stream".toList = mediaType ↔ Plain mediaType := by
  constructor
  · intro same
    cases read : carried mediaType with
    | some text =>
      rw [read] at same
      cases same
      exact carried_iff.mp read
    | none =>
      have shown : carried "application/octet-stream".toList = some "application/octet-stream".toList := by decide
      rw [read,Option.getD_none] at same
      rw [←same,shown] at read
      cases read
  · intro plain
    rw [carried_iff.mpr plain]
    rfl

theorem plain_filename : filename.bind carried = filename ↔ ∀ name,filename = some name → Plain name := by
  cases filename with
  | none => simp
  | some name => simp [carried_iff]

end Answers

section Registry
variable {blake3 : Blake3} {store : Objects.ObjectStore}

variable {bytes : Bytes}

theorem getObject_corrupt {id digest : Str} (read : digestOf id = .ok digest)
    (blob : store.blobs[digest]? = some bytes) (other : blake3.id bytes ≠ id) :
    ∃ e,verifyContent blake3 id bytes = .error e ∧ getObject blake3 store id = .error e := by
  have got : store.get id = .ok bytes := get_ok.mpr ⟨digest,read,blob⟩
  refine ⟨_,if_neg other,(ok_bind got).trans ?_⟩
  unfold verifyContent
  rw [if_neg other]
  rfl

variable {filename : Option Str}

theorem getObject_kept {id : Str} (corrupt : ¬LocalRegistry.Intact blake3 store id) :
    getObject blake3 (store.put blake3 now kind mediaType filename bytes).2 id = getObject blake3 store id := by
  unfold LocalRegistry.Intact at corrupt
  push Not at corrupt
  obtain ⟨digest,old,read,blob,other⟩ := corrupt
  have kept : (store.put blake3 now kind mediaType filename bytes).2.blobs[digest]? = some old := by
    rw [put_blobs]
    split
    · rw [blob,Option.getD_some]
    · exact blob
  obtain ⟨e,refused,before⟩ := getObject_corrupt read blob other
  obtain ⟨e',refused',after⟩ := getObject_corrupt read kept other
  rw [refused] at refused'
  cases refused'
  rw [before,after]

theorem getObject_put (intact : LocalRegistry.Intact blake3 store (blake3.id bytes)) :
    ∃ found,getObject blake3 (store.put blake3 now kind mediaType filename bytes).2 (blake3.id bytes) =
      .ok ⟨(store.put blake3 now kind mediaType filename bytes).1,found⟩ := by
  have held : LocalRegistry.Held blake3 (store.put blake3 now kind mediaType filename bytes).2 (blake3.id bytes) :=
    put_held.mpr (.inr ⟨rfl,intact⟩)
  obtain ⟨content,got⟩ := held_iff.mpr held
  obtain ⟨digest,read,blob,whole,record⟩ := getObject_ok.mp got
  have same := (digest_id read).mpr rfl
  rw [same,put_records,if_pos rfl] at record
  exact ⟨content.bytes,by rw [got]; cases content; cases record; rfl⟩

end Registry

section Entries
variable {blake3 : Blake3} {decodePage : Bytes → Except Str ObjectPage} {maxObjects maxBytes : Nat} {peer : Peer}
  {recipient : Str} {clock : Nat → Moment} {round : Round Objects.ObjectStore} {metadata : ObjectMetadata}

theorem replicateEntry_oversize (big : maxBytes < metadata.size) :
    (replicateEntry (localNode blake3 decodePage maxObjects maxBytes) peer clock recipient round metadata).1.registry =
      round.registry := by
  unfold replicateEntry
  rw [if_pos (show (localNode blake3 decodePage maxObjects maxBytes).maxBytes < metadata.size from big)]

theorem replicateEntry_registry (small : ¬maxBytes < metadata.size) :
    (replicateEntry (localNode blake3 decodePage maxObjects maxBytes) peer clock recipient round metadata).1.registry =
      (replicateObject (localNode blake3 decodePage maxObjects maxBytes) peer recipient (clock (round.transferred+1))
        round.registry metadata).2 := by
  unfold replicateEntry
  rw [if_neg (show ¬(localNode blake3 decodePage maxObjects maxBytes).maxBytes < metadata.size from small)]
  dsimp only
  split
  · rename_i ran
    rw [ran]
  · rename_i ran
    rw [ran]
  · rename_i ran
    rw [ran]
    split <;> rfl

variable {store : Objects.ObjectStore}

theorem replicateObject_held (held : getObject blake3 store metadata.id = .ok content) :
    (replicateObject (localNode blake3 decodePage maxObjects maxBytes) peer recipient now store metadata).2 = store := by
  have answered : (localNode blake3 decodePage maxObjects maxBytes).registry.getObject store now metadata.id = (.ok content,store) :=
    congrArg (·,store) held
  unfold replicateObject
  rw [answered]

theorem replicateObject_missing (missing : ¬∃ content,getObject blake3 store metadata.id = .ok content) :
    replicateObject (localNode blake3 decodePage maxObjects maxBytes) peer recipient now store metadata =
      match peer.blobChannel with
      | some channel => fetchAndImportObject (localNode blake3 decodePage maxObjects maxBytes) channel now store metadata
      | none => fetchObject (localNode blake3 decodePage maxObjects maxBytes) peer recipient now store metadata := by
  unfold replicateObject
  cases got : getObject blake3 store metadata.id with
  | ok content => exact absurd ⟨content,got⟩ missing
  | error e =>
    have answered : (localNode blake3 decodePage maxObjects maxBytes).registry.getObject store now metadata.id = (.error e,store) :=
      congrArg (·,store) got
    cases peer.blobChannel <;> simp only [answered]

end Entries

-- An entry comes to the same object over both transports exactly when it is over the
-- bound or held already, when other bytes stand under its id, or when its media type
-- and filename are texts that a header field carries, its kind fits into a header and
-- its bytes are within the bound. Unless other bytes stand there, whole registries agree.
theorem transports_agree_iff (values : HeaderValues) (blake3 : Blake3) (decodePage : Bytes → Except Str ObjectPage)
    (maxObjects maxBytes : Nat) (dialled : Dialled) (object : PeerObject blake3) (clock : Nat → Moment)
    (round : Round Objects.ObjectStore) :
    let node := localNode blake3 decodePage maxObjects maxBytes
    let http := (replicateEntry node (httpPeer values dialled object) clock dialled.recipient round object.entry).1.registry
    let blobs := (replicateEntry node (channelPeer values dialled object) clock dialled.recipient round object.entry).1.registry
    let alike := maxBytes < object.entry.size ∨
      (∃ content,getObject blake3 round.registry object.entry.id = .ok content) ∨
      Carries values object.entry ∧ object.bytes.length ≤ maxBytes
    (getObject blake3 http object.entry.id = getObject blake3 blobs object.entry.id ↔
      alike ∨ ¬LocalRegistry.Intact blake3 round.registry object.entry.id) ∧ (alike → http = blobs) := by
  intro node http blobs alike
  by_cases big : maxBytes < object.entry.size
  · have one : http = round.registry := replicateEntry_oversize big
    have two : blobs = round.registry := replicateEntry_oversize big
    rw [one,two]
    exact ⟨⟨fun _ => .inl (.inl big),fun _ => rfl⟩,fun _ => rfl⟩
  by_cases held : ∃ content,getObject blake3 round.registry object.entry.id = .ok content
  · obtain ⟨content,got⟩ := held
    have one : http = round.registry := (replicateEntry_registry big).trans (replicateObject_held got)
    have two : blobs = round.registry := (replicateEntry_registry big).trans (replicateObject_held got)
    rw [one,two]
    exact ⟨⟨fun _ => .inl (.inr (.inl ⟨content,got⟩)),fun _ => rfl⟩,fun _ => rfl⟩
  have blobsPut : blobs = (round.registry.put blake3 (clock (round.transferred+1)).millis.toNat object.entry.kind
      object.entry.mediaType object.entry.filename object.bytes).2 := by
    refine (replicateEntry_registry big).trans ?_
    rw [replicateObject_missing held]
    exact congrArg Prod.snd (fetchAndImportObject_channel (show (channelPeer values dialled object).blobChannel = some _ from rfl))
  by_cases delivered : Passes values object.entry ∧ object.bytes.length ≤ maxBytes
  · have httpPut : http = (round.registry.put blake3 (clock (round.transferred+1)).millis.toNat object.entry.kind
        ((carried object.entry.mediaType).getD "application/octet-stream".toList) (object.entry.filename.bind carried)
        object.bytes).2 := by
      refine (replicateEntry_registry big).trans ?_
      rw [replicateObject_missing held]
      exact congrArg Prod.snd (fetchObject_passes delivered.1 delivered.2)
    have same : Carries values object.entry → http = blobs := by
      intro carries
      rw [httpPut,blobsPut,plain_mediaType.mpr carries.mediaType,plain_filename.mpr carries.filename]
    refine ⟨⟨fun agree => ?_,?_⟩,?_⟩
    · by_cases intact : LocalRegistry.Intact blake3 round.registry object.entry.id
      · rw [object.addressed] at intact agree; rw [httpPut,blobsPut] at agree
        obtain ⟨one,left⟩ := getObject_put intact
        obtain ⟨two,right⟩ := getObject_put intact
        rw [left,right] at agree
        have records := congrArg ObjectContent.metadata (Except.ok.inj agree)
        exact .inl (.inr (.inr ⟨⟨delivered.1.kind,plain_mediaType.mp (congrArg ObjectMetadata.mediaType records),
          plain_filename.mp (congrArg ObjectMetadata.filename records)⟩,delivered.2⟩))
      · exact .inr intact
    · rintro ((beyond | there | ⟨carries,-⟩) | corrupt)
      · exact absurd beyond big
      · exact absurd there held
      · rw [same carries]
      · rw [httpPut,blobsPut,getObject_kept corrupt,getObject_kept corrupt]
    · rintro (beyond | there | ⟨carries,-⟩)
      · exact absurd beyond big
      · exact absurd there held
      · exact same carries
  · have httpKept : http = round.registry := by
      refine (replicateEntry_registry big).trans ?_
      rw [replicateObject_missing held]
      obtain ⟨e,failed⟩ := fetchObject_fails delivered
      exact congrArg Prod.snd failed
    have plainly : ¬(Carries values object.entry ∧ object.bytes.length ≤ maxBytes) := fun both => delivered ⟨both.1.passes,both.2⟩
    refine ⟨⟨fun agree => ?_,?_⟩,?_⟩
    · by_cases intact : LocalRegistry.Intact blake3 round.registry object.entry.id
      · rw [httpKept,blobsPut] at agree; rw [object.addressed] at intact agree held
        obtain ⟨found,got⟩ := getObject_put intact
        exact absurd ⟨_,agree.trans got⟩ held
      · exact .inr intact
    · rintro ((beyond | there | both) | corrupt)
      · exact absurd beyond big
      · exact absurd there held
      · exact absurd both plainly
      · rw [httpKept,blobsPut,getObject_kept corrupt]
    · rintro (beyond | there | both)
      · exact absurd beyond big
      · exact absurd there held
      · exact absurd both plainly

-- A header value as the HTTP crate takes it: a tab, or no control character.
def headerValues : HeaderValues where
  fromStr text := if (toUtf8 text).all fun b => b = 9 || (32 ≤ b && b ≠ 127) then some (toUtf8 text) else none
  passes text seen := by
    have read := toStr_iff.mpr ⟨rfl,seen⟩
    unfold toStr at read
    split at read
    · rename_i shown
      refine if_pos (all_eq_true.mpr fun b among => ?_)
      have here := all_eq_true.mp shown b among
      simp only [Bool.or_eq_true,decide_eq_true_eq,Bool.and_eq_true,UInt8.lt_iff_toNat_lt] at here ⊢
      rcases here with tab | ⟨low,high⟩
      · exact .inl tab
      · refine .inr ⟨low,fun same => ?_⟩
        rw [same] at high; exact Nat.lt_irrefl _ high
    · cases read
  spelled text value passed := by
    split at passed
    · cases passed
      rfl
    · cases passed

def accented : PeerObject Mirror.blake3 where
  entry := {Mirror.entry [97] with filename := some "\u00e9.txt".toList}
  bytes := [97]
  addressed := rfl
  reader := [.bytes [97]]
  reads := rfl

theorem accented_differs : validateFilename "\u00e9.txt".toList = .ok "\u00e9.txt".toList ∧
    let transferred := fun peer => getObject Mirror.blake3
      (replicateEntry (Mirror.node 1000) peer (fun _ => ⟨0,0⟩) origin ⟨ObjectStore.empty,0,⟨0,0⟩⟩ accented.entry).1.registry
      accented.entry.id
    (transferred (httpPeer headerValues ⟨origin,origin,rfl⟩ accented)).toOption.map (·.metadata.filename) =
      some none ∧
    (transferred (channelPeer headerValues ⟨origin,origin,rfl⟩ accented)).toOption.map (·.metadata.filename) =
      some (some "\u00e9.txt".toList) := by
  decide

end HologramLive.Cluster
