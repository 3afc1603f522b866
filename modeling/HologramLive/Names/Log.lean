import HologramLive.Lib.JsJson

namespace Names
open Js Tables

def FORMAT : Text := ascii "hologram.names-log/v1"

-- The hash and the signature scheme of the platform, texts in and texts out
-- (hexadecimal); a public key or a signature that does not decode verifies nothing.
structure Primitives (κ : Type) where
  numerals : Numerals
  sha : Text → Text
  publicKey : κ → Text
  sign : κ → Text → Text
  verifies : Text → Text → Text → Bool
  correct : ∀ key message,verifies (publicKey key) message (sign key message) = true

def keyOrder {α : Type} (a b : Text × α) : Prop := (compare a.1 b.1).isLE = true

instance {α : Type} (a b : Text × α) : Decidable (keyOrder a b) := inferInstanceAs (Decidable (_ = true))

mutual
def canon : Value → Text
  | .arr items => 91 :: (join (canonItems items) ++ [93])
  | .obj rows =>
    123 :: (join (((canonRows rows).insertionSort keyOrder).map fun row => quoted row.1 ++ 58 :: row.2) ++ [125])
  | .null => stringify .null
  | .bool value => stringify (.bool value)
  | .num text => stringify (.num text)
  | .str text => stringify (.str text)
termination_by structural value => value
def canonItems : List Value → List Text
  | [] => []
  | item :: rest => canon item :: canonItems rest
termination_by structural items => items
def canonRows : List (Text × Value) → List (Text × Text)
  | [] => []
  | (key,value) :: rest => (key,canon value) :: canonRows rest
termination_by structural rows => rows
end

def textOrNull : Option Text → Value
  | some text => .str text
  | none => .null

-- path -> sha256
abbrev Files := Table Text Text

def Files.value (files : Files) : Value := .obj (files.toList.map fun row => (row.1,.str row.2))

-- What the log keeps on disk: names.log.jsonl and names.key.
structure Disk (κ : Type) where
  log : Option Text
  key : Option κ

-- `latest` holds "name\0rev\0path" -> sha256 and "name" -> rev.
structure NamesLog (κ : Type) where
  witness : Text
  key : κ
  seq : Nat
  prev : Option Text
  latest : Table Text Value

structure Opened (κ : Type) where
  disk : Disk κ
  log : NamesLog κ

def fileKey (name revision path : Text) : Text := name ++ 0 :: (revision ++ 0 :: path)

def rowsOf : Option Value → List (Text × Value)
  | some (.obj rows) => rows
  | _ => []

variable (latest : Table Text Value)

-- The entries tracked are those of a log, with texts for these three.
def track (e : Value) : Table Text Value :=
  match e.get? (ascii "kind"),e.get? (ascii "name"),e.get? (ascii "revision") with
  | some (.str kind),some (.str name),some (.str revision) =>
    if kind ≠ ascii "witnessed" ∧ kind ≠ ascii "replaced" then latest
    else ((rowsOf (e.get? (ascii "files"))).foldl (fun latest row => latest.insert (fileKey name revision row.1) row.2)
      latest).insert name (.str revision)
  | _,_,_ => latest

def naturalOf (text : Text) : Option Nat :=
  if text.all isDigit then some (Nat.ofDigitChars 10 (text.map fun u => Char.ofNat u.val) 0) else none

def seqOf (e : Value) : Option Nat :=
  match e.get? (ascii "seq") with
  | some (.num text) => naturalOf text
  | _ => none

def lines (text : Text) : List Text := (text.splitOn 10).filter fun line => !line.isEmpty

section Log
variable {κ : Type} (primitives : Primitives κ)

def resume (log : NamesLog κ) : List Text → Option (NamesLog κ)
  | [] => some log
  | line :: rest =>
    (parse primitives.numerals line).bind fun e => (seqOf e).bind fun seq =>
      resume { log with seq := seq,prev := some (primitives.sha (canon e)),latest := track log.latest e } rest

-- The constructor; `generated` is the key it makes where the state has none.
def opened (witness : Text) (generated : κ) (disk : Disk κ) : Option (Opened κ) :=
  let key := disk.key.getD generated
  (resume primitives ⟨witness,key,0,none,∅⟩ (lines (disk.log.getD []))).map fun log => ⟨⟨disk.log,some key⟩,log⟩

def entry (log : NamesLog κ) (at_ kind : Text) (fields : List (Text × Value)) : Value :=
  .obj ([(ascii "format",.str FORMAT),(ascii "seq",.num (digits (log.seq+1))),(ascii "kind",.str kind),
    (ascii "at",.str at_),(ascii "witness",.str log.witness),(ascii "prev",textOrNull log.prev)] ++ fields)

def append (opened : Opened κ) (clock : Nat → Text) (kind : Text) (fields : List (Text × Value)) : Opened κ × Value :=
  let e := entry opened.log (clock (opened.log.seq+1)) kind fields
  let line := canon e
  (⟨{ opened.disk with log := some (opened.disk.log.getD [] ++ (line ++ [10])) },
    { opened.log with seq := opened.log.seq+1,prev := some (primitives.sha line),latest := track opened.log.latest e }⟩,e)

def isText : Option Value → Text → Bool
  | some (.str found),text => found = text
  | _,_ => false

def truthy : Value → Bool
  | .null => false
  | .bool value => value
  | .num text => text ≠ ascii "0"
  | .str text => !text.isEmpty
  | .arr _ | .obj _ => true

variable (name revision : Text)

def changedFiles (files : Files) : Files :=
  files.filter fun path digest => latest.contains (fileKey name revision path) &&
    !isText latest[fileKey name revision path]? digest

def freshFiles (files : Files) : Files :=
  files.filter fun path _ => !latest.contains (fileKey name revision path)

def beforeValue (changed : Files) : Value :=
  .obj (changed.toList.map fun row => (row.1,(latest[fileKey name revision row.1]?).getD .null))

def replaced (opened : Opened κ) (clock : Nat → Text) (name revision : Text) (files : Files) : Opened κ × List Value :=
  let changed := changedFiles opened.log.latest name revision files
  if changed.isEmpty then (opened,[])
  else
    let (after,e) := append primitives opened clock (ascii "replaced") [(ascii "name",.str name),
      (ascii "revision",.str revision),(ascii "files",changed.value),
      (ascii "before",beforeValue opened.log.latest name revision changed)]
    (after,[e])

def moved (opened : Opened κ) (clock : Nat → Text) (name revision : Text) : Opened κ :=
  match opened.log.latest[name]? with
  | none => opened
  | some prior =>
    if truthy prior && !isText (some prior) revision then
      (append primitives opened clock (ascii "moved") [(ascii "name",.str name),(ascii "revision",.str revision),
        (ascii "previous",prior)]).1
    else opened

def witnessed (opened : Opened κ) (clock : Nat → Text) (name revision : Text) (files : Files) : Opened κ :=
  let fresh := freshFiles opened.log.latest name revision files
  if fresh.isEmpty then opened
  else (append primitives opened clock (ascii "witnessed") [(ascii "name",.str name),(ascii "revision",.str revision),
    (ascii "files",fresh.value)]).1

-- Record what the source serves under a name now. Returns the alerts raised.
def witnessFiles (opened : Opened κ) (clock : Nat → Text) (name revision : Text) (files : Files) :
    Opened κ × List Value :=
  let (first,alerts) := replaced primitives opened clock name revision files
  (witnessed primitives (moved primitives first clock name revision) clock name revision files,alerts)

def indexed (opened : Opened κ) (clock : Nat → Text) (name revision index table : Text) : Opened κ :=
  (append primitives opened clock (ascii "indexed") [(ascii "name",.str name),(ascii "revision",.str revision),
    (ascii "index",.str index),(ascii "table",.str table)]).1

structure Head where
  format : Text
  seq : Nat
  head : Option Text
  witness : Text
  publicKey : Text
  at_ : Text
  signature : Text

def signed (h : Head) : Text :=
  canon (.obj [(ascii "format",.str h.format),(ascii "seq",.num (digits h.seq)),(ascii "head",textOrNull h.head),
    (ascii "witness",.str h.witness),(ascii "public_key",.str h.publicKey)])

def signHead (opened : Opened κ) (at_ : Text) : Head :=
  let h : Head := ⟨FORMAT,opened.log.seq,opened.log.prev,opened.log.witness,primitives.publicKey opened.log.key,at_,[]⟩
  { h with signature := primitives.sign opened.log.key (signed h) }

inductive Problem where
  | sequence (entry : Nat) (found : Option Value)
  | link (entry : Nat)
  | headSays (seq : Nat) (head : Option Text) (length : Nat) (last : Option Text)
  | signature

def isNumber : Option Value → Nat → Bool
  | some (.num text),n => text = digits n
  | _,_ => false

def isTextOrNull : Option Value → Option Text → Bool
  | some (.str found),some text => found = text
  | some .null,none => true
  | _,_ => false

def replay : Nat → Option Text → List Text → Option (List Value × List Problem × Option Text)
  | _,prev,[] => some ([],[],prev)
  | i,prev,line :: rest =>
    (parse primitives.numerals line).bind fun e =>
      match e with
      | .null => none
      | e => (replay (i+1) (some (primitives.sha (canon e))) rest).map fun (entries,problems,last) =>
        (e :: entries,(if isNumber (e.get? (ascii "seq")) (i+1) then [] else [.sequence (i+1) (e.get? (ascii "seq"))]) ++
          ((if isTextOrNull (e.get? (ascii "prev")) prev then [] else [.link (i+1)]) ++ problems),last)

-- Replay a log against its signed head: entries and problems; no problems
-- means intact. A line that is no JSON, or null, throws.
def verifyLog (text : Text) (head : Head) : Option (List Value × List Problem) :=
  (replay primitives 0 none (lines text)).map fun (entries,problems,last) =>
    (entries,problems ++
      ((if head.seq = entries.length ∧ head.head = last then [] else [.headSays head.seq head.head entries.length last]) ++
        (if primitives.verifies head.publicKey (signed head) head.signature then [] else [.signature])))

end Log

def identical : Option Value → Option Value → Bool
  | none,none => true
  | some .null,some .null => true
  | some (.bool a),some (.bool b) => a = b
  | some (.num a),some (.num b) => a = b
  | some (.str a),some (.str b) => a = b
  | _,_ => false

structure Pointed where
  revision : Option Value
  files : Table Text Value
  index : Option Value

-- `Object.assign(files, e.files || {})`; a text assigned under "__proto__" makes no property.
def assign (files : Table Text Value) (rows : List (Text × Value)) : Table Text Value :=
  rows.foldl (fun files row => if row.1 = ascii "__proto__" then files else files.insert row.1 row.2) files

def skipped (name : Text) (when_ : Option Text) (upto : Option Nat) (e : Value) : Bool :=
  !isText (e.get? (ascii "name")) name ||
    (match when_,e.get? (ascii "at") with
      | some limit,some (.str at_) => !limit.isEmpty && compare limit at_ == .lt
      | _,_ => false) ||
    (match upto,seqOf e with
      | some limit,some seq => limit ≠ 0 && limit < seq
      | _,_ => false)

def pointedStep (name : Text) (when_ : Option Text) (upto : Option Nat) (p : Pointed) (e : Value) : Pointed :=
  if skipped name when_ upto e then p
  else
    let kind := e.get? (ascii "kind")
    if isText kind (ascii "witnessed") || isText kind (ascii "replaced") || isText kind (ascii "moved") then
      let p := if identical (e.get? (ascii "revision")) p.revision then p else ⟨e.get? (ascii "revision"),∅,some .null⟩
      { p with files := assign p.files (rowsOf (e.get? (ascii "files"))) }
    else if isText kind (ascii "indexed") && identical (e.get? (ascii "revision")) p.revision then
      { p with index := e.get? (ascii "index") }
    else p

-- What `name` pointed to at the time `when`, or as of entry `upto`; a limit that
-- is zero or empty is none.
def pointedAt (entries : List Value) (name : Text) (when_ : Option Text) (upto : Option Nat) : Pointed :=
  entries.foldl (pointedStep name when_ upto) ⟨some .null,∅,some .null⟩

end Names
