import HologramLive.Lib.Tables
namespace HologramLive
open Std

-- Rust text is a sequence of Unicode scalar values; its length is counted in
-- UTF-8 bytes. The byte tests of the grammars accept ASCII only, so they are
-- written on the characters.
abbrev Str := List Char
abbrev Bytes := List UInt8
def utf8Len (text : Str) : Nat := (text.map Char.utf8Size).sum
def toUtf8 (text : Str) : Bytes := text.flatMap String.utf8EncodeChar
def fromUtf8 (bytes : Bytes) : Option Str := (ByteArray.mk bytes.toArray).utf8Decode?.map Array.toList
def decimal (n : Nat) : Str := Nat.toDigits 10 n

-- What is asked of every character of a text is decided by going through the text,
-- not through all characters.
attribute [instance (2000)] List.decidableBAll List.decidableBEx

theorem length_toUtf8 (text : Str) : (toUtf8 text).length = utf8Len text := by
  simp [toUtf8,utf8Len,List.length_flatMap]

theorem fromUtf8_iff : fromUtf8 bytes = some text ↔ bytes = toUtf8 text := by
  have spelled (other : Str) : other.utf8Encode = ByteArray.mk (toUtf8 other).toArray :=
    ByteArray.ext (by simp [List.utf8Encode,toUtf8])
  constructor
  · intro decoded
    obtain ⟨chars,found,rfl⟩ := Option.map_eq_some_iff.mp decoded
    have valid : (ByteArray.mk bytes.toArray).utf8Decode?.isSome := by rw [found]; rfl
    have back : (((ByteArray.mk bytes.toArray).utf8Decode?.get valid).toList).utf8Encode = ByteArray.mk bytes.toArray :=
      ByteArray.utf8Encode_get_utf8Decode?
    rw [Option.get_of_eq_some valid found,spelled] at back
    simpa using back.symm
  · intro same
    subst same
    simp only [fromUtf8,←spelled,List.utf8Decode?_utf8Encode,Option.map_some]

inductive OciStoreError where
  | invalid (what value : Str)
  | notInRepository (repo digest : Str)
  | unknownRepository (repo : Str)
  | unknownUpload (id : Str)
  | digestMismatch (claimed : Str)
  | offsetMismatch (expected got : Nat)
  | missingReferences (digests : List Str)
  | layout (message : Str)
  | locked
  | io (message : Str)
deriving DecidableEq, Repr

def maxRepositoryName : Nat := 255
def maxTag : Nat := 128

inductive Algorithm where
  | sha256
  | sha512
  | blake3
deriving DecidableEq, Repr

def Algorithm.parse (name : Str) : Option Algorithm :=
  if name = "sha256".toList then some .sha256
  else if name = "sha512".toList then some .sha512
  else if name = "blake3".toList then some .blake3
  else none

def Algorithm.name : Algorithm → Str
  | .sha256 => "sha256".toList
  | .sha512 => "sha512".toList
  | .blake3 => "blake3".toList

def Algorithm.hexLen : Algorithm → Nat
  | .sha256 | .blake3 => 64
  | .sha512 => 128

theorem Algorithm.parse_name (a : Algorithm) : Algorithm.parse a.name = some a := by cases a <;> rfl
theorem Algorithm.name_of_parse {name : Str} (parsed : Algorithm.parse name = some a) : a.name = name := by
  unfold Algorithm.parse at parsed
  split at parsed
  · rename_i named; cases parsed; exact named.symm
  · split at parsed
    · rename_i named; cases parsed; exact named.symm
    · split at parsed
      · rename_i named; cases parsed; exact named.symm
      · cases parsed

variable (c : Char)

def lowercaseHex : Bool := c.isDigit || ('a' ≤ c && c ≤ 'f')
def asciiLower : Bool := 'a' ≤ c && c ≤ 'z'
def asciiAlnum : Bool := c.isDigit || ('a' ≤ c && c ≤ 'z') || ('A' ≤ c && c ≤ 'Z')

-- `str::split_once`: the text before the first separator and the text after it.
def splitOnce (separator : Char) : Str → Option (Str × Str)
  | [] => none
  | c :: rest =>
    if c = separator then some ([],rest)
    else (splitOnce separator rest).map fun parts => (c :: parts.1,parts.2)

-- `algorithm:hex`. A value holds lowercase hex of exactly the algorithm's
-- length, as the one constructor of the source leaves it.
structure Digest where
  algorithm : Algorithm
  hex : Str
  valid : (hex.length == algorithm.hexLen && hex.all lowercaseHex) = true
deriving DecidableEq, Repr

def Digest.asStr (d : Digest) : Str := d.algorithm.name ++ ':' :: d.hex

def Digest.parse (value : Str) : Except OciStoreError Digest :=
  match splitOnce ':' value with
  | none => .error (.invalid "digest".toList value)
  | some (name,hex) => match Algorithm.parse name with
    | none => .error (.invalid "digest".toList value)
    | some algorithm =>
      if valid : (hex.length == algorithm.hexLen && hex.all lowercaseHex) = true then .ok ⟨algorithm,hex,valid⟩
      else .error (.invalid "digest".toList value)

theorem splitOnce_append {separator : Char} {before after : Str} (absent : separator ∉ before) :
    splitOnce separator (before ++ separator :: after) = some (before,after) := by
  induction before with
  | nil => simp [splitOnce]
  | cons c rest ih =>
    simp only [List.mem_cons,not_or] at absent
    simp [splitOnce,Ne.symm absent.1,ih absent.2]

theorem splitOnce_parts (split : splitOnce separator value = some (before,after)) :
    value = before ++ separator :: after ∧ separator ∉ before := by
  induction value generalizing before with
  | nil => cases split
  | cons c rest ih =>
    unfold splitOnce at split
    split at split
    · rename_i equal; cases split; simp [equal]
    · rename_i different
      cases found : splitOnce separator rest with
      | none => simp [found] at split
      | some parts =>
        simp only [found,Option.map_some,Option.some.injEq,Prod.mk.injEq] at split
        obtain ⟨rfl,rfl⟩ := split
        obtain ⟨whole,absent⟩ := @ih parts.1 found
        exact ⟨by rw [whole]; rfl,by simpa [Ne.symm different] using absent⟩

theorem colon_absent (a : Algorithm) : ':' ∉ a.name := by cases a <;> decide

theorem Digest.parse_asStr (d : Digest) : Digest.parse d.asStr = .ok d := by
  simp [Digest.parse,Digest.asStr,splitOnce_append (colon_absent d.algorithm),Algorithm.parse_name,d.valid]

theorem Digest.asStr_of_parse (parsed : Digest.parse value = .ok d) : d.asStr = value := by
  unfold Digest.parse at parsed
  split at parsed
  · cases parsed
  · rename_i name hex parts
    split at parsed
    · cases parsed
    · rename_i algorithm known
      split at parsed
      · cases parsed; rw [(splitOnce_parts parts).1]
        exact congrArg (· ++ ':' :: hex) (Algorithm.name_of_parse known)
      · cases parsed

theorem Digest.asStr_injective : Function.Injective Digest.asStr := fun a b same =>
  Except.ok.inj ((Digest.parse_asStr a).symm.trans ((congrArg Digest.parse same).trans (Digest.parse_asStr b)))

-- Rows are kept in the order of the text.
instance : Ord Digest := ⟨compareOn Digest.asStr⟩
instance : TransOrd Digest := inferInstanceAs (TransCmp (compareOn Digest.asStr))
instance : LawfulEqOrd Digest := Tables.compareOn_lawful Digest.asStr_injective

-- `[a-z0-9]+((\.|_|__|-+)[a-z0-9]+)*`: the scan carries the separator run it
-- is inside of, and judges the run where the next name character ends it.
def lowerAlnum : Bool := asciiLower c || c.isDigit
def separatorLegal (separator : Str) : Bool :=
  separator = ['.'] || separator = ['_'] || separator = ['_','_'] || separator.all (· = '-')
def separatorsLegal : Str → Str → Bool
  | [],run => separatorLegal run
  | c :: rest,run =>
    if lowerAlnum c then separatorLegal run && separatorsLegal rest [] else separatorsLegal rest (run ++ [c])
def componentIsValid (part : Str) : Bool :=
  match part.head?,part.getLast? with
  | some first,some last => lowerAlnum first && lowerAlnum last && separatorsLegal part []
  | _,_ => false

variable (value : Str)

def repoNameLegal : Bool :=
  !value.isEmpty && decide (utf8Len value ≤ maxRepositoryName) && (value.splitOn '/').all componentIsValid

structure RepoName where
  text : Str
  valid : repoNameLegal text = true
deriving DecidableEq, Repr

def RepoName.parse : Except OciStoreError RepoName :=
  if valid : repoNameLegal value = true then .ok ⟨value,valid⟩ else .error (.invalid "repository name".toList value)

def tagLegal : Bool :=
  match value.head? with
  | none => false
  | some first => decide (utf8Len value ≤ maxTag) && (asciiAlnum first || first = '_') &&
      value.all fun c => asciiAlnum c || c = '.' || c = '_' || c = '-'

structure Tag where
  text : Str
  valid : tagLegal text = true
deriving DecidableEq, Repr

def Tag.parse : Except OciStoreError Tag :=
  if valid : tagLegal value = true then .ok ⟨value,valid⟩ else .error (.invalid "tag".toList value)

inductive Reference where
  | tag (name : Tag)
  | digest (digest : Digest)
deriving DecidableEq, Repr

-- A text with a colon is a digest or an error, never a tag.
def Reference.parse (value : Str) : Except OciStoreError Reference :=
  if ':' ∈ value then (Digest.parse value).map .digest else (Tag.parse value).map .tag

-- The canonical hyphenated form. It becomes a file name, so nothing else is
-- accepted.
def uploadIdLegal : Bool :=
  decide (utf8Len value = 36) && value.zipIdx.all fun entry =>
    if entry.2 ∈ [8,13,18,23] then entry.1 = '-' else lowercaseHex entry.1

structure UploadId where
  text : Str
  valid : uploadIdLegal text = true
deriving DecidableEq, Repr

def UploadId.parse : Except OciStoreError UploadId :=
  if valid : uploadIdLegal value = true then .ok ⟨value,valid⟩ else .error (.invalid "upload id".toList value)

theorem RepoName.text_injective : Function.Injective RepoName.text := fun a b same => by
  cases a; cases b; cases same; rfl
theorem Tag.text_injective : Function.Injective Tag.text := fun a b same => by cases a; cases b; cases same; rfl
theorem UploadId.text_injective : Function.Injective UploadId.text := fun a b same => by
  cases a; cases b; cases same; rfl

instance : Ord RepoName := ⟨compareOn RepoName.text⟩
instance : TransOrd RepoName := inferInstanceAs (TransCmp (compareOn RepoName.text))
instance : LawfulEqOrd RepoName := Tables.compareOn_lawful RepoName.text_injective
instance : Ord Tag := ⟨compareOn Tag.text⟩
instance : TransOrd Tag := inferInstanceAs (TransCmp (compareOn Tag.text))
instance : LawfulEqOrd Tag := Tables.compareOn_lawful Tag.text_injective
instance ordReferrer : TransOrd (RepoName × Digest × Digest) := inferInstance
instance : Ord UploadId := ⟨compareOn UploadId.text⟩
instance : TransOrd UploadId := inferInstanceAs (TransCmp (compareOn UploadId.text))
instance : LawfulEqOrd UploadId := Tables.compareOn_lawful UploadId.text_injective

example : repoNameLegal "a.b_c-d/e0".toList = true ∧ repoNameLegal "a___b".toList = false := by decide
example : Reference.parse "sha256:short".toList = .error (.invalid "digest".toList "sha256:short".toList) := by decide

end HologramLive
