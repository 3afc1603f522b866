import HologramLive.Lib.Fallible
import HologramLive.Holo.Types
import HologramLive.Lib.Wire
namespace HologramLive
namespace View
open Wire

def magic : Bytes := "HOLOVIEW".toList.map fun c => UInt8.ofNat c.toNat
def viewBundleVersion : UInt16 := 1
def portableEntry : Str := "index.html".toList
def maxFiles : Nat := 4096
def maxPathBytes : Nat := 1024
def maxFileBytes : Nat := 64*1024*1024
def maxBundleBytes : Nat := 256*1024*1024

structure ViewFile where
  path : Str
  bytes : Bytes
deriving DecidableEq

structure ViewBundle where
  version : UInt16
  entry : Str
  files : List ViewFile
deriving DecidableEq

-- The components of a Unix path. Repeated separators, a trailing one, and every
-- `.` but a leading one leave no trace in them.
inductive Component where
  | rootDir
  | curDir
  | parentDir
  | normal (part : Str)
deriving DecidableEq

def components (path : Str) : List Component :=
  let parts := path.splitOn '/'
  let body := (parts.filter fun part => part ≠ [] ∧ part ≠ ['.']).map fun part =>
    if part = ['.','.'] then .parentDir else .normal part
  match parts with
  | [] :: _ :: _ => .rootDir :: body
  | ['.'] :: _ => .curDir :: body
  | _ => body

def reservedStem (stem : Str) : Bool :=
  let number (rest : Str) : Bool := rest ∈ ["1","2","3","4","5","6","7","8","9"].map String.toList
  stem ∈ ["CON","PRN","AUX","NUL"].map String.toList ||
    match stem with
    | 'C' :: 'O' :: 'M' :: rest | 'L' :: 'P' :: 'T' :: rest => number rest
    | _ => false

def validateComponent (component : Str) : Bool :=
  let valid := component ≠ [] ∧ component ≠ ['.'] ∧ component ≠ ['.','.'] ∧ component.getLast? ≠ some '.' ∧
    component.all fun c => asciiAlnum c || c = '-' || c = '_' || c = '.'
  let stem := (component.takeWhile (· ≠ '.')).map Char.toUpper
  valid && !reservedStem stem

-- The path as its components spell it. The callers here drop the error's text.
def portablePath (path : Str) : Option Str := do
  let parts ← (components path).mapM fun component => match component with
    | .normal part => if validateComponent part then some part else none
    | _ => none
  let logical := ['/'].intercalate parts
  if logical = [] ∨ maxPathBytes < utf8Len logical then none else some logical

-- What the checks of the files so far leave for the next one.
structure Seen where
  previous : Option Str
  foldedPaths : List Str
  hasEntry : Bool
  total : Nat

def validateFile (error : Str → LiveError) (entry : Str) (seen : Seen) (file : ViewFile) : Except LiveError Seen :=
  let folded := file.path.map Char.toLower
  let total := seen.total+file.bytes.length
  if portablePath file.path = none then .error (error "invalid View asset path".toList)
  else if seen.previous.any fun value => ¬value < file.path then
    .error (error "View assets must be strictly lexically ordered".toList)
  else if folded ∈ seen.foldedPaths then
    .error (error "View assets contain a case-insensitive path collision".toList)
  else if 2^64 ≤ file.bytes.length then .error (error "View asset is too large".toList)
  else if maxFileBytes < file.bytes.length then .error (error "View asset exceeds the format limit".toList)
  else if 2^64 ≤ total then .error (error "View bundle byte length overflowed".toList)
  else .ok ⟨some file.path,folded :: seen.foldedPaths,seen.hasEntry || file.path = entry,total⟩

def validateBundle (bundle : ViewBundle) (archive : Bool) : Except LiveError Unit := do
  let error : Str → LiveError := if archive then .invalidHolo else .config
  if bundle.version ≠ viewBundleVersion then .error (error "unsupported View bundle version".toList)
  else if bundle.entry ≠ portableEntry then .error (error "View bundle entry must be index.html".toList)
  else if bundle.files = [] ∨ maxFiles < bundle.files.length then
    .error (error "View bundle file count is outside the format limit".toList)
  else
    let seen ← bundle.files.foldlM (validateFile error bundle.entry) ⟨none,[],false,0⟩
    if maxBundleBytes < seen.total then .error (error "View bundle exceeds the format limit".toList)
    else if ¬seen.hasEntry then .error (error "View bundle is missing index.html".toList)
    else .ok ()

def writeLen (length : Nat) (description : Str) : Except LiveError Bytes :=
  if 2^32 ≤ length then .error (.config (description ++ " is too large".toList)) else .ok (toBe 4 length)

def writeFile (file : ViewFile) : Except LiveError Bytes := do
  let pathLen ← writeLen (utf8Len file.path) "View asset path".toList
  if 2^64 ≤ file.bytes.length then .error (.config "View asset is too large".toList)
  else .ok (pathLen ++ toUtf8 file.path ++ toBe 8 file.bytes.length ++ file.bytes)

def encode (bundle : ViewBundle) : Except LiveError Bytes := do
  validateBundle bundle false
  let entryLen ← writeLen (utf8Len bundle.entry) "View entry path".toList
  let fileCount ← writeLen bundle.files.length "View file count".toList
  let files ← bundle.files.mapM writeFile
  return magic ++ toBe 2 bundle.version.toNat ++ entryLen ++ toUtf8 bundle.entry ++ fileCount ++ files.flatten

def invalid (message : String) : LiveError := .invalidHolo message.toList
def truncated : LiveError := invalid "truncated View bundle"

def string : Reader LiveError Str := do
  let length ← uint truncated 4
  refuse (length = 0 ∨ maxPathBytes < length) (invalid "View string length is outside the format limit")
  let bytes ← take truncated length
  match fromUtf8 bytes with
  | none => throw (invalid "View path is not valid UTF-8")
  | some text => return text

def readFiles : Nat → Nat → Reader LiveError (List ViewFile)
  | 0,_ => return []
  | fileCount+1,totalBytes => do
    let path ← string
    let length ← uint truncated 8
    refuse (maxFileBytes < length) (invalid "View asset exceeds the format limit")
    refuse (maxBundleBytes < totalBytes+length) (invalid "View bundle exceeds the format limit")
    let bytes ← take truncated length
    let files ← readFiles fileCount (totalBytes+length)
    return ⟨path,bytes⟩ :: files

def readBundle : Reader LiveError ViewBundle := do
  let found ← take truncated magic.length
  refuse (found ≠ magic) (invalid "invalid View bundle magic")
  let version ← uint truncated 2
  let entry ← string
  let fileCount ← uint truncated 4
  refuse (maxFiles < fileCount) (invalid "View file count exceeds the format limit")
  let files ← readFiles fileCount 0
  return ⟨UInt16.ofNat version,entry,files⟩

def decode (bytes : Bytes) : Except LiveError ViewBundle := do
  let (bundle,remaining) ← readBundle bytes
  if remaining ≠ [] then .error (invalid "View bundle has trailing bytes")
  else
    validateBundle bundle true
    return bundle

end View
end HologramLive

namespace HologramLive
namespace View
open Wire Fallible

def fileImage (file : ViewFile) : Bytes :=
  toBe 4 (utf8Len file.path) ++ toUtf8 file.path ++ toBe 8 file.bytes.length ++ file.bytes

def image (bundle : ViewBundle) : Bytes :=
  magic ++ toBe 2 bundle.version.toNat ++ toBe 4 (utf8Len bundle.entry) ++ toUtf8 bundle.entry ++
    toBe 4 bundle.files.length ++ (bundle.files.map fileImage).flatten

def fileBytes (files : List ViewFile) : Nat := (files.map fun file => file.bytes.length).sum

variable {input rest : Bytes}

theorem string_ok : string input = .ok (text,rest) ↔
    0 < utf8Len text ∧ utf8Len text ≤ maxPathBytes ∧ input = toBe 4 (utf8Len text) ++ (toUtf8 text ++ rest) := by
  unfold string
  constructor
  · intro read
    rw [bind_read] at read
    obtain ⟨length,afterLength,counted,read⟩ := read
    obtain ⟨-,rfl⟩ := uint_ok.mp counted
    rw [bind_read] at read
    obtain ⟨⟨⟩,_,allowed,read⟩ := read
    obtain ⟨within,rfl⟩ := refuse_ok.mp allowed
    rw [bind_read] at read
    obtain ⟨bytes,_,taken,read⟩ := read
    obtain ⟨long,rfl⟩ := take_ok.mp taken
    cases decoded : fromUtf8 bytes with
    | none => simp only [decoded] at read; cases read
    | some found =>
      simp only [decoded] at read
      obtain ⟨rfl,rfl⟩ := pure_ok.mp read
      have spelled := fromUtf8_iff.mp decoded
      subst spelled
      rw [length_toUtf8] at long
      subst long
      exact ⟨by omega,by omega,rfl⟩
  · intro ⟨positive,within,joined⟩
    have fits : utf8Len text < 256^4 := by unfold maxPathBytes at within; omega
    refine bind_read.mpr ⟨_,_,uint_ok.mpr ⟨fits,joined⟩,?_⟩
    refine bind_read.mpr ⟨(),_,refuse_ok.mpr ⟨by omega,rfl⟩,?_⟩
    refine bind_read.mpr ⟨_,_,take_ok.mpr ⟨length_toUtf8 text,rfl⟩,?_⟩
    rw [fromUtf8_iff.mpr rfl]
    exact pure_ok.mpr ⟨rfl,rfl⟩

variable {files : List ViewFile}

theorem readFiles_ok (within : totalBytes ≤ maxBundleBytes) :
    readFiles fileCount totalBytes input = .ok (files,rest) ↔ files.length = fileCount ∧
      (∀ file ∈ files, 0 < utf8Len file.path ∧ utf8Len file.path ≤ maxPathBytes ∧ file.bytes.length ≤ maxFileBytes) ∧
      totalBytes+fileBytes files ≤ maxBundleBytes ∧ input = (files.map fileImage).flatten ++ rest := by
  induction fileCount generalizing totalBytes input rest files with
  | zero =>
    constructor
    · intro read
      obtain ⟨rfl,rfl⟩ := pure_ok.mp read
      exact ⟨rfl,by simp,by simpa [fileBytes] using within,rfl⟩
    · intro ⟨empty,_,_,joined⟩
      rw [List.eq_nil_of_length_eq_zero empty] at joined ⊢
      exact pure_ok.mpr ⟨rfl,joined⟩
  | succ fileCount ih =>
    constructor
    · intro read
      rw [readFiles,bind_read] at read
      obtain ⟨path,_,named,read⟩ := read
      obtain ⟨positive,short,rfl⟩ := string_ok.mp named
      rw [bind_read] at read
      obtain ⟨length,_,counted,read⟩ := read
      obtain ⟨-,rfl⟩ := uint_ok.mp counted
      rw [bind_read] at read
      obtain ⟨⟨⟩,_,small,read⟩ := read
      rw [refuse_ok] at small
      obtain ⟨small,rfl⟩ := small
      rw [bind_read] at read
      obtain ⟨⟨⟩,_,fits,read⟩ := read
      rw [refuse_ok] at fits
      obtain ⟨fits,rfl⟩ := fits
      rw [bind_read] at read
      obtain ⟨bytes,_,taken,read⟩ := read
      obtain ⟨rfl,rfl⟩ := take_ok.mp taken
      rw [bind_read] at read
      obtain ⟨later,_,others,read⟩ := read
      have bound : totalBytes+bytes.length ≤ maxBundleBytes := by omega
      obtain ⟨rfl,each,total,rfl⟩ := (ih bound).mp others
      obtain ⟨rfl,rfl⟩ := pure_ok.mp read
      refine ⟨rfl,?_,?_,?_⟩
      · intro file member
        obtain rfl | member := List.mem_cons.mp member
        · exact ⟨positive,short,Nat.le_of_not_lt small⟩
        · exact each file member
      · simp only [fileBytes,List.map_cons,List.sum_cons] at total ⊢; omega
      · simp only [fileImage,List.map_cons,List.flatten_cons,List.append_assoc]
    · intro ⟨count,each,total,joined⟩
      obtain ⟨file,later,rfl⟩ := List.exists_cons_of_length_eq_add_one count
      obtain ⟨positive,short,small⟩ := each file List.mem_cons_self
      simp only [fileBytes,List.map_cons,List.sum_cons] at total
      have fits : file.bytes.length < 256^8 := by unfold maxFileBytes at small; omega
      simp only [fileImage,List.map_cons,List.flatten_cons,List.append_assoc] at joined
      refine bind_read.mpr ⟨_,_,string_ok.mpr ⟨positive,short,joined⟩,?_⟩
      refine bind_read.mpr ⟨_,_,uint_ok.mpr ⟨fits,rfl⟩,?_⟩
      refine bind_read.mpr ⟨(),_,refuse_ok.mpr ⟨by omega,rfl⟩,?_⟩
      refine bind_read.mpr ⟨(),_,refuse_ok.mpr ⟨by omega,rfl⟩,?_⟩
      refine bind_read.mpr ⟨_,_,take_ok.mpr ⟨rfl,rfl⟩,?_⟩
      refine bind_read.mpr ⟨_,_,(ih (by omega)).mpr ⟨by simpa using count,?_,?_,rfl⟩,pure_ok.mpr ⟨rfl,rfl⟩⟩
      · intro other member; exact each other (List.mem_cons_of_mem _ member)
      · simp only [fileBytes]; omega

variable {bundle : ViewBundle}

theorem readBundle_ok (fits : bundle.files.length ≤ maxFiles) :
    readBundle input = .ok (bundle,rest) ↔ (0 < utf8Len bundle.entry ∧ utf8Len bundle.entry ≤ maxPathBytes) ∧
      (∀ file ∈ bundle.files,
        0 < utf8Len file.path ∧ utf8Len file.path ≤ maxPathBytes ∧ file.bytes.length ≤ maxFileBytes) ∧
      fileBytes bundle.files ≤ maxBundleBytes ∧ input = image bundle ++ rest := by
  unfold readBundle
  constructor
  · intro read
    rw [bind_read] at read
    obtain ⟨found,_,taken,read⟩ := read
    obtain ⟨-,rfl⟩ := take_ok.mp taken
    rw [bind_read] at read
    obtain ⟨⟨⟩,_,marked,read⟩ := read
    rw [refuse_ok] at marked
    obtain ⟨marked,rfl⟩ := marked
    obtain rfl : found = magic := not_not.mp marked
    rw [bind_read] at read
    obtain ⟨version,_,counted,read⟩ := read
    obtain ⟨small,rfl⟩ := uint_ok.mp counted
    rw [bind_read] at read
    obtain ⟨entry,_,named,read⟩ := read
    obtain ⟨positive,short,rfl⟩ := string_ok.mp named
    rw [bind_read] at read
    obtain ⟨fileCount,_,counted,read⟩ := read
    obtain ⟨-,rfl⟩ := uint_ok.mp counted
    rw [bind_read] at read
    obtain ⟨⟨⟩,_,allowed,read⟩ := read
    obtain ⟨-,rfl⟩ := refuse_ok.mp allowed
    rw [bind_read] at read
    obtain ⟨files,_,others,read⟩ := read
    obtain ⟨rfl,each,total,rfl⟩ := (readFiles_ok (Nat.zero_le _)).mp others
    obtain ⟨rfl,rfl⟩ := pure_ok.mp read
    have version : (UInt16.ofNat version).toNat = version := UInt16.toNat_ofNat_of_lt' (by simpa using small)
    refine ⟨⟨positive,short⟩,each,by simpa using total,?_⟩
    simp only [image,version,List.append_assoc]
  · intro ⟨⟨positive,short⟩,each,total,joined⟩
    simp only [image,List.append_assoc] at joined
    have version := bundle.version.toNat_lt
    have count : bundle.files.length < 256^4 := by unfold maxFiles at fits; omega
    refine bind_read.mpr ⟨_,_,take_ok.mpr ⟨rfl,joined⟩,?_⟩
    refine bind_read.mpr ⟨(),_,refuse_ok.mpr ⟨not_not.mpr rfl,rfl⟩,?_⟩
    refine bind_read.mpr ⟨_,_,uint_ok.mpr ⟨by simpa using version,rfl⟩,?_⟩
    refine bind_read.mpr ⟨_,_,string_ok.mpr ⟨positive,short,rfl⟩,?_⟩
    refine bind_read.mpr ⟨_,_,uint_ok.mpr ⟨count,rfl⟩,?_⟩
    refine bind_read.mpr ⟨(),_,refuse_ok.mpr ⟨by omega,rfl⟩,?_⟩
    refine bind_read.mpr ⟨_,_,(readFiles_ok (Nat.zero_le _)).mpr ⟨rfl,each,by omega,rfl⟩,?_⟩
    rw [UInt16.ofNat_toNat]
    exact pure_ok.mpr ⟨rfl,rfl⟩

variable {error : Str → LiveError} {entry : Str}

theorem validateFile_ok (checked : validateFile error entry seen file = .ok next) :
    portablePath file.path ≠ none ∧ file.bytes.length ≤ maxFileBytes ∧ next.total = seen.total+file.bytes.length := by
  simp only [validateFile] at checked
  split_ifs at checked with unfit unordered colliding large beyond overflowed
  cases checked
  exact ⟨unfit,by omega,rfl⟩

-- The archive flag only chooses the kind of the error.
theorem validateFile_any (seen : Seen) (file : ViewFile) (next : Seen)
    (checked : validateFile error entry seen file = .ok next) : validateFile other entry seen file = .ok next := by
  simp only [validateFile] at checked ⊢
  split_ifs at checked ⊢
  exact checked

variable {archive : Bool}

theorem validateBundle_ok : validateBundle bundle archive = .ok () ↔
    bundle.version = viewBundleVersion ∧ bundle.entry = portableEntry ∧ bundle.files ≠ [] ∧
      bundle.files.length ≤ maxFiles ∧
      ∃ seen,bundle.files.foldlM (validateFile .config bundle.entry) ⟨none,[],false,0⟩ = .ok seen ∧
        seen.total ≤ maxBundleBytes ∧ seen.hasEntry := by
  simp only [validateBundle]
  generalize (if archive then LiveError.invalidHolo else LiveError.config) = error
  constructor
  · intro checked
    split_ifs at checked with version entry count
    obtain ⟨seen,looped,last⟩ := bind_ok checked
    split_ifs at last with beyond missing
    exact ⟨not_not.mp version,not_not.mp entry,fun none => count (.inl none),by omega,seen,
      foldlM_ok_of_step validateFile_any looped,by omega,missing⟩
  · intro ⟨version,entry,nonempty,count,seen,looped,total,found⟩
    rw [if_neg (not_not.mpr version),if_neg (not_not.mpr entry),if_neg (by simp [nonempty]; omega),
      ok_bind (foldlM_ok_of_step validateFile_any looped),if_neg (by omega),if_neg (not_not.mpr found)]

theorem validateBundle_any (other : Bool)
    (valid : validateBundle bundle archive = .ok ()) : validateBundle bundle other = .ok () :=
  validateBundle_ok.mpr (validateBundle_ok.mp valid)

-- What the format promises of a bundle that passes the checks.
structure Checked (bundle : ViewBundle) : Prop where
  entry : bundle.entry = portableEntry
  count : bundle.files.length ≤ maxFiles
  portable : ∀ file ∈ bundle.files, portablePath file.path ≠ none
  small : ∀ file ∈ bundle.files, file.bytes.length ≤ maxFileBytes
  total : fileBytes bundle.files ≤ maxBundleBytes

theorem validateFiles_checked (looped : files.foldlM (validateFile error entry) ⟨none,[],false,0⟩ = .ok seen) :
    (∀ file ∈ files, portablePath file.path ≠ none ∧ file.bytes.length ≤ maxFileBytes) ∧
      seen.total = fileBytes files := by
  let holds (checked : List ViewFile) (seen : Seen) : Prop :=
    (∀ file ∈ checked, portablePath file.path ≠ none ∧ file.bytes.length ≤ maxFileBytes) ∧
      seen.total = fileBytes checked
  have step (before : List ViewFile) (s : Seen) (file : ViewFile) (next : Seen) (so : holds before s)
      (checked : validateFile error entry s file = .ok next) : holds (before ++ [file]) next := by
    obtain ⟨portable,small,total⟩ := validateFile_ok checked
    refine ⟨?_,by simp [fileBytes,total,so.2]⟩
    intro other member
    obtain earlier | last := List.mem_append.mp member
    · exact so.1 other earlier
    · rw [List.mem_singleton.mp last]
      exact ⟨portable,small⟩
  have start : holds [] ⟨none,[],false,0⟩ := ⟨by simp,rfl⟩
  exact foldlM_invariant step start looped

theorem validateBundle_checked (valid : validateBundle bundle archive = .ok ()) : Checked bundle := by
  obtain ⟨_,entry,_,count,seen,looped,total,_⟩ := validateBundle_ok.mp valid
  obtain ⟨each,sum⟩ := validateFiles_checked looped
  exact ⟨entry,count,fun file member => (each file member).1,fun file member => (each file member).2,by omega⟩

theorem utf8Len_portableEntry : 0 < utf8Len portableEntry ∧ utf8Len portableEntry ≤ maxPathBytes := by decide

theorem positive_of_portable (portable : portablePath path ≠ none) : 0 < utf8Len path := by
  cases path with
  | nil => exact absurd rfl portable
  | cons c rest =>
    have positive := c.utf8Size_pos
    simp only [utf8Len,List.map_cons,List.sum_cons]
    omega

theorem writeLen_ok : writeLen length description = .ok out ↔ length < 2^32 ∧ out = toBe 4 length := by
  unfold writeLen
  split
  · constructor
    · intro written; cases written
    · rintro ⟨small,_⟩; omega
  · constructor
    · intro written; cases written; exact ⟨by omega,rfl⟩
    · rintro ⟨_,same⟩; rw [same]

theorem writeFile_ok (file : ViewFile) (out : Bytes) : writeFile file = .ok out ↔
    (utf8Len file.path < 2^32 ∧ file.bytes.length < 2^64) ∧ out = fileImage file := by
  unfold writeFile
  constructor
  · intro written
    obtain ⟨pathLen,counted,written⟩ := bind_ok written
    obtain ⟨short,rfl⟩ := writeLen_ok.mp counted
    split at written
    · cases written
    · cases written
      exact ⟨⟨short,by omega⟩,rfl⟩
  · rintro ⟨⟨short,small⟩,same⟩
    rw [ok_bind (writeLen_ok.mpr ⟨short,rfl⟩),if_neg (by omega),same]
    rfl

theorem encode_ok : encode bundle = .ok bytes ↔
    validateBundle bundle false = .ok () ∧ (∀ file ∈ bundle.files, utf8Len file.path < 2^32) ∧ bytes = image bundle := by
  unfold encode
  constructor
  · intro written
    obtain ⟨⟨⟩,valid,written⟩ := bind_ok written
    obtain ⟨entryLen,counted,written⟩ := bind_ok written
    obtain ⟨-,rfl⟩ := writeLen_ok.mp counted
    obtain ⟨fileCount,counted,written⟩ := bind_ok written
    obtain ⟨-,rfl⟩ := writeLen_ok.mp counted
    obtain ⟨files,each,written⟩ := bind_ok written
    obtain ⟨short,rfl⟩ := (mapM_ok_iff writeFile_ok).mp each
    cases written
    exact ⟨valid,fun file member => (short file member).1,rfl⟩
  · rintro ⟨valid,short,same⟩
    have checked := validateBundle_checked valid
    have entry : utf8Len bundle.entry < 2^32 := by
      have fits := utf8Len_portableEntry.2
      unfold maxPathBytes at fits
      rw [checked.entry]
      omega
    have count : bundle.files.length < 2^32 := by
      have fits := checked.count
      unfold maxFiles at fits
      omega
    have fits : ∀ file ∈ bundle.files, utf8Len file.path < 2^32 ∧ file.bytes.length < 2^64 := by
      intro file member
      have small := checked.small file member
      unfold maxFileBytes at small
      exact ⟨short file member,by omega⟩
    rw [ok_bind valid,ok_bind (writeLen_ok.mpr ⟨entry,rfl⟩),ok_bind (writeLen_ok.mpr ⟨count,rfl⟩),
      ok_bind ((mapM_ok_iff writeFile_ok).mpr ⟨fits,rfl⟩),same]
    rfl

theorem decode_ok : decode bytes = .ok bundle ↔
    validateBundle bundle true = .ok () ∧ (∀ file ∈ bundle.files, utf8Len file.path ≤ maxPathBytes) ∧
      bytes = image bundle := by
  unfold decode
  constructor
  · intro decoded
    obtain ⟨⟨found,remaining⟩,read,decoded⟩ := bind_ok decoded
    dsimp only at decoded
    split at decoded
    · cases decoded
    · rename_i nothing
      obtain ⟨⟨⟩,valid,decoded⟩ := bind_ok decoded
      cases decoded
      have checked := validateBundle_checked valid
      obtain ⟨_,each,_,joined⟩ := (readBundle_ok checked.count).mp read
      rw [not_not.mp nothing,List.append_nil] at joined
      exact ⟨valid,fun file member => (each file member).2.1,joined⟩
  · intro ⟨valid,short,same⟩
    have checked := validateBundle_checked valid
    have entry : 0 < utf8Len bundle.entry ∧ utf8Len bundle.entry ≤ maxPathBytes := by
      rw [checked.entry]
      exact utf8Len_portableEntry
    have read : readBundle bytes = .ok (bundle,[]) := by
      refine (readBundle_ok checked.count).mpr ⟨entry,?_,checked.total,by rw [same,List.append_nil]⟩
      intro file member
      exact ⟨positive_of_portable (checked.portable file member),short file member,checked.small file member⟩
    rw [ok_bind read]
    dsimp only
    rw [if_neg (not_not.mpr rfl),ok_bind valid]
    rfl

-- A bundle that was written reads back as itself exactly when every asset path,
-- as it is spelled, keeps the limit the reader puts on strings. The check of a
-- path measures its components, so a longer spelling is written all the same.
-- Whatever reads is what the bundle it gives is written as.
theorem written_reads_back_iff (bundle : ViewBundle) (bytes : Bytes) : (encode bundle = .ok bytes →
      (decode bytes = .ok bundle ↔ ∀ file ∈ bundle.files, utf8Len file.path ≤ maxPathBytes)) ∧
      (decode bytes = .ok bundle → encode bundle = .ok bytes) := by
  constructor
  · intro written
    obtain ⟨valid,_,same⟩ := encode_ok.mp written
    rw [decode_ok]
    constructor
    · intro ⟨_,short,_⟩; exact short
    · intro short; exact ⟨validateBundle_any true valid,short,same⟩
  · intro read
    obtain ⟨valid,short,same⟩ := decode_ok.mp read
    refine encode_ok.mpr ⟨validateBundle_any false valid,?_,same⟩
    intro file member
    have fits := short file member
    unfold maxPathBytes at fits
    omega

def longSpelling : ViewBundle :=
  ⟨1,portableEntry,[⟨'a' :: (List.replicate 1024 '/' ++ ['b']),[]⟩,⟨portableEntry,[]⟩]⟩

theorem long_spelling_is_written_but_not_read :
    ¬∀ bundle bytes,encode bundle = .ok bytes → decode bytes = .ok bundle := by
  intro reads
  have shown : validateBundle longSpelling false = .ok () ∧ (∀ file ∈ longSpelling.files, utf8Len file.path < 2^32) ∧
      ¬∀ file ∈ longSpelling.files, utf8Len file.path ≤ maxPathBytes := by decide +kernel
  obtain ⟨valid,fits,beyond⟩ := shown
  obtain ⟨_,short,_⟩ := decode_ok.mp (reads longSpelling _ (encode_ok.mpr ⟨valid,fits,rfl⟩))
  exact beyond short

end View
end HologramLive
