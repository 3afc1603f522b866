import HologramLive.Registry.Errors
import HologramLive.Lib.Fallible
namespace HologramLive
open Fallible Option

inductive Method where
  | get
  | head
  | post
  | put
  | patch
  | delete
  | options
  | connect
  | trace
  | extension (name : Str)
deriving DecidableEq, Repr

inductive ManifestVerb where
  | get
  | head
  | put
  | delete
deriving DecidableEq, Repr

inductive BlobVerb where
  | get
  | head
  | delete
deriving DecidableEq, Repr

inductive UploadVerb where
  | status
  | patch
  | put
  | delete
deriving DecidableEq, Repr

inductive Route where
  | base
  | catalog
  | tagsList (repo : RepoName)
  | manifest (repo : RepoName) (reference : Reference) (verb : ManifestVerb)
  | blob (repo : RepoName) (digest : Digest) (verb : BlobVerb)
  | uploadStart (repo : RepoName)
  | upload (repo : RepoName) (id : UploadId) (verb : UploadVerb)
  | referrers (repo : RepoName) (digest : Digest)
  | options (allow : Str)
deriving DecidableEq, Repr

def stripSuffix (suffix text : Str) : Option Str :=
  if suffix <:+ text then some (text.take (text.length - suffix.length)) else none
def stripPrefix (start text : Str) : Option Str :=
  if start <+: text then some (text.drop start.length) else none
def rsplitOnce (separator : Char) (text : Str) : Option (Str × Str) :=
  (splitOnce separator text.reverse).map fun parts => (parts.2.reverse,parts.1.reverse)

-- What a path asks for, read by shape before any part of it is checked.
inductive Scope where
  | base
  | catalog
  | repository (name : Str)
deriving DecidableEq, Repr

def tagsListWord : Str := "/tags/list".toList
def uploadsSlashWord : Str := "/blobs/uploads/".toList
def uploadsWord : Str := "/blobs/uploads".toList
def manifestsWord : Str := "/manifests".toList
def blobsWord : Str := "/blobs".toList
def referrersWord : Str := "/referrers".toList

def Scope.of (rest : Str) : Option Scope :=
  if rest = [] then some .base
  else if rest = "_catalog".toList then some .catalog
  else
    let name := ((stripSuffix tagsListWord rest).or (stripSuffix uploadsSlashWord rest)).or <|
      (rsplitOnce '/' rest).bind fun parts =>
        if parts.2 = [] then none
        else [uploadsWord,manifestsWord,blobsWord,referrersWord].findSome? fun keyword => stripSuffix keyword parts.1
    name.bind fun name => if name = [] then none else some (.repository name)

def allowGet : Str := "GET".toList
def allowPost : Str := "POST".toList
def allowManifest : Str := "DELETE, GET, HEAD, PUT".toList
def allowBlob : Str := "DELETE, GET, HEAD".toList
def allowUpload : Str := "DELETE, GET, HEAD, PATCH, PUT".toList

-- `u8::from_str_radix` of two characters in base 16. A leading plus is a sign.
def hexValue (c : Char) : Option Nat :=
  if c.isDigit then some (c.toNat - '0'.toNat)
  else if 'a' ≤ c ∧ c ≤ 'f' then some (c.toNat - 'a'.toNat + 10)
  else if 'A' ≤ c ∧ c ≤ 'F' then some (c.toNat - 'A'.toNat + 10)
  else none
def fromStrRadix (high low : Char) : Option UInt8 :=
  match hexValue low with
  | none => none
  | some units => if high = '+' then some (UInt8.ofNat units)
    else (hexValue high).map fun sixteens => UInt8.ofNat (16 * sixteens + units)

-- The decoded bytes. The two bytes after a percent sign are read as text, so
-- they are two characters or the reading fails.
def percentBytes (slashAllowed : Bool) : Str → Option Bytes
  | [] => some []
  | '%' :: high :: low :: rest => match fromStrRadix high low with
    | none => none
    | some byte =>
      if byte = UInt8.ofNat '/'.toNat ∧ slashAllowed = false then none
      else (percentBytes slashAllowed rest).map fun bytes => byte :: bytes
  | c :: rest =>
    if c = '%' then none else (percentBytes slashAllowed rest).map fun bytes => String.utf8EncodeChar c ++ bytes

def percentDecode (raw : Str) (slashAllowed : Bool) : Option Str :=
  if '%' ∈ raw then (percentBytes slashAllowed raw).bind fromUtf8 else some raw

-- A slash inside a component, or what is not valid encoding or UTF-8, makes a
-- path no route.
def decode (raw : Str) : Option Str := percentDecode raw false

def queryPair (pair : Str) : Str × Str := (splitOnce '=' pair).getD (pair,[])

def queryParam (query : Option Str) (name : Str) : Option Str :=
  query.bind fun query => (query.splitOn '&').findSome? fun pair =>
    if (queryPair pair).1 = name then percentDecode (queryPair pair).2 true else none

def pick (method : Method) (allow : Str) (route : Method → Option Route) : Except OciError Route :=
  if method = .options then .ok (.options allow)
  else match route method with
    | some route => .ok route
    | none => .error (.wrongMethod allow)

def repoOf (name : Str) : Except OciError RepoName :=
  match RepoName.parse name with
  | .ok repo => .ok repo
  | .error _ => .error .unknownRoute

def digestOfPath (value : Str) : Except OciError Digest :=
  (Digest.parse value).mapError fun error => .fromStore error .blob

-- A tag outside the grammar is no route; a malformed digest is an error and is
-- never read as a tag.
def referenceOf (tail : Str) : Except OciError Reference :=
  (Reference.parse tail).mapError fun error => if ':' ∈ tail then .fromStore error .manifest else .unknownRoute

def manifestVerb : Method → Option ManifestVerb
  | .get => some .get
  | .head => some .head
  | .put => some .put
  | .delete => some .delete
  | _ => none
def blobVerb : Method → Option BlobVerb
  | .get => some .get
  | .head => some .head
  | .delete => some .delete
  | _ => none
def uploadVerb : Method → Option UploadVerb
  | .get | .head => some .status
  | .patch => some .patch
  | .put => some .put
  | .delete => some .delete
  | _ => none

def parseTagsList (method : Method) (name : Str) : Except OciError Route := do
  let repo ← repoOf name
  pick method allowGet fun method => if method = .get then some (.tagsList repo) else none

def parseUploadStart (method : Method) (name : Str) : Except OciError Route := do
  let repo ← repoOf name
  if method ∈ [.get,.head,.patch,.put,.delete] then .error .uploadUnknown
  else pick method allowPost fun method => if method = .post then some (.uploadStart repo) else none

def parseUpload (method : Method) (name tail : Str) : Except OciError Route := do
  let repo ← repoOf name
  let id ← (UploadId.parse tail).mapError fun error => .fromStore error .upload
  pick method allowUpload fun method => (uploadVerb method).map fun verb => .upload repo id verb

def parseManifest (method : Method) (name tail : Str) : Except OciError Route := do
  let repo ← repoOf name
  let reference ← referenceOf tail
  pick method allowManifest fun method => (manifestVerb method).map fun verb => .manifest repo reference verb

def parseBlob (method : Method) (name tail : Str) : Except OciError Route := do
  let repo ← repoOf name
  let digest ← digestOfPath tail
  pick method allowBlob fun method => (blobVerb method).map fun verb => .blob repo digest verb

def parseReferrers (method : Method) (name tail : Str) : Except OciError Route := do
  let repo ← repoOf name
  let digest ← digestOfPath tail
  pick method allowGet fun method => if method = .get then some (.referrers repo digest) else none

-- The routes that end in a reference, a digest or an upload id. The longer of
-- the two keywords that end alike comes first.
def parseTail (method : Method) (head tail : Str) : Except OciError Route :=
  match stripSuffix uploadsWord head with
  | some name => parseUpload method name tail
  | none => match stripSuffix manifestsWord head with
    | some name => parseManifest method name tail
    | none => match stripSuffix blobsWord head with
      | some name => parseBlob method name tail
      | none => match stripSuffix referrersWord head with
        | some name => parseReferrers method name tail
        | none => .error .unknownRoute

def parse (method : Method) (rest : Str) : Except OciError Route :=
  if rest = [] then .ok .base
  else if rest = "_catalog".toList then
    pick method allowGet fun method => if method = .get then some .catalog else none
  else match stripSuffix tagsListWord rest with
    | some name => parseTagsList method name
    | none => match stripSuffix uploadsSlashWord rest with
      | some name => parseUploadStart method name
      | none => match rsplitOnce '/' rest with
        | none => .error .unknownRoute
        | some (head,tail) => if tail = [] then .error .unknownRoute else parseTail method head tail

-- What a routed path stands for: the base, the catalogue or one repository. An
-- `OPTIONS` route carries the allowed methods and acts on none of them.
inductive Target where
  | base
  | catalog
  | repository (repo : RepoName)
deriving DecidableEq, Repr

def Target.scope : Target → Scope
  | .base => .base
  | .catalog => .catalog
  | .repository repo => .repository repo.text

def Route.target : Route → Option Target
  | .base => some .base
  | .catalog => some .catalog
  | .tagsList repo | .manifest repo _ _ | .blob repo _ _ | .uploadStart repo | .upload repo _ _ | .referrers repo _ =>
    some (.repository repo)
  | .options _ => none

def Route.TakenBy (method : Method) : Route → Prop
  | .base => True
  | .catalog | .tagsList _ | .referrers _ _ => method = .get
  | .manifest _ _ verb => manifestVerb method = some verb
  | .blob _ _ verb => blobVerb method = some verb
  | .uploadStart _ => method = .post
  | .upload _ _ verb => uploadVerb method = some verb
  | .options _ => method = .options

variable {name : Str}

theorem repoOf_ok (parsed : repoOf name = .ok repo) : repo.text = name ∧ name ≠ [] := by
  unfold repoOf RepoName.parse at parsed
  split at parsed
  · rename_i accepted
    cases parsed
    split at accepted
    · rename_i valid
      cases accepted
      refine ⟨rfl,?_⟩
      intro empty
      subst empty
      simp [repoNameLegal] at valid
    · cases accepted
  · cases parsed

variable {method : Method} {route : Route} {candidate : Method → Option Route}

theorem pick_ok (picked : pick method allow candidate = .ok route) :
    (route.target = none ∧ route.TakenBy method) ∨ candidate method = some route := by
  unfold pick at picked
  split at picked
  · rename_i asked; cases picked; exact .inl ⟨rfl,asked⟩
  · split at picked
    · rename_i found; cases picked; exact .inr found
    · cases picked

-- Routes on a repository are read from their name alone: what follows only
-- chooses among the routes on it.
def OnRepository (method : Method) (name : Str) (route : Route) : Prop :=
  ∃ repo : RepoName,repo.text = name ∧ name ≠ [] ∧ route.TakenBy method ∧ ∀ own ∈ route.target,own = .repository repo

theorem picked_onRepository (named : repoOf name = .ok repo) (picked : pick method allow candidate = .ok route)
    (acts : ∀ made,candidate method = some made → made.target = some (.repository repo) ∧ made.TakenBy method) :
    OnRepository method name route := by
  obtain ⟨text,nonempty⟩ := repoOf_ok named
  rcases pick_ok picked with ⟨nowhere,taken⟩ | made
  · refine ⟨repo,text,nonempty,taken,?_⟩
    intro own here
    rw [nowhere] at here; cases here
  · obtain ⟨there,taken⟩ := acts route made
    refine ⟨repo,text,nonempty,taken,?_⟩
    intro own here
    rw [there] at here
    exact (Option.some.inj here).symm

theorem parseTagsList_on (parsed : parseTagsList method name = .ok route) : OnRepository method name route := by
  obtain ⟨repo,named,picked⟩ := bind_ok parsed
  apply picked_onRepository named picked
  intro made chosen
  split at chosen
  · rename_i asked; cases chosen; exact ⟨rfl,asked⟩
  · cases chosen

theorem parseUploadStart_on (parsed : parseUploadStart method name = .ok route) : OnRepository method name route := by
  obtain ⟨repo,named,picked⟩ := bind_ok parsed
  split at picked
  · cases picked
  · apply picked_onRepository named picked
    intro made chosen
    split at chosen
    · rename_i asked; cases chosen; exact ⟨rfl,asked⟩
    · cases chosen

variable {name tail : Str}

theorem parseUpload_on (parsed : parseUpload method name tail = .ok route) : OnRepository method name route := by
  obtain ⟨repo,named,parsed⟩ := bind_ok parsed
  obtain ⟨id,-,picked⟩ := bind_ok parsed
  apply picked_onRepository named picked
  intro made chosen
  obtain ⟨verb,asked,rfl⟩ := map_eq_some_iff.mp chosen
  exact ⟨rfl,asked⟩

theorem parseManifest_on (parsed : parseManifest method name tail = .ok route) : OnRepository method name route := by
  obtain ⟨repo,named,parsed⟩ := bind_ok parsed
  obtain ⟨reference,-,picked⟩ := bind_ok parsed
  apply picked_onRepository named picked
  intro made chosen
  obtain ⟨verb,asked,rfl⟩ := map_eq_some_iff.mp chosen
  exact ⟨rfl,asked⟩

theorem parseBlob_on (parsed : parseBlob method name tail = .ok route) : OnRepository method name route := by
  obtain ⟨repo,named,parsed⟩ := bind_ok parsed
  obtain ⟨digest,-,picked⟩ := bind_ok parsed
  apply picked_onRepository named picked
  intro made chosen
  obtain ⟨verb,asked,rfl⟩ := map_eq_some_iff.mp chosen
  exact ⟨rfl,asked⟩

theorem parseReferrers_on (parsed : parseReferrers method name tail = .ok route) : OnRepository method name route := by
  obtain ⟨repo,named,parsed⟩ := bind_ok parsed
  obtain ⟨digest,-,picked⟩ := bind_ok parsed
  apply picked_onRepository named picked
  intro made chosen
  split at chosen
  · rename_i asked; cases chosen; exact ⟨rfl,asked⟩
  · cases chosen

theorem parseTail_on (parsed : parseTail method head tail = .ok route) : ∃ name,OnRepository method name route ∧
      [uploadsWord,manifestsWord,blobsWord,referrersWord].findSome? (fun keyword => stripSuffix keyword head) =
        some name := by
  unfold parseTail at parsed
  split at parsed
  · rename_i name ends
    exact ⟨name,parseUpload_on parsed,by simp [ends]⟩
  · rename_i first
    split at parsed
    · rename_i name ends
      exact ⟨name,parseManifest_on parsed,by simp [first,ends]⟩
    · rename_i second
      split at parsed
      · rename_i name ends; exact ⟨name,parseBlob_on parsed,by simp [first,second,ends]⟩
      · rename_i third; split at parsed
        · rename_i name ends
          exact ⟨name,parseReferrers_on parsed,by simp [first,second,third,ends]⟩
        · cases parsed

theorem scope_repository {rest name : Str} (longer : rest ≠ []) (other : rest ≠ "_catalog".toList)
    (on : OnRepository method name route)
    (read : ((stripSuffix tagsListWord rest).or (stripSuffix uploadsSlashWord rest)).or
      ((rsplitOnce '/' rest).bind fun parts => if parts.2 = [] then none
        else [uploadsWord,manifestsWord,blobsWord,referrersWord].findSome? fun keyword => stripSuffix keyword parts.1) =
      some name) :
    route.TakenBy method ∧ ∃ target : Target,Scope.of rest = some target.scope ∧ ∀ own ∈ route.target,own = target := by
  obtain ⟨repo,text,nonempty,taken,acts⟩ := on
  refine ⟨taken,.repository repo,?_,acts⟩
  unfold Scope.of
  rw [if_neg longer,if_neg other,read]
  simp [nonempty,text,Target.scope]

-- The two readers of a path agree: whatever the router makes of it, the scope is
-- that of the one place the route acts on, and the method is one of the route's.
theorem parse_scope (parsed : parse method rest = .ok route) :
    route.TakenBy method ∧ ∃ target : Target,Scope.of rest = some target.scope ∧ ∀ own ∈ route.target,own = target := by
  unfold parse at parsed
  split at parsed
  · rename_i empty
    cases parsed
    exact ⟨trivial,.base,by simp [Scope.of,empty,Target.scope],fun own here => (Option.some.inj here).symm⟩
  · rename_i longer
    split at parsed
    · rename_i catalog
      have scope : Scope.of rest = some Target.catalog.scope := by simp [Scope.of,catalog,Target.scope]
      rcases pick_ok parsed with ⟨nowhere,taken⟩ | made
      · refine ⟨taken,.catalog,scope,?_⟩
        intro own here
        rw [nowhere] at here; cases here
      · split at made
        · rename_i asked; cases made
          exact ⟨asked,.catalog,scope,fun own here => (Option.some.inj here).symm⟩
        · cases made
    · rename_i other
      split at parsed
      · rename_i name ends
        apply scope_repository longer other (parseTagsList_on parsed)
        simp [ends]
      · rename_i first; split at parsed
        · rename_i name ends
          apply scope_repository longer other (parseUploadStart_on parsed)
          simp [first,ends]
        · rename_i second; split at parsed
          · cases parsed
          · rename_i head tail parts; split at parsed
            · cases parsed
            · rename_i filled
              obtain ⟨name,on,read⟩ := parseTail_on parsed
              apply scope_repository longer other on
              simp only [first,second,parts,or_none,none_or,bind_some,if_neg filled,read]

end HologramLive
