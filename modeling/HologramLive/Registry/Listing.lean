import HologramLive.Lib.Pages
import HologramLive.Oci.Gc
import HologramLive.Registry.Paths
namespace HologramLive.Listing
open Tables Pages

def catalogDefault : Nat := 100
def tagsDefault : Nat := 1000000
def scanPage : Nat := 1000

def dropPlus : Str → Str
  | '+' :: rest => rest
  | text => text

-- `str::parse` into a type of `size` values.
def parseUnsigned (size : Nat) (text : Str) : Option Nat :=
  let digits := dropPlus text
  if digits = [] ∨ ¬digits.all Char.isDigit then none
  else
    let n := Nat.ofDigitChars 10 digits 0
    if n < size then some n else none

structure Page where
  n : Option Nat
  last : Option Str
deriving DecidableEq, Repr

def page (query : Option Str) : Except OciError Page := do
  let n ← match queryParam query "n".toList with
    | none => .ok none
    | some text => match parseUnsigned USize.size text with
      | some n => .ok (some n)
      | none => .error ((OciError.new .paginationNumberInvalid).withDetail (.object [("n".toList,.string text)]))
  let last := (queryParam query "last".toList).filter fun last => !last.isEmpty
  return ⟨n,last⟩

def trim {α : Type} (items : List α) (limit : Nat) : List α × Bool := (items.take limit,decide (limit < items.length))

structure Response where
  body : OciJson
  link : Option Str

def headerValue (text : Str) : Option Str :=
  if text.all fun c => c = '\t' || (' ' ≤ c && c ≤ '~') then some text else none

def respond (body : OciJson) (next : Option Str) : Response := ⟨body,next.bind headerValue⟩

def linkNext (path last : Str) (n : Nat) : Str :=
  "<".toList ++ path ++ "?last=".toList ++ last ++ "&n=".toList ++ decimal n ++ ">; rel=\"next\"".toList

def nextLink {α : Type} (path : Str) (text : α → Str) (limit : Nat) (more : Bool) (items : List α) : Option Str :=
  match more,items.getLast? with
  | true,some last => some (linkNext path (text last) limit)
  | _,_ => none

def manifestLinked (row : Digest × Link) : Bool := decide (row.2.kind ≠ .blob)

def holdsAManifest (c : Content) (repo : RepoName) : Bool :=
  search manifestLinked (fun after => c.linksPage repo after scanPage) (·.1) scanPage ((c.linksOf repo).length+1) none

def tagsPath (repo : RepoName) : Str := "/v2/".toList ++ repo.text ++ tagsListWord
def catalogPath : Str := "/v2/_catalog".toList

-- No list is as long as the largest word, so that the bound on the read need not
-- saturate.
def tags (s : OciStore) (repo : RepoName) (query : Option Str) : Except OciError Response × OciStore :=
  match page query with
  | .error e => (.error e,s)
  | .ok asked =>
    let limit := asked.n.getD tagsDefault
    match s.tagsPage repo asked.last (limit+1) with
    | (.error e,s') => (.error (.fromStore e .tags),s')
    | (.ok found,s') =>
      if found.isEmpty && asked.last.isNone && !holdsAManifest s'.toContent repo then
        (.error (.fromStore (.unknownRepository repo.text) .tags),s')
      else
        let (tags,more) := trim found limit
        (.ok (respond (.object [("name".toList,.string repo.text),
          ("tags".toList,.array (tags.map fun tag => .string tag.text))]) (nextLink (tagsPath repo) Tag.text limit more tags)),s')

def reposAfter (c : Content) (after : Option Str) (limit : Nat) : List RepoName :=
  pageAfter RepoName.text (fun a b => compare a b == .lt) c.repos.toList after limit

def keepListed (c : Content) (limit : Nat) : List RepoName → List RepoName → List RepoName × Bool
  | out,[] => (out,false)
  | out,repo :: rest =>
    if holdsAManifest c repo then
      let out := out ++ [repo]
      if limit < out.length then (out,true) else keepListed c limit out rest
    else keepListed c limit out rest

def catalogScan (c : Content) (limit : Nat) : Nat → Option Str → List RepoName → List RepoName
  | 0,_,out => out
  | turns+1,after,out =>
    let page := reposAfter c after scanPage
    let (out,full) := keepListed c limit out page
    if full || decide (page.length < scanPage) then out
    else catalogScan c limit turns (page.getLast?.map (·.text)) out

def catalog (c : Content) (query : Option Str) : Except OciError Response := do
  let asked ← page query
  let limit := asked.n.getD catalogDefault
  let found := catalogScan c limit (c.repos.toList.length+1) asked.last []
  let (repos,more) := trim found limit
  return respond (.object [("repositories".toList,.array (repos.map fun repo => .string repo.text))])
    (nextLink catalogPath RepoName.text limit more repos)

def get (s : OciStore) (url : Str) : Except OciError Response × OciStore :=
  let (path,query) := match splitOnce '?' url with
    | some (path,query) => (path,some query)
    | none => (url,none)
  match decode ((stripPrefix "/v2/".toList path).getD []) with
  | none => (.error .unknownRoute,s)
  | some rest => match parse .get rest with
    | .error e => (.error e,s)
    | .ok (.tagsList repo) => tags s repo query
    | .ok .catalog => (catalog s.toContent query,s)
    | .ok _ => (.error .unknownRoute,s)

def names (key : Str) (body : OciJson) : List Str :=
  (((body.get key).bind OciJson.asArray).getD []).filterMap OciJson.asStr

def linkTarget (link : Str) : Option Str :=
  (splitOnce '<' link).bind fun parts => (splitOnce '>' parts.2).map (·.1)

def follow (key : Str) : Nat → OciStore → Str → Option (Except OciError (List Str))
  | 0,_,_ => none
  | turns+1,s,url => match get s url with
    | (.error e,_) => some (.error e)
    | (.ok response,s') => match response.link.bind linkTarget with
      | none => some (.ok (names key response.body))
      | some next => (follow key turns s' next).map fun rest => rest.map (names key response.body ++ ·)

def firstUrl (path : Str) (n : Nat) : Str := path ++ "?n=".toList ++ decimal n

end HologramLive.Listing
