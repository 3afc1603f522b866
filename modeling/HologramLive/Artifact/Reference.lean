import HologramLive.Artifact.Transfer
import HologramLive.Registry.Paths
namespace HologramLive
open Fallible

structure RegistryConfig where
  endpoint : Str
  «namespace» : Str
deriving DecidableEq, Repr

def isWhitespace (c : Char) : Bool :=
  (9 ≤ c.toNat && c.toNat ≤ 13) || (8192 ≤ c.toNat && c.toNat ≤ 8202) ||
    c.toNat ∈ [32,133,160,5760,8232,8233,8239,8287,12288]

def trimEndMatches (p : Char → Bool) (text : Str) : Str := (text.reverse.dropWhile p).reverse
def trimMatches (p : Char → Bool) (text : Str) : Str := trimEndMatches p (text.dropWhile p)
def trimWhitespace (text : Str) : Str := trimMatches isWhitespace text

def validateTag (tag : Str) : Except LiveError Unit :=
  match tag with
  | [] => .error (.protocol ("artifact tag ".toList ++ quoted tag ++ " must be 1 to 128 characters".toList))
  | first :: rest =>
    if 128 < utf8Len tag then
      .error (.protocol ("artifact tag ".toList ++ quoted tag ++ " must be 1 to 128 characters".toList))
    else if !(asciiAlnum first || first = '_') then .error (.protocol ("artifact tag ".toList ++ quoted tag ++
      " must start with an alphanumeric or underscore".toList))
    else if !rest.all fun c => asciiAlnum c || c ∈ ['.','_','-'] then .error (.protocol ("artifact tag ".toList ++
      quoted tag ++ " contains a character outside the OCI tag grammar".toList))
    else .ok ()

def validateSegment (label : String) (segment : Str) : Except LiveError Unit :=
  if segment.isEmpty then .error (.protocol ("artifact reference ".toList ++ label.toList ++ " segment is empty".toList))
  else if !segment.all fun c => lowerAlnum c || c ∈ ['.','_','-'] then .error (.protocol ("artifact reference ".toList ++
    label.toList ++ [' '] ++ quoted segment ++ " must be lowercase alphanumeric with '.', '_', or '-'".toList))
  else .ok ()

def isHost (segment : Str) : Bool := segment.contains ':' || segment.contains '.' || segment = "localhost".toList

def defaultHost (config : RegistryConfig) : Except LiveError Str :=
  let endpoint := trimWhitespace config.endpoint
  let withoutScheme := ((stripPrefix "https://".toList endpoint).or (stripPrefix "http://".toList endpoint)).getD endpoint
  let host := trimEndMatches (· = '/') withoutScheme
  if host.isEmpty then .error (.config "registry.endpoint must be set to resolve a bare artifact reference".toList)
  else .ok host

variable (input : Str)

-- The tag follows the last colon, unless a slash follows that colon.
def splitTag : Str × Str :=
  match rsplitOnce ':' input with
  | some (body,tag) => if '/' ∈ tag then (input,"latest".toList) else (body,tag)
  | none => (input,"latest".toList)

def segmentsOf (body : Str) : List Str := (body.splitOn '/').filter fun segment => !segment.isEmpty

def chooseHost (leading : List Str) (config : RegistryConfig) : Except LiveError (Str × List Str) :=
  match leading with
  | first :: rest => if isHost first then .ok (first,rest) else (defaultHost config).map fun host => (host,leading)
  | [] => (defaultHost config).map fun host => (host,[])

def chooseNamespace (segments : List Str) (config : RegistryConfig) : Except LiveError Str :=
  if segments.isEmpty then .ok (trimMatches (· = '/') config.namespace)
  else do
    let _ ← segments.mapM (validateSegment "namespace")
    return ['/'].intercalate segments

def ArtifactRef.parse (config : RegistryConfig) : Except LiveError ArtifactRef :=
  let input := trimWhitespace input
  if input.isEmpty then .error (.protocol "artifact reference is empty".toList)
  else do
    let (body,tag) := splitTag input
    validateTag tag
    match (segmentsOf body).getLast? with
    | none => .error (.protocol ("artifact reference ".toList ++ quoted input ++ " has no name".toList))
    | some name =>
      validateSegment "name" name
      let (host,segments) ← chooseHost (segmentsOf body).dropLast config
      let space ← chooseNamespace segments config
      if space.isEmpty then
        .error (.protocol "artifact reference has no namespace and registry.namespace is empty".toList)
      else return ⟨host,space,name,tag⟩

-- The parts of an input that a reference is made of.
namespace Input

def body : Str := (splitTag (trimWhitespace input)).1
def leading : List Str := (segmentsOf (body input)).dropLast
def name : Str := (segmentsOf (body input)).getLast?.getD []

def ownHost : Option Str :=
  match leading input with
  | first :: _ => if isHost first then some first else none
  | [] => none

def ownNamespace : List Str :=
  match leading input with
  | first :: rest => if isHost first then rest else first :: rest
  | [] => []

def space (config : RegistryConfig) : Str :=
  if (ownNamespace input).isEmpty then trimMatches (· = '/') config.namespace else ['/'].intercalate (ownNamespace input)

def host (config : RegistryConfig) : Str :=
  (ownHost input).getD ((defaultHost config).toOption.getD [])

end Input
end HologramLive
