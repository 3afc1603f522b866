import HologramLive.Holo.Types
import HologramLive.Lib.JsonText
import HologramLive.Lib.Packs
namespace HologramLive.Buckets
open Packs

def boundaryBits : Nat := 5
def nodeType : Str := "application/vnd.uor.bucket.node.v1".toList
def indexMt : Str := "application/vnd.oci.image.index.v1+json".toList
def manifestMt : Str := "application/vnd.oci.image.manifest.v1+json".toList
def bucketKey : Str := "foundation.uor.bucket.key".toList
def bucketSize : Str := "foundation.uor.bucket.size".toList
def bucketMtime : Str := "foundation.uor.bucket.mtime".toList
def bucketLast : Str := "foundation.uor.bucket.last".toList
def bucketLevel : Str := "foundation.uor.bucket.level".toList
def objectRoot : Str := "foundation.uor.object.root".toList

structure IndexEntry where
  manifest : Str
  manifestSize : Nat
  root : Str
  size : Nat
  mtime : Nat
deriving DecidableEq, Repr

structure IndexBlock where
  bytes : Bytes
  digest : Str
  size : Nat
deriving DecidableEq, Repr

structure NodeRef where
  digest : Str
  size : Nat
  last : Str
deriving DecidableEq, Repr

structure IndexTree where
  root : Str
  rootSize : Nat
  nodes : List IndexBlock
  levels : Nat
deriving DecidableEq, Repr

def codeUnits (c : Char) : List Nat :=
  if c.toNat < 0x10000 then [c.toNat] else [0xd800+(c.toNat-0x10000)/0x400,0xdc00+(c.toNat-0x10000)%0x400]
def utf16 (text : Str) : List Nat := text.flatMap codeUnits
def keyLe (a b : Str) : Bool := (compare (utf16 a) (utf16 b)).isLE

def sortedEntries (entries : List (Str × IndexEntry)) : List (Str × IndexEntry) :=
  entries.mergeSort fun left right => keyLe left.1 right.1

section Build
variable (sha256 : Bytes → Bytes)

def zeroBits : Bytes → Nat
  | [] => 0
  | byte :: rest => if byte = 0 then 8+zeroBits rest else 7-Nat.log2 byte.toNat

def leadingZeroBits (key : Str) : Nat := zeroBits (sha256 (toUtf8 key))
def isBoundary (key : Str) (level : Nat) : Bool := decide (boundaryBits*(level+1) ≤ leadingZeroBits sha256 key)

def jsonBlock (value : Json) : IndexBlock :=
  let bytes := toUtf8 value.print
  ⟨bytes,"sha256:".toList ++ hex (sha256 bytes),bytes.length⟩

def descriptorFor (entry : Str × IndexEntry) : Json :=
  .object [("mediaType".toList,.string manifestMt),("digest".toList,.string entry.2.manifest),
    ("size".toList,.number entry.2.manifestSize),("annotations".toList,.object [(bucketKey,.string entry.1),
      (bucketSize,.string (decimal entry.2.size)),(bucketMtime,.string (decimal entry.2.mtime)),
      (objectRoot,.string entry.2.root)])]

def childDescriptor (child : NodeRef) : Json :=
  .object [("mediaType".toList,.string indexMt),("digest".toList,.string child.digest),("size".toList,.number child.size),
    ("annotations".toList,.object [(bucketLast,.string child.last)])]

def nodeDocument (children : List Json) (level : Nat) (last : Str) : Json :=
  .object [("schemaVersion".toList,.number 2),("mediaType".toList,.string indexMt),("artifactType".toList,.string nodeType),
    ("manifests".toList,.array children),
    ("annotations".toList,.object [(bucketLast,.string last),(bucketLevel,.string (decimal level))])]

def makeNode (children : List Json) (level : Nat) (last : Str) : IndexBlock × NodeRef :=
  let b := jsonBlock sha256 (nodeDocument children level last)
  (b,⟨b.digest,b.size,last⟩)

def leafNode (group : List (Str × IndexEntry)) : IndexBlock × NodeRef :=
  makeNode sha256 (group.map descriptorFor) 0 ((group.getLast?.map Prod.fst).getD [])

def innerNode (levels : Nat) (pack : List NodeRef) : IndexBlock × NodeRef :=
  makeNode sha256 (pack.map childDescriptor) levels ((pack.getLast?.map NodeRef.last).getD [])

def leafGroups (sorted : List (Str × IndexEntry)) : List (List (Str × IndexEntry)) :=
  let groups := runs (fun e => isBoundary sha256 e.1 0) sorted []
  if groups.isEmpty then [[]] else groups

def packsOf (levels : Nat) (level : List NodeRef) : List (List NodeRef) :=
  let packs := runs (fun n => isBoundary sha256 n.last levels) level []
  if packs.length = level.length then [level] else packs

theorem packsOf_shorter (levels : Nat) (many : 1 < level.length) :
    (packsOf sha256 levels level).length < level.length := by
  have short := runs_length (fun n : NodeRef => isBoundary sha256 n.last levels) level
  unfold packsOf
  dsimp only
  split
  · exact many
  · omega

def climb (level : List NodeRef) (levels : Nat) (nodes : List IndexBlock) : Option IndexTree :=
  if _ : 1 < level.length then
    let made := (packsOf sha256 levels level).map (innerNode sha256 levels)
    climb (made.map Prod.snd) (levels+1) (nodes ++ made.map Prod.fst)
  else level.head?.map fun root => ⟨root.digest,root.size,nodes,levels⟩
termination_by level.length
decreasing_by
  simp only [List.length_map]
  exact packsOf_shorter sha256 levels ‹_›

def build (entries : List (Str × IndexEntry)) : Option IndexTree :=
  let made := (leafGroups sha256 (sortedEntries entries)).map (leafNode sha256)
  climb sha256 (made.map Prod.snd) 1 (made.map Prod.fst)

end Build

def numberOf (text : Str) : Option Nat := if text.all Char.isDigit then some (Nat.ofDigitChars 10 text 0) else none

def stringAt (document : Json) (key : Str) : Option Str := (document.get key).bind Json.asStr
def numberAt (document : Json) (key : Str) : Option Nat :=
  match document.get key with
  | some (.number n) => some n
  | _ => none

def levelOf (node : Json) : Option Nat :=
  match (node.get "annotations".toList).bind fun a => a.get bucketLevel with
  | some text => text.asStr.bind numberOf
  | none => some 0

def childrenOf (node : Json) : Option (List Json) := (node.get "manifests".toList).bind Json.asArray

def digestOf (child : Json) : Option Str := stringAt child "digest".toList

def entryOf (child : Json) : Option (Str × IndexEntry) := do
  let a ← child.get "annotations".toList
  let key ← stringAt a bucketKey
  let manifest ← digestOf child
  let manifestSize ← numberAt child "size".toList
  let size ← (stringAt a bucketSize).bind numberOf
  let mtime ← (stringAt a bucketMtime).bind numberOf
  let root ← stringAt a objectRoot
  return (key,⟨manifest,manifestSize,root,size,mtime⟩)

-- The rows below a node, to a depth. What is not a node of an index has none.
def treeWalk (load : Str → Option Json) : Nat → Str → Option (List (Str × IndexEntry))
  | 0,_ => none
  | depth+1,digest => do
    let node ← load digest
    let level ← levelOf node
    let children ← childrenOf node
    if level = 0 then children.mapM entryOf
    else (children.mapM fun child => (digestOf child).bind (treeWalk load depth)).map List.flatten

end HologramLive.Buckets
