import HologramLive.Lib.Runs
import HologramLive.Names.Chain

namespace Names
open Js Tables List

variable {κ : Type} {primitives : Primitives κ}

structure Intact (primitives : Primitives κ) (opened : Opened κ) (entries : List Value) : Prop where
  file : opened.disk.log.getD [] = entries.flatMap fun e => canon e ++ [10]
  key : opened.disk.key = some opened.log.key
  seq : opened.log.seq = entries.length
  chain : Chain primitives 0 none entries opened.log.prev
  latest : opened.log.latest = entries.foldl track ∅
  shaped : ∀ e ∈ entries,Shaped e

theorem lines_entries {entries : List Value} (shaped : ∀ e ∈ entries,Shaped e) :
    lines (entries.flatMap fun e => canon e ++ [10]) = entries.map canon := by
  unfold lines
  induction entries with
  | nil => rfl
  | cons e rest ih =>
    obtain ⟨plain,some_⟩ := (shaped e mem_cons_self).line
    have split : (canon e ++ 10 :: rest.flatMap fun e => canon e ++ [10]).splitOn 10 =
        canon e :: (rest.flatMap fun e => canon e ++ [10]).splitOn 10 := by
      rw [splitOn_append_cons_self,splitOn_eq_singleton plain]
      rfl
    have kept : (!(canon e).isEmpty) = true := by simpa using some_
    rw [flatMap_cons,append_assoc,singleton_append,split,filter_cons,if_pos kept,
      ih fun other member => shaped other (mem_cons_of_mem _ member)]
    rfl

theorem track_sorted (shaped : Shaped e) (latest : Table Text Value) : track latest (sorted e) = track latest e := by
  unfold track
  rw [shaped.get,shaped.get,shaped.get,shaped.get]

theorem number_cases (number : isNumber found n = true) : found = some (.num (digits n)) := by
  unfold isNumber at number
  split at number
  · rw [of_decide_eq_true number]
  · cases number

theorem seqOf_number (number : isNumber (e.get? (ascii "seq")) n = true) : seqOf e = some n := by
  unfold seqOf
  rw [number_cases number]
  exact naturalOf_digits n

theorem resume_chain {log : NamesLog κ} {last : Option Text} {entries : List Value} (shaped : ∀ e ∈ entries,Shaped e)
    (chain : Chain primitives log.seq log.prev entries last) : resume primitives log (entries.map canon) =
      some { log with seq := log.seq+entries.length,prev := last,latest := entries.foldl track log.latest } := by
  induction entries generalizing log with
  | nil =>
    have same : log.prev = last := chain
    rw [←same]
    rfl
  | cons e rest ih =>
    obtain ⟨numbered,_,later⟩ := chain
    have shape := shaped e mem_cons_self
    have number : seqOf (sorted e) = some (log.seq+1) := seqOf_number (by rw [shape.get]; exact numbered)
    have inner := @ih { log with seq := log.seq+1,prev := some (primitives.sha (canon e)),latest := track log.latest e }
      (fun other member => shaped other (mem_cons_of_mem _ member)) later
    rw [map_cons,resume,shape.parse,Option.bind_some,number,Option.bind_some,shape.canon,track_sorted shape,inner]
    simp only [length_cons,foldl_cons]
    rw [show log.seq+1+rest.length = log.seq+(rest.length+1) by omega]

theorem Intact.reopens (intact : Intact primitives opened_ entries) (witness : Text) (generated : κ) :
    opened primitives witness generated opened_.disk = some ⟨opened_.disk,{ opened_.log with witness := witness }⟩ := by
  have resumed := @resume_chain κ primitives ⟨witness,opened_.log.key,0,none,∅⟩ _ entries intact.shaped intact.chain
  unfold opened
  rw [intact.key,intact.file,lines_entries intact.shaped]
  show (resume primitives ⟨witness,opened_.log.key,0,none,∅⟩ (entries.map canon)).map _ = _
  rw [resumed]
  obtain ⟨⟨log,key⟩,⟨before,held,seq,prev,latest⟩⟩ := opened_
  have sameKey : key = some held := intact.key
  have sameSeq : seq = entries.length := intact.seq
  have sameLatest : latest = entries.foldl track ∅ := intact.latest
  subst sameKey sameSeq sameLatest
  simp only [Option.map_some,Option.getD_some,Nat.zero_add]

theorem Intact.witness (intact : Intact primitives opened_ entries)
    (witness : Text) : Intact primitives ⟨opened_.disk,{ opened_.log with witness := witness }⟩ entries :=
  ⟨intact.file,intact.key,intact.seq,intact.chain,intact.latest,intact.shaped⟩

theorem intact_opened (made : opened primitives witness generated ⟨none,key⟩ = some opened_) :
    Intact primitives opened_ [] ∧ opened_.log.latest = ∅ := by
  unfold opened at made
  obtain ⟨log,resumed,rfl⟩ := Option.map_eq_some_iff.mp made
  cases resumed
  exact ⟨⟨rfl,rfl,rfl,rfl,rfl,by simp⟩,rfl⟩

section Append
variable {opened_ : Opened κ} {entries : List Value} {clock : Nat → Text} {kind : Text} {fields : List (Text × Value)}

def baseKeys : List Text :=
  [ascii "format",ascii "seq",ascii "kind",ascii "at",ascii "witness",ascii "prev"]

theorem entry_shaped {log : NamesLog κ} (small : log.seq+1 ≤ 2^53) (at_ kind : Text)
    (distinct : (baseKeys ++ fields.map (·.1)).Nodup)
    (written : ∀ row ∈ fields,Written row.2 ∧ sorted row.2 = row.2) : Shaped (entry log at_ kind fields) := by
  refine ⟨_,rfl,by rw [map_append]; exact distinct,fun row member => ?_⟩
  rcases mem_append.mp member with base | field
  · simp only [mem_cons,not_mem_nil,or_false] at base
    rcases base with rfl | rfl | rfl | rfl | rfl | rfl
    · exact .inl ⟨.str _,rfl⟩
    · exact .inl ⟨.num _ small,rfl⟩
    · exact .inl ⟨.str _,rfl⟩
    · exact .inl ⟨.str _,rfl⟩
    · exact .inl ⟨.str _,rfl⟩
    · cases log.prev with
      | none => exact .inr rfl
      | some text => exact .inl ⟨.str _,rfl⟩
  · exact .inl (written row field)

theorem entry_field (other : key ∉ baseKeys) : (entry log at_ kind fields).get? key = (Value.obj fields).get? key := by
  simp only [baseKeys,mem_cons,not_mem_nil,or_false,not_or] at other
  obtain ⟨format,seq,kinds,time,witness,prev⟩ := other
  simp [entry,Value.get?,Ne.symm format,Ne.symm seq,Ne.symm kinds,Ne.symm time,Ne.symm witness,Ne.symm prev]

theorem entry_seq (log : NamesLog κ) (at_ kind : Text) :
    (entry log at_ kind fields).get? (ascii "seq") = some (.num (digits (log.seq+1))) := rfl

theorem entry_kind (log : NamesLog κ) (at_ kind : Text) :
    (entry log at_ kind fields).get? (ascii "kind") = some (.str kind) := rfl

theorem entry_prev (log : NamesLog κ) (at_ kind : Text) :
    (entry log at_ kind fields).get? (ascii "prev") = some (textOrNull log.prev) := rfl

theorem Intact.append (intact : Intact primitives opened_ entries) (small : opened_.log.seq+1 ≤ 2^53)
    (distinct : (baseKeys ++ fields.map (·.1)).Nodup) (written : ∀ row ∈ fields,Written row.2 ∧ sorted row.2 = row.2) :
    Intact primitives (append primitives opened_ clock kind fields).1
      (entries ++ [entry opened_.log (clock (opened_.log.seq+1)) kind fields]) := by
  have shaped := @entry_shaped κ fields opened_.log small (clock (opened_.log.seq+1)) kind distinct written
  have linked : isTextOrNull (some (textOrNull opened_.log.prev)) opened_.log.prev = true := by
    cases opened_.log.prev with
    | none => rfl
    | some text => simp [isTextOrNull,textOrNull]
  refine ⟨?_,intact.key,?_,?_,?_,?_⟩
  · show opened_.disk.log.getD [] ++ _ = _
    rw [intact.file,flatMap_append,flatMap_singleton]
  · show opened_.log.seq+1 = _
    rw [intact.seq,length_append,length_singleton]
  · refine intact.chain.append ?_ (by rw [entry_prev]; exact linked)
    rw [entry_seq,intact.seq,Nat.zero_add]
    exact decide_eq_true rfl
  · show track opened_.log.latest _ = _
    rw [intact.latest,foldl_append]
    rfl
  · intro e member
    rcases mem_append.mp member with old | new
    · exact intact.shaped e old
    · rw [mem_singleton.mp new]
      exact shaped

end Append

theorem files_rows (files : Files) (f : Text × Text → Text) :
    Written (.obj (files.toList.map fun row => (row.1,.str (f row)))) ∧
      sorted (.obj (files.toList.map fun row => (row.1,.str (f row)))) = .obj (files.toList.map fun row => (row.1,.str (f row))) := by
  have distinct : ((files.toList.map fun row => (row.1,Value.str (f row))).map (·.1)).Nodup := by
    rw [map_map]
    have keys : (files.toList.map (·.1)).Nodup := by
      rw [Std.ExtTreeMap.map_fst_toList_eq_keys]
      exact Std.ExtTreeMap.nodup_keys
    exact keys
  refine ⟨.obj _ distinct ?_,?_⟩
  · intro row member
    obtain ⟨before,_,rfl⟩ := mem_map.mp member
    exact .str _
  · have fixed : sortedRows (files.toList.map fun row => (row.1,Value.str (f row))) =
        files.toList.map fun row => (row.1,Value.str (f row)) := by
      rw [sortedRows_map,map_map]
      rfl
    have ordered : (files.toList.map fun row => (row.1,Value.str (f row))).Pairwise keyOrder := by
      rw [pairwise_map]
      refine Std.ExtTreeMap.ordered_keys_toList.imp fun {a b} before => ?_
      show (compare a.1 b.1).isLE = true
      have lt : compare a.1 b.1 = .lt := by simpa using before
      rw [lt]
      rfl
    rw [sorted,fixed,ordered.insertionSort_eq]

end Names

-- The history behind a log: what was observed and recorded, apart from what the
-- log made of it.
namespace Names
open Js Tables Runs

inductive Fact where
  | seen (name revision : Text) (files : Files)
  | index (name revision index : Text)

-- The newest fact first, each with the number of the entry it was told with.
abbrev Facts := List (Nat × Fact)

def observed (facts : Facts) (name : Text) : Option Text :=
  facts.findSome? fun fact => match fact.2 with
    | .seen n r _ => if n = name then some r else none
    | .index _ _ _ => none

def digest (facts : Facts) (name revision path : Text) : Option Text :=
  facts.findSome? fun fact => match fact.2 with
    | .seen n r files => if n = name ∧ r = revision then files[path]? else none
    | .index _ _ _ => none

def lastIndex (facts : Facts) (name revision : Text) : Option Text :=
  facts.findSome? fun fact => match fact.2 with
    | .seen _ _ _ => none
    | .index n r index => if n = name ∧ r = revision then some index else none

def filed (facts : Facts) (name : Text) : Option Text :=
  facts.findSome? fun fact => match fact.2 with
    | .seen n r files => if n = name ∧ files.isEmpty = false then some r else none
    | .index _ _ _ => none

def known (facts : Facts) (name revision : Text) : List Text :=
  facts.flatMap fun fact => match fact.2 with
    | .seen n r files => if n = name ∧ r = revision then files.keys else []
    | .index _ _ _ => []

def upTo (upto : Nat) (facts : Facts) : Facts := facts.filter fun fact => fact.1 ≤ upto

-- What an observation tells: with its first entry where the name points and
-- which of the files it had there it still has, with its last entry the files
-- it had not there. `n` entries stood before it, and it added `m`.
def told (n m : Nat) (facts : Facts) (name revision : Text) (files : Files) : Facts :=
  (n+m,.seen name revision (files.filter fun path _ => (digest facts name revision path).isNone)) ::
  (n+min 1 m,.seen name revision (files.filter fun path _ => (digest facts name revision path).isSome)) :: facts

-- The answer that the facts give: the last revision, the last digest of every
-- path observed at it and the last index recorded for it.
def Answers (p : Pointed) (facts : Facts) (name : Text) : Prop :=
  match observed facts name with
  | none => p = ⟨some .null,∅,some .null⟩
  | some r => p.revision = some (.str r) ∧ (∀ path : Text,p.files[path]? = (digest facts name r path).map .str) ∧
    p.index = some ((lastIndex facts name r).elim .null .str)

def differing (facts : Facts) (name revision : Text) (files : Files) : Files :=
  files.filter fun path found => (digest facts name revision path).any fun last => last ≠ found

def lastDigests (facts : Facts) (name revision : Text) (files : Files) : Value :=
  .obj (files.toList.map fun row => (row.1,textOrNull (digest facts name revision row.1)))

inductive Call (κ : Type) where
  | witnessFiles (clock : Nat → Text) (name revision : Text) (files : Files)
  | indexed (clock : Nat → Text) (name revision index table : Text)
  | signHead (at_ : Text)
  | reopen (witness : Text) (generated : κ)

-- A log at work, with the facts it was told and the observations made on it.
structure Session (κ : Type) where
  opened : Opened κ
  facts : Facts
  calls : List (Text × Text × Files)

section Session
variable {κ : Type} (primitives : Primitives κ)

def act (s : Session κ) : Call κ → Option (Session κ)
  | .witnessFiles clock name revision files =>
    let after := (witnessFiles primitives s.opened clock name revision files).1
    some ⟨after,told s.opened.log.seq (after.log.seq-s.opened.log.seq) s.facts name revision files,
      (name,revision,files) :: s.calls⟩
  | .indexed clock name revision index table =>
    let after := indexed primitives s.opened clock name revision index table
    some ⟨after,(after.log.seq,.index name revision index) :: s.facts,s.calls⟩
  -- The signed head goes to a file of its own.
  | .signHead _ => some s
  | .reopen witness generated =>
    (opened primitives witness generated s.opened.disk).map fun again => ⟨again,s.facts,s.calls⟩

def Started (s : Session κ) : Prop :=
  ∃ witness generated key,opened primitives witness generated ⟨none,key⟩ = some s.opened ∧ s.facts = [] ∧ s.calls = []

end Session

-- The keys of two observations are apart: one text stands for one name or for
-- one path of one name and revision.
def Apart (n r : Text) (others : Files) (name revision : Text) (files : Files) : Prop :=
  (∀ q ∈ others.keys,∀ p ∈ files.keys,fileKey n r q = fileKey name revision p → n = name ∧ r = revision ∧ q = p) ∧
  (∀ p ∈ files.keys,n ≠ fileKey name revision p) ∧ ∀ q ∈ others.keys,fileKey n r q ≠ name

instance (n r : Text) (others : Files) (name revision : Text) (files : Files) :
    Decidable (Apart n r others name revision files) := inferInstanceAs (Decidable (_ ∧ _ ∧ _))

def ApartFrom (name revision : Text) (files : Files) : Fact → Prop
  | .seen n r others => Apart n r others name revision files
  | .index _ _ _ => True

instance (name revision : Text) (files : Files) (fact : Fact) : Decidable (ApartFrom name revision files fact) := by
  cases fact
  · exact inferInstanceAs (Decidable (Apart _ _ _ _ _ _))
  · exact inferInstanceAs (Decidable True)

-- An observation at the revision that was observed last has a file, or had one.
def Stays (facts : Facts) (name revision : Text) (files : Files) : Prop :=
  observed facts name = some revision → files.isEmpty = false ∨ known facts name revision ≠ []

def FiledBefore (facts : Facts) (name : Text) : Bool := (filed facts name).any fun r => !r.isEmpty

-- An observation at another revision is the first of that revision, or changes
-- every path known there; nothing was indexed there; and it has a file, unless
-- the name was last observed with files at a revision that is not empty.
def Moves (facts : Facts) (name revision : Text) (files : Files) : Prop :=
  observed facts name ≠ some revision →
    lastIndex facts name revision = none ∧
    (∀ path ∈ known facts name revision,
      files[path]?.isSome = true ∧ files[path]? ≠ digest facts name revision path) ∧
    (files.isEmpty = false ∨ FiledBefore facts name = true)

def Fine (facts : Facts) (name revision : Text) (files : Files) : Prop :=
  (∀ fact ∈ facts,ApartFrom name revision files fact.2) ∧ ascii "__proto__" ∉ files.keys ∧
    Stays facts name revision files ∧ Moves facts name revision files

instance (facts : Facts) (name revision : Text) (files : Files) : Decidable (Stays facts name revision files) :=
  inferInstanceAs (Decidable (_ → _))
instance (facts : Facts) (name revision : Text) (files : Files) : Decidable (Moves facts name revision files) :=
  inferInstanceAs (Decidable (_ → _ ∧ _ ∧ _))
instance (facts : Facts) (name revision : Text) (files : Files) : Decidable (Fine facts name revision files) :=
  inferInstanceAs (Decidable (_ ∧ _ ∧ _ ∧ _))

def FineCall {κ : Type} (s : Session κ) (call : Call κ) : Prop :=
  s.opened.log.seq+2 ≤ 2^53 ∧ match call with
    | .witnessFiles _ name revision files => Fine s.facts name revision files
    | .indexed _ _ _ _ _ | .signHead _ | .reopen _ _ => True

instance {κ : Type} (s : Session κ) (call : Call κ) : Decidable (FineCall s call) := by
  cases call
  · exact inferInstanceAs (Decidable (_ ∧ Fine _ _ _ _))
  · exact inferInstanceAs (Decidable (_ ∧ True))
  · exact inferInstanceAs (Decidable (_ ∧ True))
  · exact inferInstanceAs (Decidable (_ ∧ True))

section Facts
variable {facts : Facts} {name revision : Text}

theorem digest_known (found : digest facts name revision path = some d) : path ∈ known facts name revision := by
  obtain ⟨fact,member,told⟩ := List.exists_of_findSome?_eq_some found
  refine List.mem_flatMap.mpr ⟨fact,member,?_⟩
  obtain ⟨k,fact⟩ := fact
  cases fact with
  | seen n r files =>
    simp only at told ⊢
    split at told
    · rename_i same
      rw [if_pos same,Std.ExtTreeMap.mem_keys,Std.ExtTreeMap.mem_iff_isSome_getElem?,told]
      rfl
    · cases told
  | index n r index => cases told

theorem known_digest (member : path ∈ known facts name revision) : (digest facts name revision path).isSome = true := by
  obtain ⟨⟨k,fact⟩,among,has⟩ := List.mem_flatMap.mp member
  cases fact with
  | seen n r files =>
    simp only at has
    split at has
    · rename_i same
      rw [Std.ExtTreeMap.mem_keys,Std.ExtTreeMap.mem_iff_isSome_getElem?] at has
      refine List.findSome?_isSome_iff.mpr ⟨_,among,?_⟩
      simp only [if_pos same]
      exact has
    · cases has
  | index n r index => cases has

theorem filed_known (found : filed facts name = some revision) : known facts name revision ≠ [] := by
  obtain ⟨⟨k,fact⟩,member,told⟩ := List.exists_of_findSome?_eq_some found
  cases fact with
  | seen n r files =>
    simp only at told
    split at told
    · rename_i same
      cases told
      intro none
      have rows := List.flatMap_eq_nil_iff.mp none _ member
      simp only [same.1,true_and,if_true] at rows
      have empty : files.isEmpty = true := by
        rw [Std.ExtTreeMap.isEmpty_iff]
        refine table_ext fun path => ?_
        cases has : files[path]? with
        | none => simp
        | some d =>
          have key : path ∈ files.keys := Std.ExtTreeMap.mem_keys.mpr
            (Std.ExtTreeMap.mem_iff_isSome_getElem?.mpr (by rw [has]; rfl))
          rw [rows] at key; cases key
      rw [empty] at same
      exact absurd same.2 (by decide)
    · cases told
  | index n r index => cases told

end Facts

end Names
