import HologramLive.Names.Canon

-- The chain of a log: the file reads back as its entries, and another text with
-- the same end holds the same entries.
namespace Names
open Js Tables List

theorem hexDigit_plain (small : n < 16) : 10 ≠ hexDigit n := by
  interval_cases n <;> decide

theorem escaped_plain (u : Unit16) : (10 : Unit16) ∉ escaped u := by
  unfold escaped
  split
  · decide
  split
  · decide
  split
  · decide
  split
  · decide
  split
  · decide
  split
  · decide
  split
  · decide
  split
  · have bound := u.isLt
    unfold hexEscape
    simp only [mem_cons,not_mem_nil,or_false,not_or]
    exact ⟨by decide,by decide,hexDigit_plain (by omega),hexDigit_plain (Nat.mod_lt _ (by decide)),
      hexDigit_plain (Nat.mod_lt _ (by decide)),hexDigit_plain (Nat.mod_lt _ (by decide))⟩
  · rename_i feed _ _ _
    simpa using Ne.symm feed

theorem escapes_plain (text : Text) : (10 : Unit16) ∉ escapes text := by
  induction text using escapes.induct with
  | case1 u v later pair ih =>
    have both : leading u = true ∧ trailing v = true := by simpa using pair
    have first : u ≠ 10 := by rintro rfl; exact absurd both.1 (by decide)
    have second : v ≠ 10 := by rintro rfl; exact absurd both.2 (by decide)
    rw [escapes,if_pos pair,mem_cons,mem_cons,not_or,not_or]
    exact ⟨first.symm,second.symm,ih⟩
  | case2 u v later alone ih =>
    rw [escapes,if_neg alone,mem_append,not_or]
    exact ⟨escaped_plain u,ih⟩
  | case3 u => rw [escapes]; exact escaped_plain u
  | case4 => simp [escapes]

theorem quoted_plain (text : Text) : (10 : Unit16) ∉ quoted text := by
  simp only [quoted,mem_cons,mem_append,not_mem_nil,or_false,not_or]
  exact ⟨by decide,escapes_plain text,by decide⟩

theorem listed_plain (plain : ∀ text ∈ texts,(10 : Unit16) ∉ text) (first : Bool) :
    (10 : Unit16) ∉ listed first texts := by
  induction texts generalizing first with
  | nil => simp [listed]
  | cons text rest ih =>
    have before : (10 : Unit16) ∉ (if first then [] else [44] : Text) := by cases first <;> decide
    rw [listed,mem_append,mem_append,not_or,not_or]
    exact ⟨before,plain text mem_cons_self,ih (fun other member => plain other (mem_cons_of_mem _ member)) false⟩

variable {rows : List (Text × Value)}

theorem rows_plain (plain : ∀ row ∈ rows,(10 : Unit16) ∉ stringify row.2) : (10 : Unit16) ∉ stringify (.obj rows) := by
  have texts : ∀ text ∈ rowTexts rows,(10 : Unit16) ∉ text := by
    intro text member
    rw [rowTexts_map] at member
    obtain ⟨row,among,rfl⟩ := mem_map.mp member
    rw [mem_append,mem_cons,not_or,not_or]
    exact ⟨quoted_plain _,by decide,plain row among⟩
  rw [stringify,mem_cons,mem_append,not_or,not_or]
  exact ⟨by decide,listed_plain texts true,by decide⟩

theorem Written.plain (written : Written value) : (10 : Unit16) ∉ stringify value := by
  induction written with
  | num n small =>
    rw [stringify,digits_finite]
    intro member
    exact absurd (digits_units n 10 member) (by decide)
  | str text => exact quoted_plain text
  | obj rows distinct _ ih => exact rows_plain ih

def Shaped (e : Value) : Prop :=
  ∃ rows,e = .obj rows ∧ (rows.map (·.1)).Nodup ∧
    ∀ row ∈ rows,Written row.2 ∧ sorted row.2 = row.2 ∨ row = (ascii "prev",.null)

section Shape
variable {numerals : Numerals} {e : Value}

theorem Shaped.sorted_rows (fields : ∀ row ∈ rows,Written row.2 ∧ sorted row.2 = row.2 ∨ row = (ascii "prev",.null)) :
    sorted (.obj rows) = .obj (rows.insertionSort keyOrder) := by
  have same : sortedRows rows = rows := by
    rw [sortedRows_map]
    refine (map_congr_left fun row member => ?_).trans (map_id _)
    rcases fields row member with ⟨_,fixed⟩ | rfl
    · exact Prod.ext rfl fixed
    · rfl
  rw [sorted,same]

theorem Shaped.sound (shaped : Shaped e) : Sound numerals e := by
  obtain ⟨rows,rfl,distinct,fields⟩ := shaped
  refine ⟨distinct,(soundRows_iff rows).mpr fun row member => ?_⟩
  rcases fields row member with ⟨written,_⟩ | rfl
  · exact written.sound
  · trivial

theorem Shaped.sorted (shaped : Shaped e) : Shaped (sorted e) := by
  obtain ⟨rows,rfl,distinct,fields⟩ := shaped
  exact ⟨_,Shaped.sorted_rows fields,sort_keys rows distinct,
    fun row member => fields row ((perm_insertionSort keyOrder rows).mem_iff.mp member)⟩

theorem Shaped.twice (shaped : Shaped e) : Names.sorted (Names.sorted e) = Names.sorted e := by
  have again := shaped.sorted
  obtain ⟨rows,rfl,distinct,fields⟩ := shaped
  rw [Shaped.sorted_rows fields] at again ⊢
  obtain ⟨others,same,_,kept⟩ := again
  cases same
  rw [Shaped.sorted_rows kept,(pairwise_insertionSort keyOrder rows).insertionSort_eq]

theorem Shaped.kept (shaped : Shaped e) : settled e = e := by
  obtain ⟨rows,rfl,distinct,fields⟩ := shaped
  rw [settled,settledRows_map]
  refine congrArg Value.obj ((map_congr_left fun row member => ?_).trans (map_id _))
  rcases fields row member with ⟨written,_⟩ | rfl
  · exact Prod.ext rfl written.kept
  · rfl

theorem Shaped.parse (shaped : Shaped e) : parse numerals (canon e) = some (Names.sorted e) := by
  rw [parse_canon shaped.sound,shaped.sorted.kept]

theorem Shaped.canon (shaped : Shaped e) : canon (Names.sorted e) = canon e := by
  rw [canon_stringify,canon_stringify,shaped.twice]

theorem Shaped.get (shaped : Shaped e) (key : Text) : (Names.sorted e).get? key = e.get? key := by
  obtain ⟨rows,rfl,distinct,fields⟩ := shaped
  rw [Shaped.sorted_rows fields,Value.get?,Value.get?,find_perm distinct (perm_insertionSort keyOrder rows).symm]

theorem Shaped.line (shaped : Shaped e) : (10 : Unit16) ∉ Names.canon e ∧ Names.canon e ≠ [] := by
  have plain := shaped.sorted
  obtain ⟨rows,rfl,distinct,fields⟩ := shaped
  rw [canon_stringify]
  rw [Shaped.sorted_rows fields] at plain ⊢
  obtain ⟨others,same,_,kept⟩ := plain
  cases same
  refine ⟨rows_plain fun row member => ?_,by simp [stringify]⟩
  rcases kept row member with ⟨written,_⟩ | rfl
  · exact written.plain
  · decide

theorem Shaped.recover (shaped : Shaped e) (same : settled other = e)
    (link : other.get? (ascii "prev") = some .null ∨ ∃ text,other.get? (ascii "prev") = some (.str text)) : other = e := by
  obtain ⟨rows,rfl,distinct,fields⟩ := shaped
  cases other with
  | num found =>
    rw [settled] at same
    split at same <;> cases same
  | obj others =>
    rw [settled,settledRows_map] at same
    have mapped := Value.obj.inj same
    have keys : others.map (·.1) = rows.map (·.1) := by rw [←mapped,map_map]; rfl
    refine congrArg Value.obj ?_
    have keep : others.map (fun row => (row.1,settled row.2)) = others.map id := by
      refine map_congr_left fun row member => ?_
      have among : (row.1,settled row.2) ∈ rows := by rw [←mapped]; exact mem_map.mpr ⟨row,member,rfl⟩
      rcases fields _ among with ⟨written,_⟩ | nothing
      · exact Prod.ext rfl (written.settled rfl).symm
      · have key : row.1 = ascii "prev" := congrArg Prod.fst nothing
        have found : others.find? (fun row => row.1 = ascii "prev") = some row := by
          cases first : others.find? fun row => row.1 = ascii "prev" with
          | none => exact absurd key (by simpa using find?_eq_none.mp first row member)
          | some head =>
            have is : head.1 = ascii "prev" := by simpa using find?_some first
            have one := inj_on_of_nodup_map (by rw [keys]; exact distinct : (others.map (·.1)).Nodup)
              (mem_of_find?_eq_some first) member (is.trans key.symm)
            rw [one]
        rw [Value.get?,found] at link
        rcases link with empty | ⟨text,empty⟩
        · have value : row.2 = .null := Option.some.inj empty
          refine Prod.ext rfl ?_
          show settled row.2 = row.2
          rw [value]; rfl
        · have value : row.2 = .str text := Option.some.inj empty
          refine Prod.ext rfl ?_
          show settled row.2 = row.2
          rw [value]; rfl
    rw [←mapped,keep,map_id]
  | _ => cases same

end Shape

section Chains
variable {κ : Type} (primitives : Primitives κ)

def Chain : Nat → Option Text → List Value → Option Text → Prop
  | _,prev,[],last => prev = last
  | i,prev,e :: rest,last => isNumber (e.get? (ascii "seq")) (i+1) = true ∧
    isTextOrNull (e.get? (ascii "prev")) prev = true ∧ Chain (i+1) (some (primitives.sha (canon e))) rest last

variable {primitives}

variable {prev last : Option Text} {entries : List Value} {i : Nat}

theorem Chain.append
    (chain : Chain primitives i prev entries last) (number : isNumber (e.get? (ascii "seq")) (i+entries.length+1) = true)
    (link : isTextOrNull (e.get? (ascii "prev")) last = true) :
    Chain primitives i prev (entries ++ [e]) (some (primitives.sha (canon e))) := by
  induction entries generalizing i prev with
  | nil =>
    have same : prev = last := chain
    exact ⟨number,by rw [same]; exact link,rfl⟩
  | cons first rest ih =>
    obtain ⟨numbered,linked,later⟩ := chain
    refine ⟨numbered,linked,ih later ?_⟩
    rw [length_cons] at number
    rw [show i+1+rest.length+1 = i+(rest.length+1)+1 by omega]
    exact number

theorem replay_chain (shaped : ∀ e ∈ entries,Shaped e) (chain : Chain primitives i prev entries last) :
    replay primitives i prev (entries.map canon) = some (entries.map sorted,[],last) := by
  induction entries generalizing i prev with
  | nil =>
    have same : prev = last := chain
    rw [same]
    rfl
  | cons e rest ih =>
    obtain ⟨numbered,linked,later⟩ := chain
    have shape := shaped e mem_cons_self
    have inner := ih (fun other member => shaped other (mem_cons_of_mem _ member)) later
    rw [map_cons,replay,shape.parse,Option.bind_some]
    obtain ⟨rows,spelled,_⟩ := shape.sorted
    rw [←shape.get] at numbered linked
    rw [←shape.canon] at inner
    rw [spelled] at numbered linked inner ⊢
    simp only [inner,Option.map_some,if_pos numbered,if_pos linked,map_cons,spelled]
    rfl

-- Entries that a replay finds no problem in are a chain of what it read.
theorem chain_replay (replayed : replay primitives i prev texts = some (entries,[],last)) :
    Chain primitives i prev entries last ∧ ∀ e ∈ entries,Sound primitives.numerals e := by
  induction texts generalizing i prev entries with
  | nil =>
    rw [replay] at replayed
    cases replayed
    exact ⟨rfl,by simp⟩
  | cons line rest ih =>
    rw [replay] at replayed
    obtain ⟨e,read,replayed⟩ := Option.bind_eq_some_iff.mp replayed
    split at replayed
    · cases replayed
    · obtain ⟨⟨others,problems,end_⟩,inner,shape⟩ := Option.map_eq_some_iff.mp replayed
      simp only [Prod.mk.injEq,append_eq_nil_iff] at shape
      obtain ⟨rfl,⟨first,second,rfl⟩,rfl⟩ := shape
      obtain ⟨later,sound⟩ := ih inner
      refine ⟨⟨?_,?_,later⟩,?_⟩
      · by_contra wrong
        rw [if_neg wrong] at first; cases first
      · by_contra wrong
        rw [if_neg wrong] at second; cases second
      · intro other member
        rcases mem_cons.mp member with rfl | member
        · exact parse_sound read
        · exact sound other member

theorem link_cases {prev : Option Text}
    (linked : isTextOrNull found prev = true) : found = some (textOrNull prev) := by
  unfold isTextOrNull at linked
  split at linked
  · rw [of_decide_eq_true linked]; rfl
  · rfl
  · cases linked

theorem textOrNull_injective (same : textOrNull a = textOrNull b) : a = b := by
  cases a <;> cases b <;> cases same <;> rfl

def Collision : Prop := ∃ a b,a ≠ b ∧ primitives.sha a = primitives.sha b

theorem Chain.same {prev : Option Text}
    (shaped : ∀ e ∈ entries,Shaped e) (sound : ∀ e ∈ others,Sound primitives.numerals e)
    (chain : Chain primitives i prev entries last) (chains : Chain primitives i prevs others last)
    (long : others.length = entries.length) :
    @Collision κ primitives ∨ prevs = prev ∧ others.map sorted = entries.map sorted := by
  induction entries generalizing i prev prevs others with
  | nil =>
    have empty : others = [] := length_eq_zero_iff.mp long
    subst empty
    exact .inr ⟨chains.trans chain.symm,rfl⟩
  | cons e rest ih =>
    cases others with
    | nil => cases long
    | cons other more =>
      obtain ⟨_,linked,later⟩ := chain
      obtain ⟨_,linkeds,laters⟩ := chains
      rcases ih (fun e member => shaped e (mem_cons_of_mem _ member))
          (fun e member => sound e (mem_cons_of_mem _ member)) later laters (Nat.succ.inj long) with
        collision | ⟨hashes,same⟩
      · exact .inl collision
      by_cases texts : canon other = canon e
      · have shape := shaped e mem_cons_self
        have soundOther := sound other mem_cons_self
        have read := @parse_canon primitives.numerals other soundOther
        rw [texts,shape.parse] at read
        have found := get_sorted soundOther (ascii "prev")
        rw [link_cases linkeds] at found
        have recovered : sorted other = sorted e := by
          refine shape.sorted.recover (Option.some.inj read).symm ?_
          rw [found]
          cases prevs with
          | none => exact .inl rfl
          | some text => exact .inr ⟨text,rfl⟩
        refine .inr ⟨?_,by rw [map_cons,map_cons,recovered,same]⟩
        rw [recovered,shape.get,link_cases linked] at found
        refine (textOrNull_injective ?_).symm
        refine (Option.some.inj found).trans ?_
        cases prevs <;> rfl
      · exact .inl ⟨_,_,texts,Option.some.inj hashes⟩

end Chains

end Names
