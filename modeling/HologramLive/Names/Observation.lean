import HologramLive.Names.Told

-- One observation: which entries it appends and what it makes of the latest
-- digests, in terms of the facts.
namespace Names
open Js Tables List Option

variable {κ : Type} {primitives : Primitives κ}

-- The latest digests are those of the facts, each under a key of its own.
structure Latest (latest : Table Text Value) (facts : Facts) : Prop where
  path : ∀ n r q d : Text,digest facts n r q = some d → latest[fileKey n r q]? = some (.str d)
  name : ∀ n : Text,(observed facts n).isSome = true → latest[n]? = (filed facts n).map .str
  only : ∀ k : Text,latest[k]?.isSome = true →
    (∃ n r q,(digest facts n r q).isSome = true ∧ fileKey n r q = k) ∨ (observed facts k).isSome = true

structure Clear (facts : Facts) (name revision : Text) (files : Files) : Prop where
  path : ∀ n r q p : Text,(digest facts n r q).isSome = true → files[p]?.isSome = true →
    fileKey n r q = fileKey name revision p → n = name ∧ r = revision ∧ q = p
  named : ∀ n p : Text,(observed facts n).isSome = true → files[p]?.isSome = true → n ≠ fileKey name revision p
  key : ∀ n r q : Text,(digest facts n r q).isSome = true → fileKey n r q ≠ name

theorem mem_keys {files : Files} (has : files[p]?.isSome = true) : p ∈ files.keys :=
  Std.ExtTreeMap.mem_keys.mpr (Std.ExtTreeMap.mem_iff_isSome_getElem?.mpr has)

theorem digest_fact {facts : Facts} (found : (digest facts n r q).isSome = true) :
    ∃ k files,(k,.seen n r files) ∈ facts ∧ q ∈ Std.ExtTreeMap.keys files := by
  obtain ⟨d,is⟩ := isSome_iff_exists.mp found
  obtain ⟨⟨k,fact⟩,member,told⟩ := exists_of_findSome?_eq_some is
  cases fact with
  | seen n' r' files =>
    simp only at told
    split at told
    · rename_i same
      obtain ⟨rfl,rfl⟩ := same
      exact ⟨k,files,member,mem_keys (by rw [told]; rfl)⟩
    · cases told
  | index _ _ _ => cases told

theorem observed_fact (found : (observed facts n).isSome = true) : ∃ k r files,(k,.seen n r files) ∈ facts := by
  obtain ⟨r,is⟩ := isSome_iff_exists.mp found
  obtain ⟨⟨k,fact⟩,member,told⟩ := exists_of_findSome?_eq_some is
  cases fact with
  | seen n' r' files =>
    simp only at told
    split at told
    · rename_i same
      subst same
      exact ⟨k,r',files,member⟩
    · cases told
  | index _ _ _ => cases told

theorem clear_apart {name revision : Text}
    (apart : ∀ fact ∈ facts,ApartFrom name revision files fact.2) : Clear facts name revision files := by
  refine ⟨?_,?_,?_⟩
  · intro n r q p known_ has
    obtain ⟨k,others,member,among⟩ := digest_fact known_
    exact (apart _ member).1 q among p (mem_keys has)
  · intro n p seen_ has
    obtain ⟨k,r,others,member⟩ := observed_fact seen_
    exact (apart _ member).2.1 p (mem_keys has)
  · intro n r q known_
    obtain ⟨k,others,member,among⟩ := digest_fact known_
    exact (apart _ member).2.2 q among

theorem fileKey_injective (name revision : Text) : Function.Injective (fileKey name revision) := by
  intro p q same
  have rest := append_cancel_left same
  exact (cons.inj (append_cancel_left (cons.inj rest).2)).2

theorem fileKey_name (name revision path : Text) : fileKey name revision path ≠ name := by
  intro same
  have long := congrArg length same
  simp only [fileKey,length_append,length_cons] at long
  omega

section Lookup
variable {latest : Table Text Value} {facts : Facts} {name revision : Text} {files : Files}

theorem Latest.file (holds : Latest latest facts) (clear : Clear facts name revision files)
    (has : files[p]?.isSome = true) : latest[fileKey name revision p]? = (digest facts name revision p).map .str := by
  cases found : digest facts name revision p with
  | some d => exact holds.path name revision p d found
  | none =>
    cases stored : latest[fileKey name revision p]? with
    | none => rfl
    | some value =>
      rcases holds.only _ (by rw [stored]; rfl) with ⟨n,r,q,known_,same⟩ | seen_
      · obtain ⟨rfl,rfl,rfl⟩ := clear.path n r q p known_ has same
        rw [found] at known_; cases known_
      · exact absurd rfl (clear.named _ p seen_ has)

theorem Latest.at_name (holds : Latest latest facts) (clear : Clear facts name revision files) :
    latest[name]? = (filed facts name).map .str := by
  cases seen_ : (observed facts name).isSome with
  | true => exact holds.name name seen_
  | false =>
    have unfiled : filed facts name = none := by
      cases found : filed facts name with
      | none => rfl
      | some r =>
        obtain ⟨⟨k,fact⟩,member,told⟩ := exists_of_findSome?_eq_some found
        cases fact with
        | seen n' r' others =>
          simp only at told; split at told
          · rename_i same
            have has : (observed facts name).isSome = true :=
              findSome?_isSome_iff.mpr ⟨_,member,by simp [same.1]⟩
            rw [seen_] at has; cases has
          · cases told
        | index _ _ _ => cases told
    rw [unfiled]
    cases stored : latest[name]? with
    | none => rfl
    | some value =>
      rcases holds.only _ (by rw [stored]; rfl) with ⟨n,r,q,known_,same⟩ | found
      · exact absurd same (clear.key n r q known_)
      · rw [seen_] at found; cases found

theorem Latest.changed (holds : Latest latest facts) (clear : Clear facts name revision files) :
    changedFiles latest name revision files = differing facts name revision files := by
  refine table_ext fun path => ?_
  unfold changedFiles differing
  rw [filter_get,filter_get]
  cases has : files[path]? with
  | none => rfl
  | some d =>
    have stored := holds.file clear (by rw [has]; rfl : files[path]?.isSome = true)
    simp only [Std.ExtTreeMap.contains_eq_isSome_getElem?,stored]
    cases digest facts name revision path with
    | none => rfl
    | some last => simp [isText]

end Lookup

-- What tracking an entry with these files makes of the latest digests.
structure Grown (latest others : Table Text Value) (name revision : Text) (written : Files) : Prop where
  file : ∀ p d : Text,written[p]? = some d → others[fileKey name revision p]? = some (.str d)
  named : others[name]? = if written.isEmpty then latest[name]? else some (.str revision)
  other : ∀ k : Text,k ≠ name → (∀ p : Text,written[p]?.isSome = true → fileKey name revision p ≠ k) →
    others[k]? = latest[k]?

theorem grown_nothing (empty : written.isEmpty = true) : Grown latest latest name revision written := by
  refine ⟨?_,by rw [if_pos empty],fun _ _ _ => rfl⟩
  intro p d found
  rw [empty_get empty] at found
  cases found

theorem grown_track
    (noted : Noted e kind name revision written) (kinds : kind = ascii "witnessed" ∨ kind = ascii "replaced")
    (some_ : written.isEmpty = false) : Grown latest (track latest e) name revision written := by
  have tracked : track latest e = (written.toList.foldl (fun table row =>
      table.insert (fileKey name revision row.1) (.str row.2)) latest).insert name (.str revision) := by
    unfold track
    rw [noted.kind,noted.name,noted.revision,noted.files]
    have not_ : ¬(kind ≠ ascii "witnessed" ∧ kind ≠ ascii "replaced") := by
      rintro ⟨first,second⟩
      rcases kinds with same | same
      · exact first same
      · exact second same
    simp only [if_neg not_,foldl_map]
  obtain ⟨inside,outside⟩ := fold_files (fileKey_injective name revision) written latest
  rw [tracked]
  refine ⟨?_,?_,?_⟩
  · intro p d found
    rw [get_insert,if_neg (fileKey_name name revision p).symm]
    exact inside p d found
  · rw [get_insert,if_pos rfl,some_]
    rfl
  · intro k other apart
    rw [get_insert,if_neg (Ne.symm other)]
    exact outside k apart

-- A part of an observation: nothing where it has no files to tell of and the
-- name stays, or one entry with these files.
inductive Added (primitives : Primitives κ) (before : Opened κ) (entries : List Value) (name revision : Text)
    (written : Files) : Opened κ → List Value → Prop
  | nothing (empty : written.isEmpty = true) : Added primitives before entries name revision written before []
  | entry {after : Opened κ} {e : Value} {kind : Text} (observing : Observing kind)
    (noted : Noted e kind name revision written) (intact : Intact primitives after (entries ++ [e]))
    (seq : after.log.seq = before.log.seq+1) (grown : Grown before.log.latest after.log.latest name revision written) :
    Added primitives before entries name revision written after [e]

section Parts
variable {before : Opened κ} {entries : List Value} {facts : Facts} {name revision : Text} {files : Files}

theorem appended_noted {log : NamesLog κ} {at_ kind : Text} {written : Files} {more : List (Text × Value)} :
    Noted (entry log at_ kind ((ascii "name",.str name) :: (ascii "revision",.str revision) ::
      (ascii "files",written.value) :: more)) kind name revision written := by
  refine ⟨entry_kind _ _ _,?_,?_,?_⟩
  · rw [entry_field (by decide)]; rfl
  · rw [entry_field (by decide)]; rfl
  · rw [entry_field (by decide)]; rfl

theorem Latest.befores (holds : Latest before.log.latest facts) (clear : Clear facts name revision files) :
    beforeValue before.log.latest name revision (differing facts name revision files) =
      lastDigests facts name revision (differing facts name revision files) := by
  refine congrArg Value.obj (map_congr_left fun row member => ?_)
  have among := mem_rows.mp (show (row.1,row.2) ∈ (differing facts name revision files).toList from member)
  have has : files[row.1]?.isSome = true := by
    unfold differing at among
    rw [filter_get] at among
    obtain ⟨found,_⟩ := filter_eq_some_iff.mp among
    rw [found]
    rfl
  rw [holds.file clear has]
  cases digest facts name revision row.1 <;> rfl

theorem lastDigests_rows : lastDigests facts name revision (differing facts name revision files) =
    .obj ((differing facts name revision files).toList.map fun row =>
      (row.1,.str ((digest facts name revision row.1).getD []))) := by
  refine congrArg Value.obj (map_congr_left fun row member => ?_)
  have among := mem_rows.mp (show (row.1,row.2) ∈ (differing facts name revision files).toList from member)
  unfold differing at among
  rw [filter_get] at among
  obtain ⟨_,differs⟩ := filter_eq_some_iff.mp among
  cases last : digest facts name revision row.1 with
  | none => rw [last] at differs; cases differs
  | some d => rfl

def Alert (e : Value) (facts : Facts) (name revision : Text) (changed : Files) : Prop :=
  e.get? (ascii "kind") = some (.str (ascii "replaced")) ∧ e.get? (ascii "name") = some (.str name) ∧
    e.get? (ascii "revision") = some (.str revision) ∧ e.get? (ascii "files") = some changed.value ∧
    e.get? (ascii "before") = some (lastDigests facts name revision changed)

variable (clock : Nat → Text)

theorem replaced_part (intact : Intact primitives before entries)
    (small : before.log.seq+1 ≤ 2^53) (holds : Latest before.log.latest facts) (clear : Clear facts name revision files) :
    ((differing facts name revision files).isEmpty = true →
      replaced primitives before clock name revision files = (before,[])) ∧
    ((differing facts name revision files).isEmpty = false → ∃ after e,
      replaced primitives before clock name revision files = (after,[e]) ∧
      Alert e facts name revision (differing facts name revision files) ∧
      Noted e (ascii "replaced") name revision (differing facts name revision files) ∧
      Intact primitives after (entries ++ [e]) ∧ after.log.seq = before.log.seq+1 ∧
      Grown before.log.latest after.log.latest name revision (differing facts name revision files)) := by
  simp only [replaced,holds.changed clear]
  constructor
  · intro empty
    rw [if_pos empty]
  · intro some_
    have value := files_rows (differing facts name revision files) (·.2)
    have last := files_rows (differing facts name revision files) fun row => (digest facts name revision row.1).getD []
    rw [←lastDigests_rows,←holds.befores clear] at last
    have noted := @appended_noted κ name revision before.log (clock (before.log.seq+1)) (ascii "replaced")
      (differing facts name revision files)
      [(ascii "before",beforeValue before.log.latest name revision (differing facts name revision files))]
    rw [if_neg (by rw [some_]; decide)]
    refine ⟨_,_,rfl,⟨noted.kind,noted.name,noted.revision,?_,?_⟩,noted,?_,rfl,grown_track noted (.inr rfl) some_⟩
    · rw [append,entry_field (by decide)]; rfl
    · rw [append,entry_field (by decide),←holds.befores clear]; rfl
    · refine intact.append small
        (show (baseKeys ++ [ascii "name",ascii "revision",ascii "files",ascii "before"]).Nodup by decide) fun row member => ?_
      simp only [mem_cons,not_mem_nil,or_false] at member
      rcases member with rfl | rfl | rfl | rfl
      · exact ⟨.str _,rfl⟩
      · exact ⟨.str _,rfl⟩
      · exact value
      · exact last

def Moving (facts : Facts) (name revision : Text) : Prop := ∃ r,filed facts name = some r ∧ r ≠ [] ∧ r ≠ revision

theorem moved_part (intact : Intact primitives before entries) (small : before.log.seq+1 ≤ 2^53)
    {last : Option Text} (stored : before.log.latest[name]? = last.map .str) :
    (¬(∃ r,last = some r ∧ r ≠ [] ∧ r ≠ revision) → moved primitives before clock name revision = before) ∧
    ((∃ r,last = some r ∧ r ≠ [] ∧ r ≠ revision) → ∃ e,Noted e (ascii "moved") name revision ∅ ∧
      Intact primitives (moved primitives before clock name revision) (entries ++ [e]) ∧
      (moved primitives before clock name revision).log.seq = before.log.seq+1 ∧
      (moved primitives before clock name revision).log.latest = before.log.latest) := by
  unfold moved
  rw [stored]
  cases last with
  | none => exact ⟨fun _ => rfl,by rintro ⟨r,same,_⟩; cases same⟩
  | some r =>
    simp only [map_some]
    constructor
    · intro still
      refine if_neg fun moves => still ⟨r,rfl,?_,?_⟩
      · rintro rfl
        exact absurd moves (by simp [truthy])
      · rintro rfl
        exact absurd moves (by simp [isText])
    · rintro ⟨_,same,some_,apart⟩
      cases same
      have moves : (truthy (.str r) && !isText (some (.str r)) revision) = true := by
        simp [truthy,isText,some_,apart]
      have noted : Noted (entry before.log (clock (before.log.seq+1)) (ascii "moved") [(ascii "name",.str name),
          (ascii "revision",.str revision),(ascii "previous",.str r)]) (ascii "moved") name revision ∅ := by
        refine ⟨entry_kind _ _ _,?_,?_,?_⟩
        · rw [entry_field (by decide)]; rfl
        · rw [entry_field (by decide)]; rfl
        · rw [entry_field (by decide)]; rfl
      rw [if_pos moves]
      refine ⟨_,noted,intact.append small
        (show (baseKeys ++ [ascii "name",ascii "revision",ascii "previous"]).Nodup by decide) fun row member => ?_,rfl,?_⟩
      · simp only [mem_cons,not_mem_nil,or_false] at member
        rcases member with rfl | rfl | rfl
        · exact ⟨.str _,rfl⟩
        · exact ⟨.str _,rfl⟩
        · exact ⟨.str _,rfl⟩
      · have tracked : track before.log.latest (entry before.log (clock (before.log.seq+1)) (ascii "moved")
            [(ascii "name",.str name),(ascii "revision",.str revision),(ascii "previous",.str r)]) = before.log.latest := by
          unfold track; rw [noted.kind,noted.name,noted.revision]
          rfl
        exact tracked

theorem witnessed_part (intact : Intact primitives before entries)
    (small : before.log.seq+1 ≤ 2^53) (found : freshFiles before.log.latest name revision files = fresh) :
    ∃ more,Added primitives before entries name revision fresh (witnessed primitives before clock name revision files) more ∧
      (fresh.isEmpty = true → more = []) := by
  simp only [witnessed,found]
  cases empty : fresh.isEmpty with
  | true => exact ⟨[],.nothing empty,fun _ => rfl⟩
  | false =>
    have noted := @appended_noted κ name revision before.log (clock (before.log.seq+1)) (ascii "witnessed") fresh []
    have kept : Intact primitives (append primitives before clock (ascii "witnessed") [(ascii "name",.str name),
        (ascii "revision",.str revision),(ascii "files",fresh.value)]).1 _ :=
      intact.append small (show (baseKeys ++ [ascii "name",ascii "revision",ascii "files"]).Nodup by decide)
        fun row member => by
          simp only [mem_cons,not_mem_nil,or_false] at member
          rcases member with rfl | rfl | rfl
          · exact ⟨.str _,rfl⟩
          · exact ⟨.str _,rfl⟩
          · exact files_rows fresh (·.2)
    exact ⟨_,.entry (.inl rfl) noted kept rfl (grown_track noted (.inl rfl) empty),fun none => (by cases none)⟩

theorem fresh_grown {middle : Opened κ} (holds : Latest before.log.latest facts) (clear : Clear facts name revision files)
    (grown : Grown before.log.latest middle.log.latest name revision (differing facts name revision files)) :
    freshFiles middle.log.latest name revision files = freshOf facts name revision files := by
  refine table_ext fun path => ?_
  unfold freshFiles freshOf
  rw [filter_get,filter_get]
  cases has : files[path]? with
  | none => rfl
  | some d =>
    have stored := holds.file clear (by rw [has]; rfl : files[path]?.isSome = true)
    have contained : middle.log.latest.contains (fileKey name revision path) = (digest facts name revision path).isSome := by
      rw [Std.ExtTreeMap.contains_eq_isSome_getElem?]
      cases changed : (differing facts name revision files)[path]? with
      | some found =>
        rw [grown.file path found changed]
        unfold differing at changed; rw [filter_get] at changed
        obtain ⟨_,differs⟩ := filter_eq_some_iff.mp changed
        cases last : digest facts name revision path with
        | none => rw [last] at differs; cases differs
        | some _ => rfl
      | none =>
        rw [grown.other _ (fileKey_name name revision path),stored,isSome_map]; intro p changes same
        rw [fileKey_injective name revision same,changed] at changes; cases changes
    simp only [contained]
    cases digest facts name revision path <;> rfl

theorem observation (intact : Intact primitives before entries)
    (small : before.log.seq+2 ≤ 2^53) (holds : Latest before.log.latest facts) (clear : Clear facts name revision files) :
    ∃ middle first more,Added primitives before entries name revision (differing facts name revision files) middle first ∧
      Added primitives middle (entries ++ first) name revision (freshOf facts name revision files)
        (witnessFiles primitives before clock name revision files).1 more ∧
      (first = [] ↔ (differing facts name revision files).isEmpty = true ∧ ¬Moving facts name revision) ∧
      ((freshOf facts name revision files).isEmpty = true → more = []) ∧
      ((differing facts name revision files).isEmpty = true →
        (witnessFiles primitives before clock name revision files).2 = []) ∧
      ((differing facts name revision files).isEmpty = false → ∃ e,
        (witnessFiles primitives before clock name revision files).2 = [e] ∧
          Alert e facts name revision (differing facts name revision files)) := by
  obtain ⟨still,changes⟩ := replaced_part clock intact (Nat.le_of_succ_le small) holds clear
  cases empty : (differing facts name revision files).isEmpty with
  | true =>
    have shape : witnessFiles primitives before clock name revision files =
        (witnessed primitives (moved primitives before clock name revision) clock name revision files,[]) := by
      rw [witnessFiles,still empty]
    obtain ⟨stays,moves⟩ := moved_part clock intact (Nat.le_of_succ_le small) (holds.at_name clear)
    rw [shape]
    by_cases moving : Moving facts name revision
    · obtain ⟨e,noted,held,seq,latest⟩ := moves moving
      have none := Std.ExtTreeMap.isEmpty_iff.mp empty
      have grown : Grown before.log.latest (moved primitives before clock name revision).log.latest name revision
          (differing facts name revision files) := by rw [latest]; exact grown_nothing empty
      have fresh := fresh_grown holds clear grown
      obtain ⟨more,added,nothing_⟩ := witnessed_part clock held (by rw [seq]; exact small) fresh
      exact ⟨_,[e],more,.entry (.inr (.inr rfl)) (by rw [none]; exact noted) held seq grown,added,
        ⟨fun nothing => (by cases nothing),fun both => absurd moving both.2⟩,nothing_,fun _ => rfl,fun not_ => (by cases not_)⟩
    · have fresh := fresh_grown holds clear (grown_nothing empty)
      obtain ⟨more,added,nothing_⟩ := witnessed_part clock intact (Nat.le_of_succ_le small) fresh
      rw [stays moving]
      exact ⟨before,[],more,.nothing empty,by rw [append_nil]; exact added,⟨fun _ => ⟨rfl,moving⟩,fun _ => rfl⟩,
        nothing_,fun _ => rfl,fun not_ => (by cases not_)⟩
  | false =>
    obtain ⟨middle,e,ran,alert,noted,held,seq,grown⟩ := changes empty
    have named : middle.log.latest[name]? = (some revision).map Value.str := by rw [grown.named,empty]; rfl
    obtain ⟨stays,_⟩ := moved_part clock held (by rw [seq]; exact small) named
    have still_ := stays (by rintro ⟨r,same,_,apart⟩; exact apart (Option.some.inj same).symm)
    have shape : witnessFiles primitives before clock name revision files =
        (witnessed primitives middle clock name revision files,[e]) := by
      rw [witnessFiles,ran]
      simp only [still_]
    obtain ⟨more,added,nothing_⟩ := witnessed_part clock held (by rw [seq]; exact small) (fresh_grown holds clear grown)
    rw [shape]
    exact ⟨middle,[e],more,.entry (.inr (.inl rfl)) noted held seq grown,added,
      ⟨fun nothing => (by cases nothing),fun both => (by cases both.1)⟩,nothing_,fun not_ => (by cases not_),fun _ => ⟨e,rfl,alert⟩⟩

end Parts

end Names
