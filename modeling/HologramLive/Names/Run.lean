import HologramLive.Names.Observation

-- What a log and its facts keep through every call.
namespace Names
open Js Tables Runs List

variable {κ : Type} {primitives : Primitives κ}

structure Good (primitives : Primitives κ) (s : Session κ) (entries : List Value) : Prop where
  intact : Intact primitives s.opened entries
  latest : Latest s.opened.log.latest s.facts
  stamped : ∀ fact ∈ s.facts,fact.1 ≤ entries.length
  now : ∀ who,Answers (pointedAt entries who none none) s.facts who
  past : ∀ k who,0 < k → k < entries.length → Answers (pointedAt (entries.take k) who none none) (upTo k s.facts) who
  recorded : ∀ who r,observed s.facts who = some r → known s.facts who r ≠ [] → filed s.facts who = some r
  last : ∀ name revision files,s.calls.find? (fun call => call.1 = name) = some (name,revision,files) →
    observed s.facts name = some revision ∧
      ∀ p d : Text,files[p]? = some d → digest s.facts name revision p = some d

section Parts
variable {before after : Opened κ} {entries more : List Value} {name revision : Text} {written : Files}

theorem Added.seq_eq (added : Added primitives before entries name revision written after more) :
    after.log.seq = before.log.seq+more.length := by
  cases added with
  | nothing empty => rfl
  | entry observing noted intact seq grown => exact seq

theorem Added.intact (added : Added primitives before entries name revision written after more)
    (held : Intact primitives before entries) : Intact primitives after (entries ++ more) := by
  cases added with
  | nothing empty => rw [append_nil]; exact held
  | entry observing noted intact seq grown => exact intact

theorem Added.grown (added : Added primitives before entries name revision written after more) :
    Grown before.log.latest after.log.latest name revision written := by
  cases added with
  | nothing empty => exact grown_nothing empty
  | entry observing noted intact seq grown => exact grown

theorem Added.empty (added : Added primitives before entries name revision written after []) : written.isEmpty = true := by
  cases added with
  | nothing empty => exact empty

theorem Added.answers (added : Added primitives before entries name revision written after more)
    (some_ : more ≠ []) (tells : Tells facts others name revision written) (proto : ascii "__proto__" ∉ written.keys)
    (answers : ∀ who,Answers (pointedAt entries who none none) facts who) (who : Text) :
    Answers (pointedAt (entries ++ more) who none none) others who := by
  cases added with
  | nothing empty => exact absurd rfl some_
  | entry observing noted intact seq grown =>
    rw [pointedAt,foldl_append]
    exact tells.answers observing noted proto (answers who)

end Parts

section Splits
variable {facts : Facts} {name revision : Text} {files : Files}

theorem filter_keys (out : p ∉ files.keys) : p ∉ (files.filter keep).keys := by
  intro member
  rw [Std.ExtTreeMap.mem_keys,Std.ExtTreeMap.mem_iff_isSome_getElem?,filter_get] at member
  cases has : files[p]? with
  | none => rw [has] at member; cases member
  | some d => exact out (mem_keys (by rw [has]; rfl))

-- The files known before, on top of the digests of the revision: those that
-- changed, on top of what was known where the name stays.
theorem kept_changed (moves : Moves facts name revision files) (path : Text) :
    (keptOf facts name revision files)[path]?.or (digest facts name revision path) =
      (differing facts name revision files)[path]?.or
        (if observed facts name = some revision then digest facts name revision path else none) := by
  unfold keptOf differing
  rw [filter_get,filter_get]
  by_cases stays : observed facts name = some revision
  · rw [if_pos stays]
    cases has : files[path]? with
    | none => rfl
    | some d =>
      cases last : digest facts name revision path with
      | none => rfl
      | some found => by_cases same : found = d <;> simp [Option.filter,same]
  · rw [if_neg stays]
    have changes := (moves stays).2.1
    cases last : digest facts name revision path with
    | none =>
      cases files[path]? with
      | none => rfl
      | some d => rfl
    | some found =>
      obtain ⟨has,other⟩ := changes path (digest_known last)
      obtain ⟨d,is⟩ := Option.isSome_iff_exists.mp has
      rw [last,is] at other
      have apart : found ≠ d := fun same => other (by rw [same])
      rw [is]
      simp [Option.filter,apart]

theorem quiet_stays (moves : Moves facts name revision files) (still : ¬Moving facts name revision)
    (unchanged : (differing facts name revision files).isEmpty = true)
    (known_ : (freshOf facts name revision files).isEmpty = true) : observed facts name = some revision := by
  by_contra leaves
  obtain ⟨_,changes,filled⟩ := moves leaves
  have nothing : known facts name revision = [] := by
    refine eq_nil_iff_forall_not_mem.mpr fun path member => ?_
    obtain ⟨has,other⟩ := changes path member
    obtain ⟨d,is⟩ := Option.isSome_iff_exists.mp has
    obtain ⟨found,last⟩ := Option.isSome_iff_exists.mp (known_digest member)
    have absent := empty_get unchanged path
    rw [last,is] at other
    have apart : found ≠ d := fun same => other (by rw [same])
    unfold differing at absent
    rw [filter_get,is,last] at absent
    simp [Option.filter,apart] at absent
  have none : files.isEmpty = true := by
    rw [Std.ExtTreeMap.isEmpty_iff]
    refine table_ext fun path => ?_
    have absent := empty_get known_ path
    unfold freshOf at absent
    rw [filter_get] at absent
    cases has : files[path]? with
    | none => simp
    | some d =>
      cases last : digest facts name revision path with
      | none => rw [has,last] at absent; cases absent
      | some found =>
        have member := digest_known last
        rw [nothing] at member; cases member
  rcases filled with some_ | before
  · rw [none] at some_; cases some_
  · unfold FiledBefore at before
    cases last : filed facts name with
    | none => rw [last] at before; cases before
    | some r =>
      rw [last] at before
      refine still ⟨r,last,by simpa using before,?_⟩
      rintro rfl
      exact filed_known last nothing

theorem quiet_digest (unchanged : (differing facts name revision files).isEmpty = true)
    (known_ : (freshOf facts name revision files).isEmpty = true) (has : files[p]? = some d) :
    digest facts name revision p = some d := by
  have first := empty_get unchanged p
  have second := empty_get known_ p
  unfold differing at first
  unfold freshOf at second
  rw [filter_get,has] at first second
  cases last : digest facts name revision p with
  | none => rw [last] at second; cases second
  | some found =>
    rw [last] at first
    by_cases same : found = d
    · rw [same]
    · simp [Option.filter,same] at first

end Splits

theorem answers_congr (answers : Answers p facts who) (seen_ : observed others who = observed facts who)
    (files : ∀ r,observed facts who = some r → ∀ path,digest others who r path = digest facts who r path)
    (index : ∀ r,lastIndex others who r = lastIndex facts who r) : Answers p others who := by
  unfold Answers at answers ⊢
  rw [seen_]
  split
  · rename_i none; rw [none] at answers; exact answers
  · rename_i r last
    rw [last] at answers
    refine ⟨answers.1,fun path => ?_,?_⟩
    · rw [files r last]; exact answers.2.1 path
    · rw [index]; exact answers.2.2

section Told
variable {facts : Facts} {name revision : Text} {files : Files} {n m : Nat}

theorem tells_told (moves : Moves facts name revision files)
    (split_ : ∀ path,(freshOf facts name revision files)[path]?.or ((keptOf facts name revision files)[path]?.or
      (digest facts name revision path)) = written[path]?.or
        (if observed facts name = some revision then digest facts name revision path else none)) :
    Tells facts (told n m facts name revision files) name revision written := by
  refine ⟨observed_told n m facts name revision files,?_,?_,lastIndex_told n m facts name revision files,
    fun leaves => (moves leaves).1⟩
  · intro who r path other
    rw [digest_told,if_neg fun both => other both.1]
  · intro path
    rw [digest_told,if_pos ⟨rfl,rfl⟩,←split_,fresh_or_kept]

theorem tells_changed (moves : Moves facts name revision files) (known_ : (freshOf facts name revision files).isEmpty = true) :
    Tells facts (told n m facts name revision files) name revision (differing facts name revision files) := by
  refine tells_told moves fun path => ?_
  rw [empty_get known_,kept_changed moves]
  rfl

theorem tells_fresh (moves : Moves facts name revision files)
    (unchanged : (differing facts name revision files).isEmpty = true) :
    Tells facts (told n m facts name revision files) name revision (freshOf facts name revision files) := by
  refine tells_told moves fun path => ?_
  rw [kept_changed moves,empty_get unchanged]
  rfl

theorem tells_first (moves : Moves facts name revision files) :
    Tells facts ((n,.seen name revision (keptOf facts name revision files)) :: facts) name revision
      (differing facts name revision files) := by
  refine ⟨observed_seen n name revision _ facts,?_,?_,lastIndex_seen n name revision _ facts,fun leaves => (moves leaves).1⟩
  · intro who r path other
    rw [digest_seen,if_neg fun both => other both.1]
  · intro path
    rw [digest_seen,if_pos ⟨rfl,rfl⟩]
    exact kept_changed moves path

theorem tells_second : Tells ((n,.seen name revision (keptOf facts name revision files)) :: facts)
    ((m,.seen name revision (freshOf facts name revision files)) ::
      (n,.seen name revision (keptOf facts name revision files)) :: facts)
    name revision (freshOf facts name revision files) := by
  have here : observed ((n,.seen name revision (keptOf facts name revision files)) :: facts) name = some revision := by
    rw [observed_seen,if_pos rfl]
  refine ⟨observed_seen m name revision _ _,?_,?_,lastIndex_seen m name revision _ _,fun leaves => absurd here leaves⟩
  · intro who r path other
    rw [digest_seen,if_neg fun both => other both.1]
  · intro path
    rw [digest_seen,if_pos ⟨rfl,rfl⟩,if_pos here]

end Told

theorem upTo_new {facts : Facts} {fact : Nat × Fact} {k : Nat} (later : k < fact.1) : upTo k (fact :: facts) = upTo k facts := by
  unfold upTo
  rw [filter_cons,if_neg (by simpa using later)]

theorem upTo_old (stamped : ∀ fact ∈ facts,fact.1 ≤ k) : upTo k facts = facts :=
  filter_eq_self.mpr fun fact member => by simpa using stamped fact member

section Latests
variable {facts : Facts} {name revision : Text} {files : Files} {first middle last : Table Text Value}

theorem grown_file (one : Grown first middle name revision (differing facts name revision files))
    (two : Grown middle last name revision (freshOf facts name revision files)) (has : files[p]? = some d)
    (known_ : ∀ found,digest facts name revision p = some found → first[fileKey name revision p]? = some (.str found)) :
    last[fileKey name revision p]? = some (.str d) := by
  cases found : digest facts name revision p with
  | none =>
    refine two.file p d ?_
    unfold freshOf
    rw [filter_get,has,found]
    rfl
  | some before =>
    have later : last[fileKey name revision p]? = middle[fileKey name revision p]? := by
      refine two.other _ (fileKey_name name revision p) fun q fresh same => ?_
      rw [fileKey_injective name revision same] at fresh
      unfold freshOf at fresh
      rw [filter_get,has,found] at fresh
      cases fresh
    rw [later]
    by_cases same : before = d
    · have kept : middle[fileKey name revision p]? = first[fileKey name revision p]? := by
        refine one.other _ (fileKey_name name revision p) fun q changed equal => ?_
        rw [fileKey_injective name revision equal] at changed
        unfold differing at changed; rw [filter_get,has,found] at changed
        simp [Option.filter,same] at changed
      rw [kept,known_ before found,same]
    · refine one.file p d ?_
      unfold differing
      rw [filter_get,has,found]
      simp [Option.filter,same]

theorem grown_other (one : Grown first middle name revision (differing facts name revision files))
    (two : Grown middle last name revision (freshOf facts name revision files)) (apart : k ≠ name)
    (out : ∀ p : Text,files[p]?.isSome = true → fileKey name revision p ≠ k) : last[k]? = first[k]? := by
  have within {keep : Text → Text → Bool} {p : Text} (has : (files.filter keep)[p]?.isSome = true) : files[p]?.isSome = true := by
    rw [filter_get] at has
    cases found : files[p]? with
    | none => rw [found] at has; cases has
    | some d => rfl
  rw [two.other k apart fun p has => out p (within has),one.other k apart fun p has => out p (within has)]

theorem grown_named (one : Grown first middle name revision (differing facts name revision files))
    (two : Grown middle last name revision (freshOf facts name revision files)) :
    last[name]? = if (differing facts name revision files).isEmpty = true ∧ (freshOf facts name revision files).isEmpty = true
      then first[name]? else some (.str revision) := by
  rw [two.named,one.named]
  cases (differing facts name revision files).isEmpty <;> cases (freshOf facts name revision files).isEmpty <;> rfl

end Latests

section Observing
variable {s : Session κ} {entries : List Value} {name revision : Text} {files : Files} {clock : Nat → Text}

theorem latest_told (holds : Latest first facts) (clear : Clear facts name revision files)
    (recorded : ∀ who r,observed facts who = some r → known facts who r ≠ [] → filed facts who = some r)
    (stays : (differing facts name revision files).isEmpty = true → (freshOf facts name revision files).isEmpty = true →
      files.isEmpty = false → observed facts name = some revision)
    (one : Grown first middle name revision (differing facts name revision files))
    (two : Grown middle last name revision (freshOf facts name revision files)) :
    Latest last (told n m facts name revision files) := by
  refine ⟨?_,?_,?_⟩
  · intro n' r q d found
    rw [digest_told] at found
    split at found
    · rename_i same
      obtain ⟨rfl,rfl⟩ := same
      cases has : files[q]? with
      | some now =>
        rw [has] at found; cases found
        exact grown_file one two has fun before is => holds.path name revision q before is
      | none =>
        rw [has] at found; rw [grown_other one two (fileKey_name name revision q)]
        · exact holds.path name revision q d found
        · intro p filled same; rw [fileKey_injective name revision same,has] at filled
          cases filled
    · rename_i other
      have known_ : (digest facts n' r q).isSome = true := by rw [found]; rfl
      rw [grown_other one two (clear.key n' r q known_)]
      · exact holds.path n' r q d found
      · intro p has same
        obtain ⟨rfl,rfl,_⟩ := clear.path n' r q p known_ has same.symm
        exact other ⟨rfl,rfl⟩
  · intro who seen_
    rw [observed_told] at seen_
    rw [filed_told]
    by_cases same : name = who
    · subst same
      rw [grown_named one two]
      split
      · rename_i both; rw [holds.at_name clear]
        cases filled : files.isEmpty with
        | true => simp
        | false =>
          have here := stays both.1 both.2 filled
          obtain ⟨p,d,has⟩ := some_get filled
          have known_ := ne_nil_of_mem (digest_known (quiet_digest both.1 both.2 has))
          rw [recorded name revision here known_]; simp
      · rename_i not_
        have filled : files.isEmpty = false := by
          cases empty : files.isEmpty with
          | false => rfl
          | true =>
            refine absurd ⟨?_,?_⟩ not_
            · rw [Std.ExtTreeMap.isEmpty_iff]
              refine table_ext fun p => ?_
              rw [differing,filter_get,empty_get empty]; simp
            · exact ((split_empty facts name revision files).mp empty).1
        rw [if_pos ⟨rfl,filled⟩]; rfl
    · rw [if_neg same] at seen_
      rw [if_neg fun both => same both.1]
      rw [grown_other one two (Ne.symm same) fun p has equal => clear.named who p seen_ has equal.symm]
      exact holds.name who seen_
  · intro k stored
    by_cases at_name : k = name
    · exact .inr (by rw [observed_told,if_pos at_name.symm]; rfl)
    by_cases at_file : ∃ p : Text,files[p]?.isSome = true ∧ fileKey name revision p = k
    · obtain ⟨p,has,same⟩ := at_file
      refine .inl ⟨name,revision,p,?_,same⟩
      rw [digest_told,if_pos ⟨rfl,rfl⟩]
      cases found : files[p]? with
      | none => rw [found] at has; cases has
      | some d => rfl
    · rw [grown_other one two at_name fun p has same => at_file ⟨p,has,same⟩] at stored
      rcases holds.only k stored with ⟨n',r,q,known_,same⟩ | seen_
      · refine .inl ⟨n',r,q,?_,same⟩
        rw [digest_told]; split
        · cases files[q]? with
          | none => exact known_
          | some d => rfl
        · exact known_
      · refine .inr ?_
        rw [observed_told]; split
        · rfl
        · exact seen_

theorem recorded_told (moves : Moves facts name revision files)
    (recorded : ∀ who r,observed facts who = some r → known facts who r ≠ [] → filed facts who = some r) (who r : Text)
    (seen_ : observed (told n m facts name revision files) who = some r)
    (filled : known (told n m facts name revision files) who r ≠ []) :
    filed (told n m facts name revision files) who = some r := by
  rw [observed_told] at seen_
  rw [filed_told]
  rw [known_told] at filled
  by_cases same : name = who
  · subst same
    rw [if_pos rfl] at seen_
    cases seen_
    cases empty : files.isEmpty with
    | false => simp
    | true =>
      simp only [empty,Bool.true_eq_false,and_false,false_or,if_false] at filled ⊢
      by_cases here : observed facts name = some revision
      · exact recorded name revision here filled
      · obtain ⟨path,member⟩ := exists_mem_of_ne_nil _ filled
        obtain ⟨has,_⟩ := (moves here).2.1 path member
        rw [empty_get empty] at has; cases has
  · rw [if_neg same] at seen_
    rw [if_neg fun both => same both.1]
    rcases filled with ⟨equal,_⟩ | before
    · exact absurd equal same
    · exact recorded who r seen_ before

theorem take_added (short : k ≤ entries.length) : (entries ++ more).take k = entries.take k :=
  take_append_of_le_length short

theorem Good.observed (good : Good primitives s entries) (small : s.opened.log.seq+2 ≤ 2^53)
    (fine : Fine s.facts name revision files) : ∃ more,Good primitives
      ⟨(witnessFiles primitives s.opened clock name revision files).1,
        told s.opened.log.seq ((witnessFiles primitives s.opened clock name revision files).1.log.seq-s.opened.log.seq)
          s.facts name revision files,(name,revision,files) :: s.calls⟩ (entries ++ more) := by
  obtain ⟨apart,proto,_,moves⟩ := fine
  have clear := clear_apart apart
  obtain ⟨middle,first,second,one,two,still,_,_,_⟩ := observation clock good.intact small good.latest clear
  have seq := good.intact.seq
  have added : (witnessFiles primitives s.opened clock name revision files).1.log.seq-s.opened.log.seq =
      first.length+second.length := by
    rw [two.seq_eq,one.seq_eq]
    omega
  have protos {keep : Text → Text → Bool} : ascii "__proto__" ∉ (files.filter keep).keys := filter_keys proto
  have quiet (nothing : first = []) (none : second = []) :
      (differing s.facts name revision files).isEmpty = true ∧ (freshOf s.facts name revision files).isEmpty = true ∧
        Names.observed s.facts name = some revision := by
    subst none
    obtain ⟨unchanged,stay⟩ := still.mp nothing
    exact ⟨unchanged,two.empty,quiet_stays moves stay unchanged two.empty⟩
  have shortOne : first.length ≤ 1 := by cases one <;> simp
  have shortTwo : second.length ≤ 1 := by cases two <;> simp
  rw [added,seq]
  refine ⟨first ++ second,⟨?_,?_,?_,?_,?_,?_,?_⟩⟩
  · rw [←append_assoc]
    exact two.intact (one.intact good.intact)
  · refine latest_told good.latest clear good.recorded ?_ one.grown two.grown
    intro unchanged known_ filled
    by_cases moving : Moving s.facts name revision
    · obtain ⟨p,d,has⟩ := some_get filled
      by_contra leaves
      have known_digest_ := quiet_digest unchanged known_ has
      obtain ⟨_,other⟩ := (moves leaves).2.1 p (digest_known known_digest_)
      exact other (by rw [has,known_digest_])
    · exact quiet_stays moves moving unchanged known_
  · intro fact member
    rw [length_append,length_append]
    rcases mem_cons.mp member with rfl | member
    · show entries.length+(first.length+second.length) ≤ _
      omega
    rcases mem_cons.mp member with rfl | member
    · show entries.length+min 1 (first.length+second.length) ≤ _
      omega
    · exact (good.stamped fact member).trans (by omega)
  · intro who
    rw [←append_assoc]
    cases second with
    | nil =>
      rw [append_nil]
      cases first with
      | nil =>
        obtain ⟨unchanged,known_,here⟩ := quiet rfl rfl
        rw [append_nil]
        refine answers_congr (good.now who) ?_ ?_ fun r => lastIndex_told _ _ _ _ _ _ who r
        · rw [observed_told]; split
          · rename_i same; rw [←same,here]
          · rfl
        · intro r last path; rw [digest_told]
          split
          · rename_i same
            obtain ⟨rfl,rfl⟩ := same
            cases has : files[path]? with
            | none => rfl
            | some d => rw [quiet_digest unchanged known_ has]; rfl
          · rfl
      | cons e rest => exact one.answers (by simp) (tells_changed moves two.empty) protos good.now who
    | cons e rest =>
      cases first with
      | nil =>
        rw [append_nil] at two ⊢
        exact two.answers (by simp) (tells_fresh moves (still.mp rfl).1) protos good.now who
      | cons e' rest' =>
        have step := one.answers (by simp) (@tells_first s.facts name revision files
          (entries.length+min 1 ((e' :: rest').length+(e :: rest).length)) moves) protos good.now
        exact two.answers (by simp) tells_second protos step who
  · intro k who positive short
    rw [length_append,length_append] at short
    by_cases below : k < entries.length
    · have fresh : upTo k (told entries.length (first.length+second.length) s.facts name revision files) = upTo k s.facts := by
        unfold told
        rw [upTo_new (show k < entries.length+(first.length+second.length) by omega),
          upTo_new (show k < entries.length+min 1 (first.length+second.length) by omega)]
      show Answers _ (upTo k (told entries.length (first.length+second.length) s.facts name revision files)) who
      rw [fresh,take_added (Nat.le_of_lt below)]
      exact good.past k who positive below
    · rcases Nat.eq_or_lt_of_le (Nat.le_of_not_lt below) with whole | beyond
      · have fresh : upTo k (told entries.length (first.length+second.length) s.facts name revision files) = s.facts := by
          unfold told
          rw [upTo_new (show k < entries.length+(first.length+second.length) by omega),
            upTo_new (show k < entries.length+min 1 (first.length+second.length) by omega),
            upTo_old fun fact member => (good.stamped fact member).trans (Nat.le_of_eq whole)]
        show Answers _ (upTo k (told entries.length (first.length+second.length) s.facts name revision files)) who
        rw [fresh,take_added (Nat.le_of_eq whole.symm),←whole,take_length]; exact good.now who
      · have longOne : first.length = 1 := by omega
        have longTwo : second.length = 1 := by omega
        have at_ : k = entries.length+1 := by omega
        have stamp : entries.length+min 1 (first.length+second.length) = entries.length+1 := by omega
        have old : upTo k s.facts = s.facts := upTo_old fun fact member => (good.stamped fact member).trans (by omega)
        have kept : upTo k (told entries.length (first.length+second.length) s.facts name revision files) =
            (entries.length+1,.seen name revision (keptOf s.facts name revision files)) :: s.facts := by
          unfold told
          rw [upTo_new (show k < entries.length+(first.length+second.length) by omega),stamp]
          show upTo k ((entries.length+1,.seen name revision (keptOf s.facts name revision files)) :: s.facts) = _
          refine upTo_old fun fact member => ?_
          rcases mem_cons.mp member with rfl | member
          · exact Nat.le_of_eq at_.symm
          · exact (good.stamped fact member).trans (by omega)
        show Answers _ (upTo k (told entries.length (first.length+second.length) s.facts name revision files)) who
        have taken : (entries ++ (first ++ second)).take k = entries ++ first := by
          rw [←append_assoc,take_append_of_le_length (by rw [length_append]; omega),
            take_of_length_le (by rw [length_append]; omega)]
        rw [kept,taken]
        exact one.answers (by rintro rfl; cases longOne) (tells_first moves) protos good.now who
  · exact recorded_told moves good.recorded
  · intro other r fs found
    show Names.observed (told entries.length (first.length+second.length) s.facts name revision files) other = some r ∧ _
    rw [find?_cons] at found
    by_cases same : name = other
    · simp only [same,decide_true] at found
      cases found
      subst same
      refine ⟨by rw [observed_told,if_pos rfl],fun p d has => ?_⟩
      show digest (told entries.length (first.length+second.length) s.facts name revision files) name revision p = some d
      rw [digest_told,if_pos ⟨rfl,rfl⟩,has]
      rfl
    · simp only [same,decide_false] at found
      obtain ⟨here,files_⟩ := good.last other r fs found
      refine ⟨by rw [observed_told,if_neg same]; exact here,fun p d has => ?_⟩
      show digest (told entries.length (first.length+second.length) s.facts name revision files) other r p = some d
      rw [digest_told,if_neg fun both => same both.1]
      exact files_ p d has

end Observing

end Names
