import HologramLive.Artifact.Reference
namespace HologramLive
open Fallible Input List
variable {input : Str} {config : RegistryConfig} {reference : ArtifactRef}

theorem splitOn_parts (text : Str) : ∀ part ∈ text.splitOn separator,separator ∉ part := by
  induction text with
  | nil => simp
  | cons c rest ih =>
    rw [splitOn_cons_eq_if_modifyHead]
    split
    · exact forall_mem_cons.mpr ⟨not_mem_nil,ih⟩
    · rename_i other
      cases shape : rest.splitOn separator with
      | nil => exact absurd shape (List.splitOn_ne_nil _ _)
      | cons first later =>
        rw [shape] at ih
        obtain ⟨head,tail⟩ := forall_mem_cons.mp ih
        refine forall_mem_cons.mpr ⟨?_,tail⟩
        rw [mem_cons]
        rintro (same | inside)
        · exact other (by rw [same]; exact beq_self_eq_true c)
        · exact head inside

theorem segmentsOf_mem {body segment : Str} (member : segment ∈ segmentsOf body) : segment ≠ [] ∧ '/' ∉ segment := by
  obtain ⟨part,full⟩ := mem_filter.mp member
  exact ⟨by simpa using full,splitOn_parts body segment part⟩

structure Parsed (input : Str) (config : RegistryConfig) (reference : ArtifactRef) : Prop where
  tag : reference.tag = (splitTag (trimWhitespace input)).2
  tagged : validateTag reference.tag = .ok ()
  segments : segmentsOf (Input.body input) = Input.leading input ++ [reference.name]
  named : validateSegment "name" reference.name = .ok ()
  host : reference.host = Input.host input config
  configured : ownHost input = none → defaultHost config = .ok reference.host
  space : reference.namespace = Input.space input config
  spaced : ∀ segment ∈ ownNamespace input,validateSegment "namespace" segment = .ok ()
  full : reference.namespace ≠ []

theorem chooseHost_ok {leading rest : List Str} {host : Str} (ok : chooseHost leading config = .ok (host,rest)) :
    (∃ first others,leading = first :: others ∧ isHost first = true ∧ host = first ∧ rest = others) ∨
      ((∀ first others,leading = first :: others → isHost first = false) ∧ defaultHost config = .ok host ∧ rest = leading) := by
  unfold chooseHost at ok
  split at ok
  · rename_i first others
    split at ok
    · rename_i named
      cases ok
      exact .inl ⟨_,_,rfl,named,rfl,rfl⟩
    · rename_i plain
      cases configured : defaultHost config with
      | error e => rw [configured] at ok; cases ok
      | ok known =>
        rw [configured] at ok; cases ok
        refine .inr ⟨fun first' others' same => ?_,rfl,rfl⟩
        cases same; exact Bool.not_eq_true _ ▸ plain
  · cases configured : defaultHost config with
    | error e => rw [configured] at ok; cases ok
    | ok known =>
      rw [configured] at ok
      cases ok
      exact .inr ⟨fun first others same => (by cases same),rfl,rfl⟩

theorem chooseNamespace_ok {space : Str} (ok : chooseNamespace segments config = .ok space) :
    (space = if segments.isEmpty then trimMatches (· = '/') config.namespace else ['/'].intercalate segments) ∧
      ∀ segment ∈ segments,validateSegment "namespace" segment = .ok () := by
  unfold chooseNamespace at ok
  split at ok
  · rename_i none_
    cases ok
    refine ⟨(if_pos none_).symm,fun segment member => ?_⟩
    rw [List.isEmpty_iff.mp none_] at member
    cases member
  · rename_i some_
    obtain ⟨done,checked,ok⟩ := bind_ok ok
    cases ok
    refine ⟨(if_neg some_).symm,fun segment member => ?_⟩
    obtain ⟨_,one⟩ := mapM_ok_mem checked segment member
    exact one

theorem parse_ok (ok : ArtifactRef.parse input config = .ok reference) : Parsed input config reference := by
  unfold ArtifactRef.parse at ok
  dsimp only at ok
  split at ok
  · cases ok
  · obtain ⟨_,tagged,ok⟩ := bind_ok ok
    split at ok
    · cases ok
    · rename_i name last
      obtain ⟨_,named,ok⟩ := bind_ok ok
      obtain ⟨⟨host,rest⟩,hosted,ok⟩ := bind_ok ok
      obtain ⟨space,spaced,ok⟩ := bind_ok ok
      split at ok
      · cases ok
      · rename_i full; cases ok
        obtain ⟨space_,valid⟩ := chooseNamespace_ok spaced
        have segments : segmentsOf (Input.body input) = Input.leading input ++ [name] :=
          (dropLast_append_getLast? name (Option.mem_def.mpr last)).symm
        obtain ⟨first,others,shape,isHost_,rfl,rfl⟩ | ⟨plain,configured,rfl⟩ := chooseHost_ok hosted
        · have leading : Input.leading input = host :: rest := shape
          have own : ownHost input = some host := by unfold ownHost; rw [leading]; exact if_pos isHost_
          have names : ownNamespace input = rest := by unfold ownNamespace; rw [leading]; exact if_pos isHost_
          refine ⟨rfl,tagged,segments,named,?_,fun none_ => ?_,?_,?_,by simpa using full⟩
          · unfold Input.host; rw [own]; rfl
          · rw [own] at none_; cases none_
          · unfold Input.space; rw [names]; exact space_
          · rw [names]; exact valid
        · have own : ownHost input = none := by
            unfold ownHost; split
            · rename_i first others shape
              rw [if_neg (by rw [plain first others shape]; simp)]
            · rfl
          have names : ownNamespace input = Input.leading input := by
            unfold ownNamespace; split
            · rename_i first others shape
              rw [if_neg (by rw [plain first others shape]; simp),shape]
            · rename_i shape; exact shape.symm
          refine ⟨rfl,tagged,segments,named,?_,fun _ => configured,?_,?_,by simpa using full⟩
          · unfold Input.host; rw [own,configured]; rfl
          · unfold Input.space; rw [names]; exact space_
          · rw [names]; exact valid

theorem validateTag_ok (ok : validateTag tag = .ok ()) : tagLegal tag = true ∧ ':' ∉ tag ∧ '/' ∉ tag := by
  unfold validateTag at ok
  split at ok
  · cases ok
  · rename_i first rest
    split at ok
    · cases ok
    · rename_i short
      split at ok
      · cases ok
      · rename_i start; split at ok
        · cases ok
        · rename_i legal; simp only [Bool.not_eq_true',Bool.not_eq_false] at start legal
          have start' : (asciiAlnum first || decide (first = '_')) = true := start
          have each : ∀ c ∈ first :: rest,(asciiAlnum c || decide (c = '.') || decide (c = '_') || decide (c = '-')) = true := by
            refine forall_mem_cons.mpr ⟨?_,fun c member => ?_⟩
            · obtain one | two := Bool.or_eq_true_iff.mp start'
              · simp [one]
              · simp [of_decide_eq_true two]
            · have one := all_eq_true.mp legal c member
              simp only [Bool.or_eq_true,decide_eq_true_eq,mem_cons,not_mem_nil,or_false] at one ⊢
              tauto
          refine ⟨?_,?_,?_⟩
          · unfold tagLegal
            simp only [List.head?_cons,Bool.and_eq_true,decide_eq_true_eq]
            exact ⟨⟨Nat.le_of_not_lt short,start'⟩,all_eq_true.mpr each⟩
          · intro member; exact absurd (each _ member) (by decide)
          · intro member; exact absurd (each _ member) (by decide)

theorem validateSegment_ok {segment : Str} (ok : validateSegment label segment = .ok ()) :
    segment ≠ [] ∧ ∀ c ∈ segment,(lowerAlnum c || decide (c ∈ ['.','_','-'])) = true := by
  unfold validateSegment at ok
  split at ok
  · cases ok
  · rename_i full
    split at ok
    · cases ok
    · rename_i legal
      simp only [Bool.not_eq_true',Bool.not_eq_false] at legal
      exact ⟨by simpa using full,all_eq_true.mp legal⟩

theorem validateSegment_apart {segment : Str}
    (ok : validateSegment label segment = .ok ()) : ':' ∉ segment ∧ '/' ∉ segment := by
  obtain ⟨_,legal⟩ := validateSegment_ok ok
  exact ⟨fun member => absurd (legal _ member) (by decide),fun member => absurd (legal _ member) (by decide)⟩

theorem segments_apart {part : Str} (full : part ≠ []) (apart : '/' ∉ part) (rest : Str) :
    segmentsOf (part ++ '/' :: rest) = part :: segmentsOf rest := by
  unfold segmentsOf
  rw [splitOn_append_cons_self,splitOn_eq_singleton apart,singleton_append]
  exact filter_cons_of_pos (by simpa using full)

theorem segments_single {part : Str} (full : part ≠ []) (apart : '/' ∉ part) : segmentsOf part = [part] := by
  unfold segmentsOf
  rw [splitOn_eq_singleton apart]
  exact filter_cons_of_pos (by simpa using full)

theorem segments_append (left right : Str) : segmentsOf (left ++ '/' :: right) = segmentsOf left ++ segmentsOf right := by
  unfold segmentsOf
  rw [splitOn_append_cons_self,filter_append]

theorem splitTag_tagged {text tag : Str} (colon : ':' ∉ tag) (slash : '/' ∉ tag) :
    splitTag (text ++ ':' :: tag) = (text,tag) := by
  have split : rsplitOnce ':' (text ++ ':' :: tag) = some (text,tag) := by
    unfold rsplitOnce
    rw [reverse_append,reverse_cons,append_assoc,singleton_append,
      splitOnce_append (by simpa using colon)]
    simp
  unfold splitTag
  rw [split]
  exact if_neg slash

theorem trimEndMatches_last {p : Char → Bool} {text : Str} {c : Char} (other : p c = false) :
    trimEndMatches p (text ++ [c]) = text ++ [c] := by
  unfold trimEndMatches
  rw [reverse_append,reverse_singleton,singleton_append,dropWhile_cons_of_neg (by simp [other])]
  simp

theorem char_between {low high c : Char} (one : low ≤ c) (two : c ≤ high) : low.toNat ≤ c.toNat ∧ c.toNat ≤ high.toNat :=
  ⟨UInt32.le_iff_toNat_le.mp (Char.le_def.mp one),UInt32.le_iff_toNat_le.mp (Char.le_def.mp two)⟩

theorem asciiAlnum_range {c : Char} (alnum : asciiAlnum c = true) : 48 ≤ c.toNat ∧ c.toNat ≤ 122 := by
  unfold asciiAlnum at alnum
  simp only [Char.isDigit,Bool.or_eq_true,Bool.and_eq_true,decide_eq_true_eq] at alnum
  obtain (⟨low,high⟩ | ⟨low,high⟩) | ⟨low,high⟩ := alnum
  · have low' := UInt32.le_iff_toNat_le.mp low
    have high' := UInt32.le_iff_toNat_le.mp high
    exact ⟨low',Nat.le_trans high' (by decide)⟩
  · obtain ⟨low',high'⟩ := char_between low high
    exact ⟨Nat.le_trans (by decide) low',high'⟩
  · obtain ⟨low',high'⟩ := char_between low high
    exact ⟨Nat.le_trans (by decide) low',Nat.le_trans high' (by decide)⟩

theorem whitespace_outside (low : 33 ≤ c.toNat) (high : c.toNat ≤ 132) : isWhitespace c = false := by
  unfold isWhitespace
  simp only [Bool.or_eq_false_iff,Bool.and_eq_false_iff,decide_eq_false_iff_not,mem_cons,not_mem_nil,or_false]
  omega

theorem tagChar_visible (legal : (asciiAlnum c || decide (c = '.') || decide (c = '_') || decide (c = '-')) = true) :
    isWhitespace c = false := by
  simp only [Bool.or_eq_true,decide_eq_true_eq] at legal
  obtain ((alnum | rfl) | rfl) | rfl := legal
  · obtain ⟨low,high⟩ := asciiAlnum_range alnum
    exact whitespace_outside (by omega) (by omega)
  · decide
  · decide
  · decide

theorem trim_tagged (legal : tagLegal tag = true) (visible : ∃ c ∈ text,isWhitespace c = false) :
    trimWhitespace (text ++ ':' :: tag) = text.dropWhile isWhitespace ++ ':' :: tag := by
  have dropped : (text ++ ':' :: tag).dropWhile isWhitespace = text.dropWhile isWhitespace ++ ':' :: tag := by
    obtain ⟨c,member,plain⟩ := visible
    have some_ : ¬(text.dropWhile isWhitespace).isEmpty = true := by
      rw [List.isEmpty_iff,List.dropWhile_eq_nil_iff]
      intro all
      rw [all c member] at plain
      cases plain
    rw [dropWhile_append,if_neg some_]
  unfold tagLegal at legal
  cases shape : tag.getLast? with
  | none =>
    rw [getLast?_eq_none_iff.mp shape] at legal
    cases legal
  | some last =>
    have member := mem_of_getLast? shape
    have spelled := dropLast_append_getLast? last (Option.mem_def.mpr shape)
    have plain : isWhitespace last = false := by
      split at legal
      · cases legal
      · simp only [Bool.and_eq_true,all_eq_true] at legal
        exact tagChar_visible (legal.2 last member)
    unfold trimWhitespace trimMatches
    rw [dropped,←spelled,←cons_append,←append_assoc]
    exact trimEndMatches_last plain

theorem dropWhile_slash (text rest : Str) :
    (text ++ '/' :: rest).dropWhile isWhitespace = text.dropWhile isWhitespace ++ '/' :: rest := by
  rw [dropWhile_append]
  split
  · rename_i none_
    rw [List.isEmpty_iff.mp none_]
    exact dropWhile_cons_of_neg (by decide)
  · rfl

section Display
variable (parsed : Parsed input config reference)
include parsed

theorem Parsed.name_segment : reference.name ≠ [] ∧ '/' ∉ reference.name :=
  ⟨(validateSegment_ok parsed.named).1,(validateSegment_apart parsed.named).2⟩

theorem Parsed.display_body : Input.body reference.display =
      reference.host.dropWhile isWhitespace ++ '/' :: (reference.namespace ++ '/' :: reference.name) ∧
    (splitTag (trimWhitespace reference.display)).2 = reference.tag := by
  obtain ⟨legal,colon,slash⟩ := validateTag_ok parsed.tagged
  have spelled : reference.display =
      (reference.host ++ '/' :: (reference.namespace ++ '/' :: reference.name)) ++ ':' :: reference.tag := by
    simp [ArtifactRef.display]
  have visible : ∃ c ∈ reference.host ++ '/' :: (reference.namespace ++ '/' :: reference.name),isWhitespace c = false :=
    ⟨'/',mem_append_right _ mem_cons_self,by decide⟩
  unfold Input.body
  rw [spelled,trim_tagged legal visible,splitTag_tagged colon slash,dropWhile_slash]
  exact ⟨rfl,rfl⟩

theorem Parsed.display_segments : segmentsOf (Input.body reference.display) =
    (segmentsOf (reference.host.dropWhile isWhitespace) ++ segmentsOf reference.namespace) ++ [reference.name] := by
  rw [parsed.display_body.1,segments_append,segments_append,segments_single parsed.name_segment.1 parsed.name_segment.2,
    append_assoc]

theorem Parsed.display_leading : Input.leading reference.display =
    segmentsOf (reference.host.dropWhile isWhitespace) ++ segmentsOf reference.namespace := by
  unfold Input.leading
  rw [parsed.display_segments]
  exact dropLast_concat

theorem Parsed.display_parses (host : isHost reference.host = true) (apart : '/' ∉ reference.host)
    (unpadded : reference.host.dropWhile isWhitespace = reference.host)
    (spaced : ∀ part ∈ reference.namespace.splitOn '/',validateSegment "namespace" part = .ok ()) (other : RegistryConfig) :
    ArtifactRef.parse reference.display other = .ok reference := by
  have hostFull : reference.host ≠ [] := by
    intro none_
    rw [none_] at host
    exact absurd host (by decide)
  have parts : segmentsOf reference.namespace = reference.namespace.splitOn '/' :=
    filter_eq_self.mpr fun part member => by simpa using (validateSegment_ok (spaced part member)).1
  have segments := parsed.display_segments
  rw [unpadded,segments_single hostFull apart,parts] at segments
  have shown := parsed.display_body
  have full : (trimWhitespace reference.display).isEmpty = false := by
    cases shape : trimWhitespace reference.display with
    | nil =>
      have nothing := shown.1
      unfold Input.body at nothing
      rw [shape] at nothing
      have length := congrArg List.length nothing
      simp [splitTag,rsplitOnce,splitOnce] at length
    | cons c rest => rfl
  have hosts : chooseHost (reference.host :: reference.namespace.splitOn '/') other =
      .ok (reference.host,reference.namespace.splitOn '/') := if_pos host
  have spaces : chooseNamespace (reference.namespace.splitOn '/') other = .ok reference.namespace := by
    unfold chooseNamespace
    rw [if_neg (by rw [List.isEmpty_iff]; exact List.splitOn_ne_nil _ _)]
    obtain ⟨done,checked⟩ := mapM_succeeds fun part member => ⟨(),spaced part member⟩
    rw [ok_bind checked,List.intercalate_splitOn]
    rfl
  unfold ArtifactRef.parse
  dsimp only
  rw [full]
  show (validateTag (splitTag (trimWhitespace reference.display)).2 >>= fun _ => _) = _
  rw [shown.2,ok_bind parsed.tagged]
  have body : (splitTag (trimWhitespace reference.display)).1 = Input.body reference.display := rfl
  rw [body,segments]
  rw [show (([reference.host] ++ reference.namespace.splitOn '/') ++ [reference.name]).getLast? = some reference.name from
    getLast?_concat]
  dsimp only
  rw [ok_bind parsed.named,dropLast_concat,singleton_append,ok_bind hosts]
  dsimp only
  rw [ok_bind spaces,if_neg (by rw [List.isEmpty_iff]; exact parsed.full)]
  rfl

def strange (host : Str) : RegistryConfig := ⟨if host = ['a'] then ['b'] else ['a'],[]⟩

omit parsed in
theorem strange_host (host : Str) : ∃ other,defaultHost (strange host) = .ok other ∧ other ≠ host := by
  by_cases same : host = ['a']
  · refine ⟨['b'],?_,?_⟩
    · unfold strange
      rw [if_pos same]
      decide
    · rw [same]; decide
  · refine ⟨['a'],?_,Ne.symm same⟩
    unfold strange
    rw [if_neg same]
    decide

omit parsed in
theorem isHost_visible {host : Str} (named : isHost host = true) : host.dropWhile isWhitespace ≠ [] := by
  intro nothing
  rw [List.dropWhile_eq_nil_iff] at nothing
  unfold isHost at named
  simp only [Bool.or_eq_true,contains_iff_mem,decide_eq_true_eq] at named
  obtain (colon | dot) | rfl := named
  · exact absurd (nothing _ colon) (by decide)
  · exact absurd (nothing _ dot) (by decide)
  · exact absurd nothing (by decide)

theorem Parsed.display_kept (same : ∀ other,ArtifactRef.parse reference.display other = .ok reference) :
    isHost reference.host = true ∧ '/' ∉ reference.host ∧ reference.host.dropWhile isWhitespace = reference.host ∧
      ∀ part ∈ reference.namespace.splitOn '/',validateSegment "namespace" part = .ok () := by
  obtain ⟨known,configured,differs⟩ := strange_host reference.host
  have again := parse_ok (same (strange reference.host))
  have leads := parsed.display_leading
  -- The host is not the configured one, so it leads the canonical form.
  obtain ⟨rest,shape,host⟩ : ∃ rest,Input.leading reference.display = reference.host :: rest ∧ isHost reference.host = true := by
    have named := again.host
    unfold Input.host ownHost at named
    rw [configured] at named
    split at named
    · rename_i first rest shape
      split at named
      · rename_i host; rw [show reference.host = first from named]
        exact ⟨rest,shape,host⟩
      · exact absurd named.symm differs
    · exact absurd named.symm differs
  have apart : '/' ∉ reference.host := by
    have member : reference.host ∈ segmentsOf (Input.body reference.display) := by
      rw [again.segments,shape]
      exact mem_append_left _ mem_cons_self
    exact (segmentsOf_mem member).2
  have apart' : '/' ∉ reference.host.dropWhile isWhitespace :=
    fun member => apart ((dropWhile_sublist isWhitespace).subset member)
  rw [shape,segments_single (isHost_visible host) apart'] at leads
  obtain ⟨unpadded,rest_⟩ := List.cons.inj leads
  have own : ownNamespace reference.display = segmentsOf reference.namespace := by
    unfold ownNamespace
    rw [shape]
    dsimp only
    rw [if_pos host,rest_]
    rfl
  have space := again.space
  unfold Input.space at space
  rw [own] at space
  split at space
  · exact absurd space again.full
  · rename_i some_
    refine ⟨host,apart,unpadded.symm,fun part member => ?_⟩
    rw [List.isEmpty_iff] at some_
    rw [space,splitOn_intercalate _ (fun part inside => (segmentsOf_mem inside).2) some_] at member
    exact again.spaced part (by rw [own]; exact member)

end Display

-- What a host and a namespace must be to be read back under any configuration.
def Portable (input : Str) (config : RegistryConfig) : Prop :=
  isHost (Input.host input config) = true ∧ '/' ∉ Input.host input config ∧
    (Input.host input config).dropWhile isWhitespace = Input.host input config ∧
    ∀ part ∈ (Input.space input config).splitOn '/',validateSegment "namespace" part = .ok ()

-- A parsed reference names a repository exactly when its components are within
-- the stricter grammar and its length within the bound, always names a tag, and
-- comes back from its canonical form exactly when it is portable.
theorem reference_grammar (ok : ArtifactRef.parse input config = .ok reference) :
    ((∃ repo,RepoName.parse reference.repository = .ok repo) ↔
      (∀ part ∈ (Input.space input config).splitOn '/' ++ [Input.name input],componentIsValid part = true) ∧
        utf8Len (Input.space input config ++ '/' :: Input.name input) ≤ maxRepositoryName) ∧
    (∃ tag,Tag.parse reference.tag = .ok tag) ∧
    ((∀ other,ArtifactRef.parse reference.display other = .ok reference) ↔ Portable input config) := by
  have parsed := parse_ok ok
  have name : Input.name input = reference.name := by
    unfold Input.name
    rw [parsed.segments,getLast?_concat]
    rfl
  refine ⟨?_,?_,?_⟩
  · have repository : reference.repository = Input.space input config ++ '/' :: Input.name input := by
      rw [←parsed.space,name]
      simp [ArtifactRef.repository]
    have parts : reference.repository.splitOn '/' = (Input.space input config).splitOn '/' ++ [Input.name input] := by
      rw [repository,splitOn_append_cons_self,name,splitOn_eq_singleton parsed.name_segment.2]
    have legal : repoNameLegal reference.repository = true ↔
        (∀ part ∈ (Input.space input config).splitOn '/' ++ [Input.name input],componentIsValid part = true) ∧
          utf8Len (Input.space input config ++ '/' :: Input.name input) ≤ maxRepositoryName := by
      unfold repoNameLegal
      rw [parts,repository]
      simp only [Bool.and_eq_true,Bool.not_eq_true',all_eq_true,decide_eq_true_eq]
      constructor
      · rintro ⟨⟨_,short⟩,each⟩; exact ⟨each,short⟩
      · rintro ⟨each,short⟩; exact ⟨⟨by simp,short⟩,each⟩
    rw [←legal]
    unfold RepoName.parse
    constructor
    · rintro ⟨repo,accepted⟩
      split at accepted
      · rename_i valid; exact valid
      · cases accepted
    · intro valid
      exact ⟨⟨reference.repository,valid⟩,dif_pos valid⟩
  · have legal := (validateTag_ok parsed.tagged).1
    exact ⟨⟨reference.tag,legal⟩,dif_pos legal⟩
  · unfold Portable
    rw [←parsed.host,←parsed.space]
    constructor
    · exact parsed.display_kept
    · rintro ⟨host,apart,unpadded,spaced⟩ other
      exact parsed.display_parses host apart unpadded spaced other

def plainConfig : RegistryConfig := ⟨"http://registry".toList,"models".toList⟩

theorem dotted_rejected : ∃ reference,ArtifactRef.parse "a..b".toList plainConfig = .ok reference ∧
    (∀ repo,RepoName.parse reference.repository ≠ .ok repo) ∧
    ArtifactRef.parse reference.display plainConfig ≠ .ok reference := by
  refine ⟨⟨"registry".toList,"models".toList,"a..b".toList,"latest".toList⟩,by decide,?_,by decide⟩
  intro repo accepted
  have refused : RepoName.parse "models/a..b".toList = .error (.invalid "repository name".toList "models/a..b".toList) := by
    decide
  rw [show (⟨"registry".toList,"models".toList,"a..b".toList,"latest".toList⟩ : ArtifactRef).repository =
    "models/a..b".toList from rfl,refused] at accepted
  cases accepted

theorem dotted_grammar : ∃ reference,ArtifactRef.parse "a..b".toList plainConfig = .ok reference ∧
    ((∀ other,ArtifactRef.parse reference.display other = .ok reference) ↔ Portable "a..b".toList plainConfig) :=
  ⟨⟨"registry".toList,"models".toList,"a..b".toList,"latest".toList⟩,by decide,
    (reference_grammar (by decide)).2.2⟩

end HologramLive
