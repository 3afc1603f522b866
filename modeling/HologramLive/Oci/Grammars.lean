import HologramLive.Oci.Types
import HologramLive.Lib.Ascii
import HologramLive.Lib.Expressions
namespace HologramLive.Grammars
open Expressions RegularExpression List Digest

def lowers : List Char := fromTo 'a' 'z' ++ fromTo '0' '9'
def alnums : List Char := fromTo 'a' 'z' ++ fromTo 'A' 'Z' ++ fromTo '0' '9'
def hexes : List Char := fromTo '0' '9' ++ fromTo 'a' 'f'

-- `[a-z0-9]+((\.|_|__|-+)[a-z0-9]+)*`
def separators : RegularExpression Char := char '.' + char '_' + char '_' * char '_' + repeated (oneOf ['-'])
def runs : RegularExpression Char := repeated (oneOf lowers)
def component : RegularExpression Char := runs * (separators * runs).star
def repository : RegularExpression Char := component * (char '/' * component).star

-- `[a-zA-Z0-9_][a-zA-Z0-9._-]{0,127}`
def tag : RegularExpression Char := oneOf (alnums ++ ['_']) * upTo 127 (oneOf (alnums ++ ['.','_','-']))

def digest : RegularExpression Char :=
  word "sha256:".toList * oneOf hexes ^ 64 + word "sha512:".toList * oneOf hexes ^ 128 + word "blake3:".toList * oneOf hexes ^ 64

section Letters
variable {c : Char} {w run : Str}

theorem mem_lowers : c ∈ lowers ↔ lowerAlnum c = true := by
  unfold lowers lowerAlnum asciiLower Char.isDigit
  rw [mem_append,mem_fromTo (by decide),mem_fromTo (by decide)]
  simp only [Bool.or_eq_true,Bool.and_eq_true,decide_eq_true_eq]
  exact Iff.rfl

theorem mem_alnums : c ∈ alnums ↔ asciiAlnum c = true := by
  unfold alnums asciiAlnum Char.isDigit
  rw [mem_append,mem_append,mem_fromTo (by decide),mem_fromTo (by decide),mem_fromTo (by decide)]
  simp only [Bool.or_eq_true,Bool.and_eq_true,decide_eq_true_eq]
  constructor
  · rintro ((lower | upper) | digit)
    · exact .inl (.inr lower)
    · exact .inr upper
    · exact .inl (.inl digit)
  · rintro ((digit | lower) | upper)
    · exact .inr digit
    · exact .inl (.inl lower)
    · exact .inl (.inr upper)

theorem mem_hexes : c ∈ hexes ↔ lowercaseHex c = true := by
  unfold hexes lowercaseHex Char.isDigit
  rw [mem_append,mem_fromTo (by decide),mem_fromTo (by decide)]
  simp only [Bool.or_eq_true,Bool.and_eq_true,decide_eq_true_eq]
  exact Iff.rfl

theorem mem_runs : w ∈ runs.matches' ↔ w ≠ [] ∧ ∀ c ∈ w,lowerAlnum c = true := by
  unfold runs
  rw [mem_repeated_oneOf]
  simp only [mem_lowers]

theorem mem_separators : w ∈ separators.matches' ↔ w ≠ [] ∧ separatorLegal w = true := by
  unfold separators separatorLegal
  rw [mem_add,mem_add,mem_add,mem_char,mem_char,mem_mul,mem_repeated_oneOf]
  simp only [Bool.or_eq_true,decide_eq_true_eq,all_eq_true,mem_char,mem_singleton]
  constructor
  · rintro (((rfl | rfl) | ⟨a,b,rfl,rfl,rfl⟩) | ⟨full,each⟩)
    · exact ⟨by simp,.inl (.inl (.inl rfl))⟩
    · exact ⟨by simp,.inl (.inl (.inr rfl))⟩
    · exact ⟨by simp,.inl (.inr rfl)⟩
    · exact ⟨full,.inr each⟩
  · rintro ⟨full,((dot | one) | two) | dashes⟩
    · exact .inl (.inl (.inl dot))
    · exact .inl (.inl (.inr one))
    · exact .inl (.inr ⟨['_'],['_'],two,rfl,rfl⟩)
    · exact .inr ⟨full,dashes⟩

theorem separator_apart (member : w ∈ separators.matches') : ∀ c ∈ w,lowerAlnum c = false := by
  obtain ⟨_,legal⟩ := mem_separators.mp member
  unfold separatorLegal at legal
  simp only [Bool.or_eq_true,decide_eq_true_eq,all_eq_true] at legal
  rcases legal with ((rfl | rfl) | rfl) | dashes
  · decide
  · decide
  · decide
  · intro c among
    rw [dashes c among]
    decide

end Letters

def follows : RegularExpression Char := (separators * runs).star

section Scan
variable {w rest run : Str} {c : Char}

theorem mem_follows : w ∈ follows.matches' ↔ w = [] ∨ ∃ separator letters later,w = separator ++ (letters ++ later) ∧
    separator ∈ separators.matches' ∧ letters ∈ runs.matches' ∧ later ∈ follows.matches' := by
  unfold follows
  rw [mem_star]
  constructor
  · rintro (empty | ⟨front,later,rfl,_,both,more⟩)
    · exact .inl empty
    · obtain ⟨separator,letters,rfl,one,two⟩ := mem_mul.mp both
      exact .inr ⟨separator,letters,later,append_assoc ..,one,two,more⟩
  · rintro (empty | ⟨separator,letters,later,rfl,one,two,more⟩)
    · exact .inl empty
    · refine .inr ⟨separator ++ letters,later,(append_assoc ..).symm,?_,mem_mul.mpr ⟨_,_,rfl,one,two⟩,more⟩
      exact fun empty => (mem_separators.mp one).1 (append_eq_nil_iff.mp empty).1

-- Letters, and what follows a run: where the scan stands outside a separator.
def Outside (w : Str) : Prop := ∃ letters later,w = letters ++ later ∧ (∀ c ∈ letters,lowerAlnum c = true) ∧ later ∈ follows.matches'

theorem outside_letter (letter : lowerAlnum c = true) : Outside (c :: rest) ↔ Outside rest := by
  constructor
  · rintro ⟨letters,later,same,each,more⟩
    cases letters with
    | nil =>
      rw [nil_append] at same
      rcases mem_follows.mp (same ▸ more) with empty | ⟨separator,run,after,shape,one,_,_⟩
      · cases empty
      · cases separator with
        | nil => exact absurd rfl (mem_separators.mp one).1
        | cons first others =>
          cases shape
          have apart := separator_apart one c mem_cons_self
          rw [letter] at apart; cases apart
    | cons first others => cases same; exact ⟨others,later,rfl,(forall_mem_cons.mp each).2,more⟩
  · rintro ⟨letters,later,rfl,each,more⟩
    exact ⟨c :: letters,later,rfl,forall_mem_cons.mpr ⟨letter,each⟩,more⟩

theorem outside_separator (other : lowerAlnum c = false) : Outside (c :: rest) ↔ c :: rest ∈ follows.matches' := by
  constructor
  · rintro ⟨letters,later,same,each,more⟩
    cases letters with
    | nil => rw [same]; exact more
    | cons first others =>
      cases same
      rw [(forall_mem_cons.mp each).1] at other
      cases other
  · exact fun more => ⟨[],_,rfl,by simp,more⟩

theorem follows_run (others : ∀ c ∈ run,lowerAlnum c = false) (full : run ≠ []) (letter : lowerAlnum c = true) :
    run ++ c :: rest ∈ follows.matches' ↔ separatorLegal run = true ∧ Outside rest := by
  rw [mem_follows]
  constructor
  · rintro (empty | ⟨separator,letters,later,shape,one,two,more⟩)
    · simp at empty
    · obtain ⟨filled,each⟩ := mem_runs.mp two
      have same : run = separator := by
        have left : (run ++ c :: rest).takeWhile (fun c => !lowerAlnum c) = run := by
          rw [takeWhile_append_of_pos (by simpa using others),takeWhile_cons_of_neg (by simp [letter]),append_nil]
        have right : (separator ++ (letters ++ later)).takeWhile (fun c => !lowerAlnum c) = separator := by
          rw [takeWhile_append_of_pos (by simpa using separator_apart one)]
          cases letters with
          | nil => exact absurd rfl filled
          | cons first more =>
            rw [cons_append,takeWhile_cons_of_neg (by simp [(forall_mem_cons.mp each).1]),append_nil]
        rw [←left,shape,right]
      rw [same] at shape
      have after := append_cancel_left shape
      cases letters with
      | nil => exact absurd rfl filled
      | cons first more' =>
        cases after
        exact ⟨same ▸ (mem_separators.mp one).2,more',later,rfl,(forall_mem_cons.mp each).2,more⟩
  · rintro ⟨legal,letters,later,rfl,each,more⟩
    exact .inr ⟨run,c :: letters,later,rfl,mem_separators.mpr ⟨full,legal⟩,
      mem_runs.mpr ⟨by simp,forall_mem_cons.mpr ⟨letter,each⟩⟩,more⟩

def EndsWell (w : Str) : Prop := ∀ last,w.getLast? = some last → lowerAlnum last = true

theorem EndsWell.tail (ends : EndsWell (c :: rest)) : EndsWell rest := by
  intro last found
  cases rest with
  | nil => cases found
  | cons next later => exact ends last (by rw [getLast?_cons_cons]; exact found)

theorem separatorsLegal_iff : ∀ (w : Str),EndsWell w → (separatorsLegal w [] = true ↔ Outside w) ∧
    ∀ run : Str,run ≠ [] → (∀ c ∈ run,lowerAlnum c = false) → w ≠ [] →
      (separatorsLegal w run = true ↔ run ++ w ∈ follows.matches') := by
  intro w
  induction w with
  | nil =>
    refine fun _ => ⟨⟨fun _ => ⟨[],[],rfl,by simp,mem_follows.mpr (.inl rfl)⟩,fun _ => by decide⟩,fun _ _ _ full => absurd rfl full⟩
  | cons c rest ih =>
    intro ends
    obtain ⟨outside,inside⟩ := ih ends.tail
    by_cases letter : lowerAlnum c = true
    · have scan (run : Str) : separatorsLegal (c :: rest) run = (separatorLegal run && separatorsLegal rest []) := by
        conv => lhs; unfold separatorsLegal
        rw [if_pos letter]
      refine ⟨?_,fun run full others _ => ?_⟩
      · rw [scan,outside_letter letter,←outside]; simp [separatorLegal]
      · rw [scan,follows_run others full letter,Bool.and_eq_true,outside]
    · have other : lowerAlnum c = false := by simpa using letter
      have scan (run : Str) : separatorsLegal (c :: rest) run = separatorsLegal rest (run ++ [c]) := by
        conv => lhs; unfold separatorsLegal
        rw [if_neg letter]
      have more : rest ≠ [] := by
        rintro rfl
        exact letter (ends c rfl)
      refine ⟨?_,fun run full others _ => ?_⟩
      · rw [scan,outside_separator other]; exact inside [c] (by simp) (by simpa using other) more
      · rw [scan,show run ++ c :: rest = (run ++ [c]) ++ rest by simp]
        refine inside (run ++ [c]) (by simp) (fun d member => ?_) more
        rcases mem_append.mp member with old | new
        · exact others d old
        · rw [mem_singleton.mp new]; exact other

theorem mem_component : w ∈ component.matches' ↔ ∃ c rest,w = c :: rest ∧ lowerAlnum c = true ∧ Outside rest := by
  unfold component
  rw [mem_mul]
  constructor
  · rintro ⟨letters,later,rfl,one,more⟩
    obtain ⟨full,each⟩ := mem_runs.mp one
    cases letters with
    | nil => exact absurd rfl full
    | cons c others =>
      obtain ⟨letter,rest⟩ := forall_mem_cons.mp each
      exact ⟨c,others ++ later,rfl,letter,others,later,rfl,rest,more⟩
  · rintro ⟨c,_,rfl,letter,letters,later,rfl,each,more⟩
    exact ⟨c :: letters,later,rfl,mem_runs.mpr ⟨by simp,forall_mem_cons.mpr ⟨letter,each⟩⟩,more⟩

def nameLetter (c : Char) : Bool := lowerAlnum c || c = '.' || c = '_' || c = '-'

theorem separator_letters (member : w ∈ separators.matches') : ∀ c ∈ w,nameLetter c = true := by
  obtain ⟨_,legal⟩ := mem_separators.mp member
  unfold separatorLegal at legal
  simp only [Bool.or_eq_true,decide_eq_true_eq,all_eq_true] at legal
  rcases legal with ((rfl | rfl) | rfl) | dashes
  · decide
  · decide
  · decide
  · intro c among
    rw [dashes c among]
    decide

theorem letter_name (letter : lowerAlnum c = true) : nameLetter c = true := by
  unfold nameLetter
  rw [letter]
  rfl

theorem follows_ends : ∀ n (w : Str),w.length ≤ n → w ∈ follows.matches' → EndsWell w ∧ ∀ c ∈ w,nameLetter c = true := by
  intro n
  induction n with
  | zero =>
    intro w short _
    rw [length_eq_zero_iff.mp (Nat.le_zero.mp short)]
    exact ⟨fun last found => (by cases found),by simp⟩
  | succ n ih =>
    intro w short member
    rcases mem_follows.mp member with rfl | ⟨separator,letters,later,rfl,one,two,more⟩
    · exact ⟨fun last found => (by cases found),by simp⟩
    · obtain ⟨full,each⟩ := mem_runs.mp two
      have filled := length_pos_iff.mpr (mem_separators.mp one).1
      simp only [length_append] at short
      obtain ⟨ends,spelled⟩ := ih later (by omega) more
      refine ⟨fun last found => ?_,fun c among => ?_⟩
      · cases later with
        | nil =>
          rw [append_nil,getLast?_append_of_ne_nil _ full] at found
          exact each last (mem_of_getLast? found)
        | cons first others =>
          rw [←append_assoc,getLast?_append_of_ne_nil _ (by simp)] at found
          exact ends last found
      · rcases mem_append.mp among with front | back
        · exact separator_letters one c front
        · rcases mem_append.mp back with middle | last
          · exact letter_name (each c middle)
          · exact spelled c last

theorem component_ends (member : w ∈ component.matches') : EndsWell w ∧ ∀ c ∈ w,nameLetter c = true := by
  obtain ⟨letters,later,rfl,one,more⟩ := mem_mul.mp member
  obtain ⟨full,each⟩ := mem_runs.mp one
  obtain ⟨ends,spelled⟩ := follows_ends _ later (Nat.le_refl _) more
  refine ⟨fun last found => ?_,fun c among => ?_⟩
  · cases later with
    | nil => rw [append_nil] at found; exact each last (mem_of_getLast? found)
    | cons first others =>
      rw [getLast?_append_of_ne_nil _ (by simp)] at found
      exact ends last found
  · rcases mem_append.mp among with front | back
    · exact letter_name (each c front)
    · exact spelled c back

-- The scan is the expression of a component.
theorem componentIsValid_iff : componentIsValid w = true ↔ w ∈ component.matches' := by
  cases w with
  | nil =>
    refine ⟨fun valid => (by cases valid),fun member => ?_⟩
    obtain ⟨_,_,empty,_⟩ := mem_component.mp member
    cases empty
  | cons c rest =>
    unfold componentIsValid
    rw [List.head?_cons,getLast?_cons]
    simp only [Bool.and_eq_true]
    have last : (c :: rest).getLast? = some (rest.getLast?.getD c) := getLast?_cons
    constructor
    · rintro ⟨⟨first,ending⟩,legal⟩
      have ends : EndsWell (c :: rest) := by
        intro other found; cases last.symm.trans found
        exact ending
      exact mem_component.mpr ⟨c,rest,rfl,first,(outside_letter first).mp ((separatorsLegal_iff _ ends).1.mp legal)⟩
    · intro member
      obtain ⟨ends,_⟩ := component_ends member
      obtain ⟨_,_,same,first,more⟩ := mem_component.mp member
      cases same
      exact ⟨⟨first,ends _ last⟩,(separatorsLegal_iff _ ends).1.mpr ((outside_letter first).mpr more)⟩

theorem nameLetter_small (named : nameLetter c = true) : c.toNat < 128 ∧ c ≠ '/' := by
  unfold nameLetter lowerAlnum asciiLower Char.isDigit at named
  simp only [Bool.or_eq_true,Bool.and_eq_true,decide_eq_true_eq] at named
  have order (a b : Char) : a ≤ b → a.toNat ≤ b.toNat := UInt32.le_iff_toNat_le.mp
  rcases named with (((⟨_,low⟩ | ⟨_,low⟩) | rfl) | rfl) | rfl
  · have bound := order c 'z' low
    refine ⟨Nat.lt_of_le_of_lt bound (by decide),?_⟩
    rintro rfl
    rename_i above
    exact absurd above (by decide)
  · have bound := order c '9' low
    refine ⟨Nat.lt_of_le_of_lt bound (by decide),?_⟩
    rintro rfl
    rename_i above
    exact absurd above (by decide)
  all_goals decide

theorem component_apart (member : w ∈ component.matches') : '/' ∉ w := fun slash =>
  (nameLetter_small ((component_ends member).2 _ slash)).2 rfl

theorem utf8Len_small (small : ∀ c ∈ text,c.toNat < 128) : utf8Len text = text.length := by
  rw [←length_toUtf8,toUtf8,flatMap_congr (g := fun c => [UInt8.ofNat c.toNat]) fun c member => Ascii.spelled (small c member)]
  simp

theorem utf8Len_named (each : ∀ v ∈ w.splitOn '/',v ∈ component.matches') : utf8Len w = w.length := by
  refine utf8Len_small fun c member => ?_
  by_cases slash : c = '/'
  · rw [slash]
    decide
  · obtain ⟨part,among,inside⟩ := mem_splitOn member slash
    exact (nameLetter_small ((component_ends (each part among)).2 c inside)).1

-- A repository name is one expression, within its length.
theorem repoNameLegal_iff : repoNameLegal w = true ↔ w ∈ repository.matches' ∧ w.length ≤ 255 := by
  unfold repoNameLegal repository
  rw [mem_separated fun v => component_apart]
  have splits : ((w.splitOn '/').all componentIsValid = true) ↔ ∀ v ∈ w.splitOn '/',v ∈ component.matches' := by
    rw [all_eq_true]
    exact forall₂_congr fun v _ => componentIsValid_iff
  rw [Bool.and_eq_true,Bool.and_eq_true,splits,decide_eq_true_eq]
  constructor
  · rintro ⟨⟨_,short⟩,each⟩
    exact ⟨each,utf8Len_named each ▸ short⟩
  · rintro ⟨each,short⟩
    refine ⟨⟨?_,?_⟩,each⟩
    · cases w with
      | nil =>
        obtain ⟨_,_,empty,_⟩ := mem_component.mp (each [] (by simp))
        cases empty
      | cons c rest => rfl
    · rw [utf8Len_named each]
      exact short

theorem asciiAlnum_small (alnum : asciiAlnum c = true) : c.toNat < 128 := by
  unfold asciiAlnum Char.isDigit at alnum
  simp only [Bool.or_eq_true,Bool.and_eq_true,decide_eq_true_eq] at alnum
  have order (a b : Char) : a ≤ b → a.toNat ≤ b.toNat := UInt32.le_iff_toNat_le.mp
  rcases alnum with (⟨_,low⟩ | ⟨_,low⟩) | ⟨_,low⟩
  · exact Nat.lt_of_le_of_lt (order c '9' low) (by decide)
  · exact Nat.lt_of_le_of_lt (order c 'z' low) (by decide)
  · exact Nat.lt_of_le_of_lt (order c 'Z' low) (by decide)

theorem tagLegal_iff : tagLegal w = true ↔ w ∈ tag.matches' := by
  unfold tag
  rw [mem_mul]
  have later (c : Char) : c ∈ alnums ++ ['.','_','-'] ↔ (asciiAlnum c || c = '.' || c = '_' || c = '-') = true := by
    rw [mem_append,mem_alnums]
    simp only [mem_cons,not_mem_nil,or_false,Bool.or_eq_true,decide_eq_true_eq,or_assoc]
  have small (c : Char) (legal : (asciiAlnum c || c = '.' || c = '_' || c = '-') = true) : c.toNat < 128 := by
    simp only [Bool.or_eq_true,decide_eq_true_eq] at legal
    rcases legal with ((alnum | rfl) | rfl) | rfl
    · exact asciiAlnum_small alnum
    all_goals decide
  cases w with
  | nil =>
    refine ⟨fun legal => (by cases legal),?_⟩
    rintro ⟨a,b,same,one,_⟩
    obtain ⟨c,_,rfl⟩ := mem_oneOf.mp one
    cases same
  | cons c rest =>
    unfold tagLegal
    rw [List.head?_cons]
    simp only [Bool.and_eq_true,decide_eq_true_eq,all_eq_true]
    rw [Bool.or_eq_true,decide_eq_true_eq]
    constructor
    · rintro ⟨⟨short,head⟩,each⟩
      rw [utf8Len_small fun d member => small d (each d member)] at short
      refine ⟨[c],rest,rfl,mem_oneOf.mpr ⟨c,?_,rfl⟩,mem_upTo_oneOf.mpr ⟨Nat.le_of_succ_le_succ short,fun d member => ?_⟩⟩
      · rw [mem_append,mem_alnums,mem_singleton]; exact head
      · exact (later d).mpr (each d (mem_cons_of_mem _ member))
    · rintro ⟨a,b,same,one,more⟩
      obtain ⟨d,listed,rfl⟩ := mem_oneOf.mp one
      obtain ⟨length,others⟩ := mem_upTo_oneOf.mp more
      obtain ⟨rfl,rfl⟩ : c = d ∧ rest = b := List.cons.inj same
      rw [mem_append,mem_alnums,mem_singleton] at listed
      have each : ∀ d ∈ c :: rest,(asciiAlnum d || d = '.' || d = '_' || d = '-') = true := by
        refine forall_mem_cons.mpr ⟨?_,fun d member => (later d).mp (others d member)⟩
        rcases listed with alnum | rfl
        · rw [alnum]; rfl
        · decide
      refine ⟨⟨?_,listed⟩,each⟩
      rw [utf8Len_small fun d member => small d (each d member)]
      exact Nat.succ_le_succ length

theorem digest_parts : w ∈ digest.matches' ↔ ∃ (algorithm : Algorithm) (hex : Str),w = algorithm.name ++ ':' :: hex ∧
    hex.length = algorithm.hexLen ∧ ∀ c ∈ hex,lowercaseHex c = true := by
  unfold digest
  rw [mem_add,mem_add,mem_mul,mem_mul,mem_mul]
  simp only [mem_word,mem_pow_oneOf,mem_hexes]
  constructor
  · rintro ((⟨_,hex,rfl,rfl,length,each⟩ | ⟨_,hex,rfl,rfl,length,each⟩) | ⟨_,hex,rfl,rfl,length,each⟩)
    · exact ⟨.sha256,hex,rfl,length,each⟩
    · exact ⟨.sha512,hex,rfl,length,each⟩
    · exact ⟨.blake3,hex,rfl,length,each⟩
  · rintro ⟨algorithm,hex,rfl,length,each⟩
    cases algorithm with
    | sha256 => exact .inl (.inl ⟨"sha256:".toList,hex,rfl,rfl,length,each⟩)
    | sha512 => exact .inl (.inr ⟨"sha512:".toList,hex,rfl,rfl,length,each⟩)
    | blake3 => exact .inr ⟨"blake3:".toList,hex,rfl,rfl,length,each⟩

theorem digestParse_iff : (∃ d,parse w = .ok d) ↔ w ∈ digest.matches' := by
  rw [digest_parts]
  constructor
  · rintro ⟨d,parsed⟩
    have valid := d.valid
    simp only [Bool.and_eq_true,beq_iff_eq,all_eq_true] at valid
    exact ⟨d.algorithm,d.hex,(asStr_of_parse parsed).symm,valid.1,valid.2⟩
  · rintro ⟨algorithm,hex,rfl,length,each⟩
    have valid : (hex.length == algorithm.hexLen && hex.all lowercaseHex) = true := by
      rw [Bool.and_eq_true,beq_iff_eq,all_eq_true]
      exact ⟨length,each⟩
    exact ⟨⟨algorithm,hex,valid⟩,parse_asStr ⟨algorithm,hex,valid⟩⟩

theorem repoParse_iff : RepoName.parse w = .ok r ↔ repoNameLegal w = true ∧ r.text = w := by
  unfold RepoName.parse
  split
  · rename_i legal
    constructor
    · intro parsed
      cases parsed
      exact ⟨legal,rfl⟩
    · rintro ⟨_,rfl⟩
      rfl
  · rename_i illegal
    exact ⟨fun parsed => (by cases parsed),fun both => absurd both.1 illegal⟩

theorem tagParse_iff : Tag.parse w = .ok t ↔ tagLegal w = true ∧ t.text = w := by
  unfold Tag.parse
  split
  · rename_i legal
    constructor
    · intro parsed
      cases parsed
      exact ⟨legal,rfl⟩
    · rintro ⟨_,rfl⟩
      rfl
  · rename_i illegal
    exact ⟨fun parsed => (by cases parsed),fun both => absurd both.1 illegal⟩

-- The three constructors accept exactly their expressions, and keep what they are given.
theorem grammars_exact (value : Str) :
    ((∃ r,RepoName.parse value = .ok r) ↔ value ∈ repository.matches' ∧ value.length ≤ 255) ∧
    ((∃ t,Tag.parse value = .ok t) ↔ value ∈ tag.matches') ∧ ((∃ d,parse value = .ok d) ↔ value ∈ digest.matches') ∧
    (∀ r,RepoName.parse value = .ok r → r.text = value) ∧ (∀ t,Tag.parse value = .ok t → t.text = value) ∧
    ∀ d,parse value = .ok d → d.asStr = value := by
  refine ⟨?_,?_,digestParse_iff,fun r parsed => (repoParse_iff.mp parsed).2,fun t parsed => (tagParse_iff.mp parsed).2,
    fun d => asStr_of_parse⟩
  · rw [←repoNameLegal_iff]
    exact ⟨fun ⟨r,parsed⟩ => (repoParse_iff.mp parsed).1,fun legal => ⟨⟨value,legal⟩,repoParse_iff.mpr ⟨legal,rfl⟩⟩⟩
  · rw [←tagLegal_iff]
    exact ⟨fun ⟨t,parsed⟩ => (tagParse_iff.mp parsed).1,fun legal => ⟨⟨value,legal⟩,tagParse_iff.mpr ⟨legal,rfl⟩⟩⟩

end Scan
end HologramLive.Grammars
