import HologramLive.Artifact.ReferenceGrammar
import HologramLive.Registry.Listing
import HologramLive.Lib.Expressions
namespace HologramLive.Listing
open Tables Pages Std List

def nameChar (c : Char) : Bool := asciiAlnum c || c = '.' || c = '_' || c = '-' || c = '/'

variable {c : Char}

theorem lowerAlnum_nameChar (lower : lowerAlnum c = true) : nameChar c = true := by
  unfold lowerAlnum asciiLower at lower
  unfold nameChar asciiAlnum
  grind

theorem separatorLegal_nameChar (legal : separatorLegal run = true) : ∀ c ∈ run,nameChar c = true := by
  have dot : nameChar '.' = true ∧ nameChar '_' = true ∧ nameChar '-' = true := by decide
  simp only [separatorLegal,Bool.or_eq_true,decide_eq_true_eq,all_eq_true] at legal
  obtain ((rfl | rfl) | rfl) | hyphens := legal
  · simpa using dot.1
  · simpa using dot.2.1
  · simpa using dot.2.1
  · intro c member
    rw [hyphens c member]
    exact dot.2.2

theorem separatorsLegal_nameChar (legal : separatorsLegal rest run = true) : ∀ c ∈ run ++ rest,nameChar c = true := by
  induction rest generalizing run with
  | nil => rw [append_nil]; exact separatorLegal_nameChar legal
  | cons c rest ih =>
    unfold separatorsLegal at legal
    split at legal
    · rename_i lower
      obtain ⟨first,later⟩ := Bool.and_eq_true_iff.mp legal
      intro other member
      rcases mem_append.mp member with inRun | inRest
      · exact separatorLegal_nameChar first other inRun
      · rcases mem_cons.mp inRest with rfl | deeper
        · exact lowerAlnum_nameChar lower
        · exact ih later other (by simpa using deeper)
    · intro other member
      exact ih legal other (by simpa using member)

theorem repo_nameChar (repo : RepoName) : ∀ c ∈ repo.text,nameChar c = true := by
  intro c member
  have legal := repo.valid
  simp only [repoNameLegal,Bool.and_eq_true,all_eq_true] at legal
  by_cases slash : c = '/'
  · subst slash; rfl
  · obtain ⟨part,among,inside⟩ := Expressions.mem_splitOn member slash
    have valid := legal.2 part among
    unfold componentIsValid at valid
    split at valid
    · exact separatorsLegal_nameChar (Bool.and_eq_true_iff.mp valid).2 c (by simpa using inside)
    · cases valid

theorem tag_nameChar (tag : Tag) : ∀ c ∈ tag.text,nameChar c = true := by
  intro c member
  have legal := tag.valid
  unfold tagLegal at legal
  split at legal
  · cases legal
  · have each := all_eq_true.mp (Bool.and_eq_true_iff.mp legal).2 c member
    unfold nameChar
    grind

theorem decimal_digits (n : Nat) : ∀ c ∈ decimal n,c.isDigit = true :=
  fun _ member => Nat.isDigit_of_mem_toDigits (by decide) (by decide) member

theorem digit_nameChar (digit : c.isDigit = true) : nameChar c = true := by
  unfold nameChar asciiAlnum
  rw [digit]
  rfl

theorem parseUnsigned_decimal (fits : n < size) : parseUnsigned size (decimal n) = some n := by
  have given : ¬(decimal n = [] ∨ ¬(decimal n).all Char.isDigit) := by
    rintro (none | bad)
    · exact Nat.toDigits_ne_nil none
    · exact bad (all_eq_true.mpr (decimal_digits n))
  have read : Nat.ofDigitChars 10 (decimal n) 0 = n := Nat.ofDigitChars_ten_toDigits
  have unsigned : dropPlus (decimal n) = decimal n := by
    unfold dropPlus
    split
    · rename_i shape
      have digit := decimal_digits n '+' (by rw [shape]; exact mem_cons_self)
      cases digit
    · rfl
  unfold parseUnsigned
  rw [unsigned]
  dsimp only
  rw [if_neg given,read,if_pos fits]

theorem percentDecode_plain (plain : ∀ c ∈ raw,nameChar c = true) : percentDecode raw slash = some raw := by
  unfold percentDecode
  rw [if_neg]
  intro member
  have := plain '%' member
  cases this

theorem absent_name {text : Str} (plain : ∀ c ∈ text,nameChar c = true) (other : nameChar c = false) :
    c ∉ text := fun member => by rw [plain c member] at other; cases other

theorem decimal_nameChar (n : Nat) : ∀ c ∈ decimal n,nameChar c = true :=
  fun c member => digit_nameChar (decimal_digits n c member)

theorem queryPair_eq {name value : Str} (plain : ∀ c ∈ name,nameChar c = true) :
    queryPair (name ++ '=' :: value) = (name,value) := by
  unfold queryPair
  rw [splitOnce_append (absent_name plain rfl)]
  rfl

def firstQuery (n : Nat) : Str := "n".toList ++ '=' :: decimal n
def nextQuery (last : Str) (n : Nat) : Str := ("last".toList ++ '=' :: last) ++ '&' :: firstQuery n

theorem firstQuery_parts (n : Nat) : (firstQuery n).splitOn '&' = [firstQuery n] := by
  apply splitOn_eq_singleton
  intro member
  rcases mem_append.mp member with inName | inValue
  · exact absurd inName (by decide)
  · rcases mem_cons.mp inValue with same | digits
    · exact absurd same (by decide)
    · exact absent_name (decimal_nameChar n) rfl digits

variable {last : Str}

theorem nextQuery_parts (plain : ∀ c ∈ last,nameChar c = true) (n : Nat) :
    (nextQuery last n).splitOn '&' = ["last".toList ++ '=' :: last,firstQuery n] := by
  have apart : '&' ∉ "last".toList ++ '=' :: last := by
    intro member
    rcases mem_append.mp member with inName | inValue
    · exact absurd inName (by decide)
    · rcases mem_cons.mp inValue with same | inLast
      · exact absurd same (by decide)
      · exact absent_name plain rfl inLast
  unfold nextQuery
  rw [splitOn_append_cons_self,splitOn_eq_singleton apart,firstQuery_parts]
  rfl

theorem page_first (fits : n < USize.size) : page (some (firstQuery n)) = .ok ⟨some n,none⟩ := by
  have sized : queryParam (some (firstQuery n)) "n".toList = some (decimal n) := by
    simp only [queryParam,Option.bind_some,firstQuery_parts,findSome?_cons]
    rw [firstQuery,queryPair_eq (by decide),if_pos rfl,percentDecode_plain (decimal_nameChar n)]
  have unnamed : queryParam (some (firstQuery n)) "last".toList = none := by
    simp only [queryParam,Option.bind_some,firstQuery_parts,findSome?_cons]
    rw [firstQuery,queryPair_eq (by decide),if_neg (show "n".toList ≠ "last".toList by decide)]
    rfl
  unfold page
  rw [sized,unnamed]
  dsimp only
  rw [parseUnsigned_decimal fits]
  rfl

theorem page_next (plain : ∀ c ∈ last,nameChar c = true) (given : last ≠ []) (fits : n < USize.size) :
    page (some (nextQuery last n)) = .ok ⟨some n,some last⟩ := by
  have sized : queryParam (some (nextQuery last n)) "n".toList = some (decimal n) := by
    simp only [queryParam,Option.bind_some,nextQuery_parts plain,findSome?_cons]
    rw [queryPair_eq (by decide),if_neg (show "last".toList ≠ "n".toList by decide),firstQuery,queryPair_eq (by decide),if_pos rfl,
      percentDecode_plain (decimal_nameChar n)]
  have named : queryParam (some (nextQuery last n)) "last".toList = some last := by
    simp only [queryParam,Option.bind_some,nextQuery_parts plain,findSome?_cons]
    rw [queryPair_eq (by decide),if_pos rfl,percentDecode_plain plain]
  have kept : (some last).filter (fun last => !last.isEmpty) = some last := by
    rw [Option.filter_some,if_pos (by simpa using given)]
  unfold page
  rw [sized,named]
  dsimp only
  rw [parseUnsigned_decimal fits,kept]
  rfl

theorem nameChar_visible (plain : nameChar c = true) : ' ' ≤ c ∧ c ≤ '~' := by
  unfold nameChar asciiAlnum Char.isDigit at plain
  simp only [Bool.or_eq_true,Bool.and_eq_true,decide_eq_true_eq] at plain
  simp only [Char.le_def,UInt32.le_iff_toNat_le] at plain ⊢
  have space : (' ' : Char).val.toNat = 32 ∧ '~'.val.toNat = 126 := by decide
  rcases plain with ((((((digit | lower) | upper) | rfl) | rfl) | rfl) | rfl)
  · have bounds : '0'.val.toNat = 48 ∧ '9'.val.toNat = 57 := by decide
    omega
  · have bounds : 'a'.val.toNat = 97 ∧ 'z'.val.toNat = 122 := by decide
    omega
  · have bounds : 'A'.val.toNat = 65 ∧ 'Z'.val.toNat = 90 := by decide
    omega
  all_goals decide

theorem headerValue_visible (visible : ∀ c ∈ text,' ' ≤ c ∧ c ≤ '~') : headerValue text = some text := by
  unfold headerValue
  rw [if_pos]
  apply all_eq_true.mpr
  intro c member
  obtain ⟨low,high⟩ := visible c member
  simp [low,high]

theorem linkNext_parts (path last : Str) (n : Nat) :
    linkNext path last n = [] ++ '<' :: ((path ++ '?' :: nextQuery last n) ++ '>' :: "; rel=\"next\"".toList) := by
  simp [linkNext,nextQuery,firstQuery]

theorem linkNext_visible (n : Nat) (plainPath : ∀ c ∈ path,nameChar c = true)
    (plain : ∀ c ∈ last,nameChar c = true) : headerValue (linkNext path last n) = some (linkNext path last n) := by
  have words : (∀ c ∈ "<".toList,' ' ≤ c ∧ c ≤ '~') ∧ (∀ c ∈ "?last=".toList,' ' ≤ c ∧ c ≤ '~') ∧
      (∀ c ∈ "&n=".toList,' ' ≤ c ∧ c ≤ '~') ∧ ∀ c ∈ ">; rel=\"next\"".toList,' ' ≤ c ∧ c ≤ '~' := by decide
  obtain ⟨opening,cursor,size,closing⟩ := words
  apply headerValue_visible
  unfold linkNext
  intro c member
  simp only [mem_append] at member
  rcases member with (((((here | here) | here) | here) | here) | here) | here
  · exact opening c here
  · exact nameChar_visible (plainPath c here)
  · exact cursor c here
  · exact nameChar_visible (plain c here)
  · exact size c here
  · exact nameChar_visible (decimal_nameChar n c here)
  · exact closing c here

theorem nextQuery_absent (plain : ∀ c ∈ last,nameChar c = true) (n : Nat) (other : nameChar c = false)
    (free : c ≠ '=' ∧ c ≠ '&') : c ∉ nextQuery last n := by
  have words : (∀ c ∈ "last".toList,nameChar c = true) ∧ ∀ c ∈ "n".toList,nameChar c = true := by decide
  intro member
  simp only [nextQuery,firstQuery,mem_append,mem_cons] at member
  rcases member with (here | here | here) | here | here | here | here
  · exact absent_name words.1 other here
  · exact free.1 here
  · exact absent_name plain other here
  · exact free.2 here
  · exact absent_name words.2 other here
  · exact free.1 here
  · exact absent_name (decimal_nameChar n) other here

theorem linkNext_target {path last : Str} (n : Nat) (plainPath : ∀ c ∈ path,nameChar c = true)
    (plain : ∀ c ∈ last,nameChar c = true) :
    (headerValue (linkNext path last n)).bind linkTarget = some (path ++ '?' :: nextQuery last n) := by
  have closed : '>' ∉ path ++ '?' :: nextQuery last n := by
    intro member
    rcases mem_append.mp member with inPath | inQuery
    · exact absent_name plainPath rfl inPath
    · rcases mem_cons.mp inQuery with same | later
      · exact absurd same (by decide)
      · exact nextQuery_absent plain n rfl (by decide) later
  rw [linkNext_visible n plainPath plain,Option.bind_some,linkTarget,linkNext_parts,splitOnce_append (not_mem_nil),
    Option.bind_some,splitOnce_append closed]
  rfl

theorem get_split {s : OciStore} {rest query : Str} (plain : ∀ c ∈ rest,nameChar c = true) :
    get s (("/v2/".toList ++ rest) ++ '?' :: query) = match parse .get rest with
      | .error e => (.error e,s)
      | .ok (.tagsList repo) => tags s repo (some query)
      | .ok .catalog => (catalog s.toContent (some query),s)
      | .ok _ => (.error .unknownRoute,s) := by
  have word : ∀ c ∈ "/v2/".toList,nameChar c = true := by decide
  have apart : '?' ∉ "/v2/".toList ++ rest := by
    intro member
    rcases mem_append.mp member with here | here
    · exact absent_name word rfl here
    · exact absent_name plain rfl here
  have stripped : stripPrefix "/v2/".toList ("/v2/".toList ++ rest) = some rest := by
    unfold stripPrefix
    rw [if_pos (prefix_append _ _),drop_left]
  unfold get
  rw [splitOnce_append apart]
  cases routed : parse .get rest with
  | error e => simp only [stripped,Option.getD_some,decode,percentDecode_plain plain,routed]
  | ok route => cases route <;> simp only [stripped,Option.getD_some,decode,percentDecode_plain plain,routed]

theorem repoOf_text (repo : RepoName) : repoOf repo.text = .ok repo := by
  unfold repoOf RepoName.parse
  rw [dif_pos repo.valid]

theorem get_tags (s : OciStore) (repo : RepoName) (query : Str) :
    get s (tagsPath repo ++ '?' :: query) = tags s repo (some query) := by
  have word : ∀ c ∈ tagsListWord,nameChar c = true := by decide
  have plain : ∀ c ∈ repo.text ++ tagsListWord,nameChar c = true := by
    intro c member
    rcases mem_append.mp member with here | here
    · exact repo_nameChar repo c here
    · exact word c here
  have routed : parse .get (repo.text ++ tagsListWord) = .ok (.tagsList repo) := by
    have given : repo.text ++ tagsListWord ≠ [] := append_ne_nil_of_right_ne_nil _ (show tagsListWord ≠ [] by decide)
    have other : repo.text ++ tagsListWord ≠ "_catalog".toList := by
      intro same
      have slash : '/' ∈ "_catalog".toList := same ▸ mem_append_right _ (show '/' ∈ tagsListWord by decide)
      exact absurd slash (show '/' ∉ "_catalog".toList by decide)
    have named : stripSuffix tagsListWord (repo.text ++ tagsListWord) = some repo.text := by
      unfold stripSuffix
      rw [if_pos (suffix_append _ _),length_append,Nat.add_sub_cancel,take_left]
    unfold parse
    rw [if_neg given,if_neg other,named]
    dsimp only
    unfold parseTagsList
    rw [repoOf_text]
    rfl
  have shape : tagsPath repo = "/v2/".toList ++ (repo.text ++ tagsListWord) := append_assoc _ _ _
  rw [shape,get_split plain,routed]

theorem get_catalog (s : OciStore) (query : Str) :
    get s (catalogPath ++ '?' :: query) = (catalog s.toContent (some query),s) := by
  have routed : parse .get "_catalog".toList = .ok .catalog := by
    unfold parse
    rw [if_neg (show "_catalog".toList ≠ [] by decide),if_pos rfl]
    rfl
  have shape : catalogPath = "/v2/".toList ++ "_catalog".toList := by decide
  rw [shape,get_split (by decide),routed]

end HologramLive.Listing
