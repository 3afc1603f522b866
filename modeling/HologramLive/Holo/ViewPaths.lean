import HologramLive.Holo.ViewRoundTrip
import HologramLive.Artifact.ReferenceGrammar
namespace HologramLive
namespace View
open Tables Fallible List

def validateAssetPath (path : Str) : Bool :=
  !(path = [] || path.head? = some '/' || path.getLast? = some '/' || path.contains '%' || path.contains '\\' ||
    (path.splitOn '/').any fun part => part = [] || part = ['.'] || part = ['.','.']) &&
  path.all fun c => asciiAlnum c || c = '.' || c = '_' || c = '-' || c = '/'

inductive StageError where
  | path (path : Str)
  | duplicate (path : Str)
  | entry (entry : Str)
deriving DecidableEq

def stageAsset (assets : Table Str Bytes) (file : ViewFile) : Except StageError (Table Str Bytes) :=
  if ¬validateAssetPath file.path then .error (.path file.path)
  else if assets.contains file.path then .error (.duplicate file.path)
  else .ok (assets.insert file.path file.bytes)

-- The surface's staging of an attachment, as far as its assets go.
def stage (bundle : ViewBundle) : Except StageError (Table Str Bytes) := do
  let assets ← bundle.files.foldlM stageAsset ∅
  if ¬assets.contains bundle.entry then .error (.entry bundle.entry) else .ok assets

-- A component that every platform takes as a file name.
structure PortablePart (part : Str) : Prop where
  some_ : part ≠ []
  current : part ≠ ['.']
  parent : part ≠ ['.','.']
  ends : part.getLast? ≠ some '.'
  letters : ∀ c ∈ part,asciiAlnum c = true ∨ c = '-' ∨ c = '_' ∨ c = '.'
  device : reservedStem ((part.takeWhile (· ≠ '.')).map Char.toUpper) = false

def denoted (path : Str) : List Component :=
  (components path).map fun component => match component with
    | .normal part => .normal (part.map Char.toLower)
    | other => other

structure CanonicalPaths (bundle : ViewBundle) : Prop where
  portable : ∀ file ∈ bundle.files,∃ parts : List Str,parts ≠ [] ∧ (∀ part ∈ parts,PortablePart part) ∧
    file.path = ['/'].intercalate parts
  ordered : bundle.files.Pairwise fun a b => a.path < b.path
  apart : bundle.files.Pairwise fun a b => denoted a.path ≠ denoted b.path
  validated : ∀ file ∈ bundle.files,validateAssetPath file.path = true
  staged : ∃ assets,stage bundle = .ok assets

-- Behind a separator stands neither another one, nor the end, nor a lone dot.
def Separated (path : Str) : Prop := ∀ part ∈ (path.splitOn '/').tail,part ≠ [] ∧ part ≠ ['.']

instance (path : Str) : Decidable (Separated path) := inferInstanceAs (Decidable (∀ part ∈ _,_ ∧ _))

theorem validateComponent_iff (part : Str) : validateComponent part = true ↔ PortablePart part := by
  unfold validateComponent
  simp only [Bool.and_eq_true,decide_eq_true_eq,Bool.not_eq_true',all_eq_true,Bool.or_eq_true]
  constructor
  · rintro ⟨⟨some_,current,parent,ends,letters⟩,device⟩
    refine ⟨some_,current,parent,ends,fun c member => ?_,device⟩
    rcases letters c member with ((alnum | dash) | line) | dot
    · exact .inl alnum
    · exact .inr (.inl dash)
    · exact .inr (.inr (.inl line))
    · exact .inr (.inr (.inr dot))
  · intro ⟨some_,current,parent,ends,letters,device⟩
    refine ⟨⟨some_,current,parent,ends,fun c member => ?_⟩,device⟩
    rcases letters c member with alnum | dash | line | dot
    · exact .inl (.inl (.inl alnum))
    · exact .inl (.inl (.inr dash))
    · exact .inl (.inr line)
    · exact .inr dot

theorem normal_parts {list : List Component}
    (mapped : list.mapM (fun component => match component with
      | .normal part => if validateComponent part then some part else none
      | _ => none) = some parts) :
    list = parts.map .normal ∧ ∀ part ∈ parts,validateComponent part = true := by
  induction list generalizing parts with
  | nil => cases mapped; exact ⟨rfl,by simp⟩
  | cons component rest ih =>
    rw [mapM_cons] at mapped
    obtain ⟨part,first,mapped⟩ := Option.bind_eq_some_iff.mp mapped
    obtain ⟨others,later,last⟩ := Option.bind_eq_some_iff.mp mapped
    cases last
    obtain ⟨spelled,valid⟩ := ih later
    cases component with
    | normal found =>
      simp only at first
      split at first
      · rename_i fits; cases first
        exact ⟨by rw [spelled]; rfl,forall_mem_cons.mpr ⟨fits,valid⟩⟩
      · cases first
    | _ => cases first

section Paths
variable {path : Str}

theorem portable_components (portable : portablePath path ≠ none) :
    ∃ parts : List Str,components path = parts.map .normal ∧ parts ≠ [] ∧ ∀ part ∈ parts,PortablePart part := by
  unfold portablePath at portable
  obtain ⟨logical,is⟩ := Option.ne_none_iff_exists'.mp portable
  obtain ⟨parts,mapped,last⟩ := Option.bind_eq_some_iff.mp is
  obtain ⟨spelled,valid⟩ := normal_parts mapped
  refine ⟨parts,spelled,?_,fun part member => (validateComponent_iff part).mp (valid part member)⟩
  rintro rfl
  rw [if_pos (.inl rfl)] at last
  cases last

theorem portable_head (portable : portablePath path ≠ none) :
    ∃ first rest,path.splitOn '/' = first :: rest ∧ first ≠ [] ∧ first ≠ ['.'] := by
  obtain ⟨parts,spelled,some_,_⟩ := portable_components portable
  cases shape : path.splitOn '/' with
  | nil => exact absurd shape (splitOn_ne_nil _ _)
  | cons first rest =>
    refine ⟨first,rest,rfl,?_,?_⟩
    · rintro rfl
      unfold components at spelled
      rw [shape] at spelled
      cases rest with
      | nil =>
        have empty : parts.map Component.normal = [] := spelled.symm
        exact some_ (map_eq_nil_iff.mp empty)
      | cons next later =>
        cases parts with
        | nil => exact some_ rfl
        | cons part parts => cases spelled
    · rintro rfl
      unfold components at spelled
      rw [shape] at spelled
      cases parts with
      | nil => exact some_ rfl
      | cons part parts => cases spelled

theorem separated_parts (portable : portablePath path ≠ none) (separated : Separated path) :
    (∀ part ∈ path.splitOn '/',PortablePart part) ∧ components path = (path.splitOn '/').map .normal := by
  obtain ⟨first,rest,shape,some_,current⟩ := portable_head portable
  obtain ⟨parts,spelled,_,valid⟩ := portable_components portable
  have filled : ∀ part ∈ path.splitOn '/',part ≠ [] ∧ part ≠ ['.'] := by
    unfold Separated at separated
    rw [shape] at separated ⊢
    exact forall_mem_cons.mpr ⟨⟨some_,current⟩,separated⟩
  have kept : (path.splitOn '/').filter (fun part => part ≠ [] ∧ part ≠ ['.']) = path.splitOn '/' :=
    filter_eq_self.mpr fun part member => decide_eq_true (filled part member)
  have body : components path = (path.splitOn '/').map fun part =>
      if part = ['.','.'] then .parentDir else .normal part := by
    unfold components
    simp only [kept]
    rw [shape]
    split
    · rename_i same
      exact absurd (List.cons.inj same).1 some_
    · rename_i same
      exact absurd (List.cons.inj same).1 current
    · rfl
  have same : path.splitOn '/' = parts := by
    rw [body] at spelled
    have each : ∀ part ∈ path.splitOn '/',part ≠ ['.','.'] := by
      intro part member parent
      have among : Component.parentDir ∈ parts.map Component.normal := by
        rw [←spelled]; exact mem_map.mpr ⟨part,member,if_pos parent⟩
      obtain ⟨_,_,wrong⟩ := mem_map.mp among
      cases wrong
    have plain : (path.splitOn '/').map Component.normal = parts.map Component.normal := by
      rw [←spelled]
      exact map_congr_left fun part member => (if_neg (each part member)).symm
    exact (map_injective_iff.mpr fun a b equal => by cases equal; rfl) plain
  rw [same]
  exact ⟨valid,spelled⟩

theorem asset_path_separated (validated : validateAssetPath path = true) : Separated path := by
  unfold validateAssetPath at validated
  simp only [Bool.and_eq_true,Bool.not_eq_true',Bool.or_eq_false_iff,any_eq_false] at validated
  intro part member
  have good := validated.1.2 part (mem_of_mem_tail member)
  simp only [decide_eq_true_eq,Bool.or_eq_true,not_or] at good
  exact ⟨good.1.1,good.1.2⟩

theorem mem_joined {separator c : Char} {parts : List Str} (member : c ∈ [separator].intercalate parts) :
    c = separator ∨ ∃ part ∈ parts,c ∈ part := by
  induction parts with
  | nil => cases member
  | cons part rest ih =>
    cases rest with
    | nil => rw [intercalate_singleton] at member; exact .inr ⟨part,mem_cons_self,member⟩
    | cons next later =>
      rw [intercalate_cons_cons,append_assoc,mem_append,mem_append] at member
      rcases member with here | between | there
      · exact .inr ⟨part,mem_cons_self,here⟩
      · exact .inl (mem_singleton.mp between)
      · rcases ih there with same | ⟨other,among,inside⟩
        · exact .inl same
        · exact .inr ⟨other,mem_cons_of_mem _ among,inside⟩

theorem separated_asset_path (portable : portablePath path ≠ none) (separated : Separated path) :
    validateAssetPath path = true := by
  obtain ⟨valid,_⟩ := separated_parts portable separated
  obtain ⟨first,rest,shape,some_,_⟩ := portable_head portable
  have letters : ∀ c ∈ path,asciiAlnum c = true ∨ c = '-' ∨ c = '_' ∨ c = '.' ∨ c = '/' := by
    intro c member
    rw [←@intercalate_splitOn _ path _ _ '/'] at member
    rcases mem_joined member with slash | ⟨part,among,inside⟩
    · exact .inr (.inr (.inr (.inr slash)))
    · rcases (valid part among).letters c inside with alnum | dash | line | dot
      · exact .inl alnum
      · exact .inr (.inl dash)
      · exact .inr (.inr (.inl line))
      · exact .inr (.inr (.inr (.inl dot)))
  have percent : '%' ∉ path := fun member => absurd (letters _ member) (by decide)
  have slash : '\\' ∉ path := fun member => absurd (letters _ member) (by decide)
  have nonempty : path ≠ [] := by
    rintro rfl
    cases shape
    exact some_ rfl
  have begins : path.head? ≠ some '/' := by
    intro head
    cases path with
    | nil => cases head
    | cons c later =>
      cases head
      rw [splitOn_cons_eq_if_modifyHead,if_pos (by decide)] at shape
      exact some_ (List.cons.inj shape).1.symm
  have ends : path.getLast? ≠ some '/' := by
    intro last
    obtain ⟨before,spelled⟩ := getLast?_eq_some_iff.mp last
    have among : [] ∈ path.splitOn '/' := by
      rw [spelled,splitOn_append_cons_self]
      exact mem_append_right _ (by decide)
    exact (valid [] among).some_ rfl
  unfold validateAssetPath
  simp only [Bool.and_eq_true,Bool.not_eq_true',Bool.or_eq_false_iff,any_eq_false,all_eq_true,Bool.or_eq_true,
    decide_eq_true_eq,decide_eq_false_iff_not,contains_eq_mem]
  refine ⟨⟨⟨⟨⟨⟨nonempty,begins⟩,ends⟩,percent⟩,slash⟩,fun part member => ?_⟩,fun c member => ?_⟩
  · have fits := valid part member
    simp [fits.some_,fits.current,fits.parent]
  · rcases letters c member with alnum | dash | line | dot | slash
    · exact .inl (.inl (.inl (.inl alnum)))
    · exact .inl (.inr dash)
    · exact .inl (.inl (.inr line))
    · exact .inl (.inl (.inl (.inr dot)))
    · exact .inr slash

theorem denoted_folded (portable : portablePath path ≠ none) (separated : Separated path)
    (portables : portablePath other ≠ none) (separateds : Separated other) (same : denoted path = denoted other) :
    path.map Char.toLower = other.map Char.toLower := by
  have folded {path : Str} (portable : portablePath path ≠ none) (separated : Separated path) :
      denoted path = ((path.splitOn '/').map (·.map Char.toLower)).map .normal := by
    unfold denoted
    rw [(separated_parts portable separated).2,map_map,map_map]
    rfl
  have lowered (path : Str) : path.map Char.toLower =
      ['/'].intercalate ((path.splitOn '/').map (·.map Char.toLower)) := by
    conv_lhs => rw [←@intercalate_splitOn _ path _ _ '/']
    induction path.splitOn '/' with
    | nil => rfl
    | cons part rest ih =>
      cases rest with
      | nil => simp only [map_cons,map_nil,intercalate_singleton]
      | cons next later =>
        have mark : ['/'].map Char.toLower = ['/'] := by decide
        rw [intercalate_cons_cons,map_append,map_append,ih,mark,map_cons,map_cons,map_cons,
          intercalate_cons_cons]
  rw [folded portable separated,folded portables separateds] at same
  have parts := (map_injective_iff.mpr fun a b (equal : Component.normal a = .normal b) => by cases equal; rfl) same
  rw [lowered path,lowered other,parts]

end Paths

-- What the loop of the checks leaves of the paths.
structure Kept (entry : Str) (files : List ViewFile) (seen : Seen) : Prop where
  portable : ∀ file ∈ files,portablePath file.path ≠ none
  ordered : files.Pairwise fun a b => a.path < b.path
  last : seen.previous = files.getLast?.map (·.path)
  folded : files.Pairwise fun a b => a.path.map Char.toLower ≠ b.path.map Char.toLower
  folds : ∀ file ∈ files,file.path.map Char.toLower ∈ seen.foldedPaths
  entry : seen.hasEntry = true → ∃ file ∈ files,file.path = entry

theorem kept_next {next : Seen}
    (kept : Kept entry files seen) (checked : validateFile error entry seen file = .ok next) :
    Kept entry (files ++ [file]) next := by
  simp only [validateFile] at checked
  split_ifs at checked with unfit unordered colliding large beyond overflowed
  cases checked
  refine ⟨?_,?_,by simp,?_,?_,?_⟩
  · intro other member
    rcases mem_append.mp member with old | new
    · exact kept.portable other old
    · rw [mem_singleton.mp new]; exact unfit
  · refine List.pairwise_append.mpr ⟨kept.ordered,pairwise_singleton _ _,?_⟩
    intro a member b new
    rw [mem_singleton.mp new]
    rw [kept.last] at unordered
    cases found : files.getLast? with
    | none =>
      rw [getLast?_eq_none_iff.mp found] at member
      cases member
    | some last =>
      rw [found] at unordered
      have before : last.path < file.path := by simpa using unordered
      obtain ⟨earlier,spelled⟩ := getLast?_eq_some_iff.mp found
      rw [spelled] at member
      rcases mem_append.mp member with old | same
      · have ordered := kept.ordered
        rw [spelled] at ordered
        exact List.lt_trans ((List.pairwise_append.mp ordered).2.2 a old last (List.mem_singleton_self _)) before
      · rw [mem_singleton.mp same]; exact before
  · refine List.pairwise_append.mpr ⟨kept.folded,pairwise_singleton _ _,?_⟩
    intro a member b new equal
    rw [mem_singleton.mp new] at equal
    exact colliding (by rw [←equal]; exact kept.folds a member)
  · intro other member
    rcases mem_append.mp member with old | new
    · exact mem_cons_of_mem _ (kept.folds other old)
    · rw [mem_singleton.mp new]; exact mem_cons_self
  · intro has
    rcases Bool.or_eq_true_iff.mp has with old | new
    · obtain ⟨found,member,same⟩ := kept.entry old
      exact ⟨found,mem_append_left _ member,same⟩
    · exact ⟨file,mem_append_right _ (List.mem_singleton_self _),of_decide_eq_true new⟩

theorem validateBundle_kept (valid : validateBundle bundle archive = .ok ()) :
    ∃ seen,Kept bundle.entry bundle.files seen ∧ seen.hasEntry = true := by
  obtain ⟨_,_,_,_,seen,looped,_,found⟩ := validateBundle_ok.mp valid
  have start : Kept bundle.entry [] ⟨none,[],false,0⟩ :=
    ⟨by simp,List.Pairwise.nil,rfl,List.Pairwise.nil,by simp,fun has => by cases has⟩
  exact ⟨seen,foldlM_invariant (fun _ _ _ _ kept checked => kept_next kept checked) start looped,found⟩

theorem staged_files {files : List ViewFile} {assets : Table Str Bytes}
    (valid : ∀ file ∈ files,validateAssetPath file.path = true) (distinct : files.Pairwise fun a b => a.path ≠ b.path)
    (fresh : ∀ file ∈ files,file.path ∉ assets) :
    ∃ out,files.foldlM stageAsset assets = .ok out ∧ ∀ path : Str,path ∈ out ↔ path ∈ assets ∨ ∃ file ∈ files,file.path = path := by
  induction files generalizing assets with
  | nil => exact ⟨assets,rfl,fun path => by simp⟩
  | cons file rest ih =>
    obtain ⟨first,later⟩ := pairwise_cons.mp distinct
    have absent : assets.contains file.path = false := by
      rw [Bool.eq_false_iff]
      exact fun has => fresh file mem_cons_self (Std.ExtTreeMap.contains_iff_mem.mp has)
    have step : stageAsset assets file = .ok (assets.insert file.path file.bytes) := by
      rw [stageAsset,if_neg (not_not.mpr (valid file mem_cons_self)),if_neg (by rw [absent]; decide)]
    obtain ⟨out,ran,members⟩ := @ih (assets.insert file.path file.bytes)
      (fun other member => valid other (mem_cons_of_mem _ member)) later (by
        intro other member inside; rw [Std.ExtTreeMap.mem_insert] at inside
        rcases inside with same | old
        · exact first other member (Std.LawfulEqOrd.eq_of_compare same)
        · exact fresh other (mem_cons_of_mem _ member) old)
    refine ⟨out,by rw [foldlM_cons,ok_bind step]; exact ran,fun path => ?_⟩
    rw [members,Std.ExtTreeMap.mem_insert,Std.compare_eq_iff_eq]
    simp only [mem_cons,exists_eq_or_imp]
    tauto

-- The paths of a bundle that is read are what they are to be exactly when none
-- of them doubles a separator, ends in one, or has a lone dot behind one. The
-- checks look at components, which have no trace of these.
theorem decoded_paths_canonical_iff (bytes : Bytes) (bundle : ViewBundle) (read : decode bytes = .ok bundle) :
    CanonicalPaths bundle ↔ ∀ file ∈ bundle.files,Separated file.path := by
  obtain ⟨valid,_,_⟩ := decode_ok.mp read
  obtain ⟨seen,kept,found⟩ := validateBundle_kept valid
  constructor
  · intro canonical file member
    exact asset_path_separated (canonical.validated file member)
  · intro separated
    have validated : ∀ file ∈ bundle.files,validateAssetPath file.path = true :=
      fun file member => separated_asset_path (kept.portable file member) (separated file member)
    refine ⟨?_,kept.ordered,?_,validated,?_⟩
    · intro file member
      exact ⟨_,splitOn_ne_nil _ _,(separated_parts (kept.portable file member) (separated file member)).1,
        (intercalate_splitOn '/').symm⟩
    · refine kept.folded.imp_of_mem fun {a b} first second apart same => apart ?_
      exact denoted_folded (kept.portable a first) (separated a first) (kept.portable b second) (separated b second) same
    · obtain ⟨out,ran,members⟩ := @staged_files bundle.files ∅ validated
        (kept.ordered.imp fun {a b} before (same : a.path = b.path) => by
          rw [same] at before; exact List.lt_irrefl b.path before) (by simp)
      obtain ⟨file,member,entry⟩ := kept.entry found
      have has : out.contains bundle.entry = true :=
        Std.ExtTreeMap.contains_iff_mem.mpr ((members _).mpr (.inr ⟨file,member,entry⟩))
      refine ⟨out,?_⟩
      unfold stage
      rw [ok_bind ran,if_neg (not_not.mpr has)]

-- `a//b` and `a/b` are read as two files, and no surface stages them.
def doubledSeparator : ViewBundle :=
  ⟨1,portableEntry,[⟨"a//b".toList,[]⟩,⟨"a/b".toList,[]⟩,⟨portableEntry,[]⟩]⟩

theorem doubled_separator_read : decode (image doubledSeparator) = .ok doubledSeparator ∧
    ¬CanonicalPaths doubledSeparator ∧ stage doubledSeparator = .error (.path "a//b".toList) := by
  have valid : validateBundle doubledSeparator true = .ok () := by decide
  have short : ∀ file ∈ doubledSeparator.files,utf8Len file.path ≤ maxPathBytes := by decide
  refine ⟨decode_ok.mpr ⟨valid,short,rfl⟩,fun canonical => ?_,by decide⟩
  have invalid : ¬∀ file ∈ doubledSeparator.files,validateAssetPath file.path = true := by decide
  exact invalid canonical.validated

def nested : ViewBundle := ⟨1,portableEntry,[⟨"assets/app.js".toList,[1]⟩,⟨portableEntry,[2]⟩]⟩

theorem nested_canonical : CanonicalPaths nested := by
  have valid : validateBundle nested true = .ok () := by decide
  have short : ∀ file ∈ nested.files,utf8Len file.path ≤ maxPathBytes := by decide
  have separated : ∀ file ∈ nested.files,Separated file.path := by decide
  exact (decoded_paths_canonical_iff (image nested) nested (decode_ok.mpr ⟨valid,short,rfl⟩)).mpr separated

end View
end HologramLive
