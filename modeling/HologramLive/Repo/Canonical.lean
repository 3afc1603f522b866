import HologramLive.Repo.Manifest
import HologramLive.Lib.JsonText
namespace HologramLive.Repo
open Tables Fallible List
variable {codec : JsonCodec}

structure Exact (codec : JsonCodec) : Prop where
  prints : ∀ document,∃ bytes,codec.toVec document = .ok bytes
  parses : codec.ReadsBack

theorem readU64_number (n : UInt64) : readU64 (.number n.toNat) = .ok n := by
  have small : n.toNat < 2^64 := UInt64.toNat_lt n
  unfold readU64 Json.asU64
  dsimp only
  rw [if_pos small]
  exact congrArg Except.ok (UInt64.ofNat_toNat)

theorem readList_array {α : Type} {read : Json → Except Str α} {document : α → Json}
    (each : ∀ a,read (document a) = .ok a) (items : List α) : readList read (.array (items.map document)) = .ok items := by
  unfold readList
  dsimp only
  rw [List.mapM_map]
  exact mapM_fixed fun a _ => each a

variable {rows : List (String × Option Json)}

theorem get_textFields_absent (absent : name ∉ rows.map (·.1)) : (textFields rows).get name.toList = none := by
  simp only [textFields,Json.get,Option.map_eq_none_iff,find?_eq_none,mem_filterMap,Option.map_eq_some_iff]
  rintro _ ⟨row,member,value,_,rfl⟩ same
  exact absent (mem_map.mpr ⟨row,member,String.toList_injective (of_decide_eq_true same)⟩)

theorem get_textFields (apart : (rows.map (·.1)).Nodup)
    (member : row ∈ rows) : (textFields rows).get row.1.toList = row.2 := by
  induction rows with
  | nil => cases member
  | cons first rest ih =>
    obtain ⟨fresh,apart⟩ := nodup_cons.mp apart
    have step (name : String) (other : first.1 ≠ name) :
        (textFields (first :: rest)).get name.toList = (textFields rest).get name.toList := by
      have differs : first.1.toList ≠ name.toList := fun same => other (String.toList_injective same)
      cases value : first.2 <;> simp [textFields,Json.get,value,differs]
    rcases mem_cons.mp member with rfl | member
    · cases value : row.2 with
      | none =>
        have dropped : textFields (row :: rest) = textFields rest := by simp [textFields,value]
        rw [dropped,get_textFields_absent fresh]
      | some found => simp [textFields,Json.get,value]
    · rw [step row.1 fun same => fresh (mem_map.mpr ⟨row,member,same.symm⟩)]
      exact ih apart member

theorem structFields_text (named : rows.map (·.1) = names) (valued : rows.map (·.2) = values) (apart : names.Nodup) :
    structFields names (textFields rows) = .ok values := by
  subst named valued
  obtain ⟨written,isWritten⟩ : ∃ written,textFields rows = .object written := ⟨_,rfl⟩
  have keys : (written.map (·.1)).Sublist (rows.map fun row => row.1.toList) := by
    have cut : written = rows.filterMap fun row => row.2.map fun value => (row.1.toList,value) :=
      (Json.object.inj isWritten).symm
    rw [cut]
    clear cut isWritten apart
    induction rows with
    | nil => exact .slnil
    | cons row rest ih =>
      rw [filterMap_cons]
      cases row.2 with
      | none => exact ih.cons _
      | some value => exact ih.cons_cons _
  have familiar : ¬(written.any fun row => row.1 ∉ (rows.map (·.1)).map String.toList) = true := by
    rw [any_eq_true]
    intro ⟨row,member,strange⟩
    have known := keys.subset (mem_map_of_mem member)
    rw [map_map] at strange
    exact of_decide_eq_true strange known
  have once : (written.map (·.1)).Nodup := by
    refine keys.nodup ?_
    have texts := apart.map fun _ _ same => String.toList_injective same
    rw [map_map] at texts
    exact texts
  rw [isWritten,structFields,if_neg familiar,if_neg (not_not_intro once),← isWritten,map_map]
  exact congrArg Except.ok (map_congr_left fun row member => get_textFields apart member)

theorem ManifestChunk.read_document (chunk : ManifestChunk) : ManifestChunk.read chunk.document = .ok chunk := by
  have fields : structFields ["kappa","offset","size"] chunk.document =
      .ok [some (.string chunk.kappa),some (.number chunk.offset.toNat),some (.number chunk.size.toNat)] :=
    structFields_text rfl rfl (by decide)
  unfold ManifestChunk.read
  rw [ok_bind fields]
  dsimp only
  rw [show required readString "kappa" (some (.string chunk.kappa)) = .ok chunk.kappa from rfl]
  rw [show required readU64 "offset" (some (.number chunk.offset.toNat)) = .ok chunk.offset from readU64_number _]
  rw [show required readU64 "size" (some (.number chunk.size.toNat)) = .ok chunk.size from readU64_number _]
  rfl

theorem optional_string (text : Option Str) : optional readString (text.map .string) = .ok text := by
  cases text <;> rfl

theorem ManifestFile.fields_document (file : ManifestFile) :
    structFields ["path","size","media_type","sha256","blake3","chunks"] file.document =
      .ok [some (.string file.path),some (.number file.size.toNat),file.mediaType.map .string,file.sha256.map .string,
        some (.string file.blake3),some (.array (file.chunks.map ManifestChunk.document))] :=
  structFields_text rfl rfl (by decide)

theorem ManifestFile.read_document (file : ManifestFile) : ManifestFile.read file.document = .ok file := by
  unfold ManifestFile.read
  rw [ok_bind file.fields_document]
  dsimp only
  rw [show required readString "path" (some (.string file.path)) = .ok file.path from rfl]
  rw [show required readU64 "size" (some (.number file.size.toNat)) = .ok file.size from readU64_number _]
  rw [optional_string,optional_string]
  rw [show required readString "blake3" (some (.string file.blake3)) = .ok file.blake3 from rfl]
  rw [show required (readList ManifestChunk.read) "chunks" (some (.array (file.chunks.map ManifestChunk.document))) =
    .ok file.chunks from readList_array ManifestChunk.read_document file.chunks]
  rfl

theorem ManifestSource.read_document (source : ManifestSource) : ManifestSource.read source.document = .ok source := by
  have fields : structFields ["kind","repo","revision"] source.document =
      .ok [some (.string source.kind),some (.string source.repo),some (.string source.revision)] :=
    structFields_text rfl rfl (by decide)
  unfold ManifestSource.read
  rw [ok_bind fields]
  rfl

theorem optional_source (source : Option ManifestSource) :
    optional ManifestSource.read (source.map ManifestSource.document) = .ok source := by
  cases source with
  | none => rfl
  | some source =>
    show (ManifestSource.read source.document).map some = .ok (some source)
    rw [source.read_document]
    rfl

namespace RepoManifest

theorem fields_document (manifest : RepoManifest) : structFields ["format","name","source","files"] manifest.document =
    .ok [some (.string manifest.format),some (.string manifest.name),manifest.source.map ManifestSource.document,
      some (.array (manifest.files.map ManifestFile.document))] :=
  structFields_text rfl rfl (by decide)

theorem read_document (manifest : RepoManifest) : read manifest.document = .ok manifest := by
  unfold read
  rw [ok_bind manifest.fields_document]
  dsimp only
  rw [show required readString "format" (some (.string manifest.format)) = .ok manifest.format from rfl]
  rw [show required readString "name" (some (.string manifest.name)) = .ok manifest.name from rfl]
  rw [optional_source]
  rw [show required (readList ManifestFile.read) "files" (some (.array (manifest.files.map ManifestFile.document))) =
    .ok manifest.files from readList_array ManifestFile.read_document manifest.files]
  rfl

end RepoManifest

theorem validateEntries_ok {files : List ManifestFile} : (∃ out,files.foldlM validateEntry seen = .ok out) ↔
      (∀ file ∈ files,validateFile file = .ok ()) ∧ (files.map (·.path)).Nodup ∧ ∀ file ∈ files,file.path ∉ seen := by
  induction files generalizing seen with
  | nil => simp [pure,Except.pure]
  | cons file rest ih =>
    have step (seen' : KeySet Str) : validateEntry seen file = .ok seen' ↔
        validateFile file = .ok () ∧ file.path ∉ seen ∧ seen' = seen.insert file.path := by
      unfold validateEntry
      constructor
      · intro ran
        obtain ⟨_,valid,ran⟩ := bind_ok ran
        split at ran
        · cases ran
        · rename_i fresh; cases ran
          exact ⟨valid,fresh,rfl⟩
      · intro ⟨valid,fresh,same⟩; rw [ok_bind valid,if_neg fresh,same]
        rfl
    rw [foldlM_cons]
    constructor
    · intro ⟨out,ran⟩
      obtain ⟨next,first,others⟩ := bind_ok ran
      obtain ⟨valid,fresh,rfl⟩ := (step next).mp first
      obtain ⟨all,distinct,apart⟩ := ih.mp ⟨out,others⟩
      have absent (other : ManifestFile) (member : other ∈ rest) : file.path ≠ other.path ∧ other.path ∉ seen := by
        have outside := apart other member
        rw [Std.ExtTreeSet.mem_insert,Std.compare_eq_iff_eq] at outside; exact not_or.mp outside
      refine ⟨forall_mem_cons.mpr ⟨valid,all⟩,?_,forall_mem_cons.mpr ⟨fresh,fun other member => (absent other member).2⟩⟩
      rw [map_cons,nodup_cons]
      refine ⟨fun member => ?_,distinct⟩
      obtain ⟨other,among,same⟩ := mem_map.mp member
      exact (absent other among).1 same.symm
    · intro ⟨all,distinct,apart⟩
      obtain ⟨valid,others⟩ := forall_mem_cons.mp all
      obtain ⟨fresh,later⟩ := forall_mem_cons.mp apart
      rw [map_cons,nodup_cons] at distinct
      rw [ok_bind ((step _).mpr ⟨valid,fresh,rfl⟩)]
      refine ih.mpr ⟨others,distinct.2,fun other member => ?_⟩
      rw [Std.ExtTreeSet.mem_insert,Std.compare_eq_iff_eq]
      refine not_or.mpr ⟨fun same => distinct.1 ?_,later other member⟩
      rw [same]
      exact mem_map.mpr ⟨other,member,rfl⟩

namespace RepoManifest

structure Valid (manifest : RepoManifest) : Prop where
  format : manifest.format = repoManifestFormat
  name : validateRepoName manifest.name = .ok ()
  source : ∃ done,manifest.source.mapM validateSource = .ok done
  files : ∀ file ∈ manifest.files,validateFile file = .ok ()
  paths : (manifest.files.map (·.path)).Nodup

variable {manifest : RepoManifest}

theorem validate_iff : manifest.validate = .ok () ↔ manifest.Valid := by
  unfold validate
  constructor
  · intro ran
    split at ran
    · cases ran
    · rename_i format
      obtain ⟨_,name,ran⟩ := bind_ok ran
      obtain ⟨done,source,ran⟩ := bind_ok ran
      obtain ⟨seen,entries,_⟩ := bind_ok ran
      obtain ⟨files,paths,_⟩ := validateEntries_ok.mp ⟨seen,entries⟩
      exact ⟨not_not.mp format,name,⟨done,source⟩,files,paths⟩
  · intro so
    obtain ⟨done,source⟩ := so.source
    obtain ⟨seen,entries⟩ := validateEntries_ok.mpr ⟨so.files,so.paths,fun file _ => Std.ExtTreeSet.not_mem_empty⟩
    rw [if_neg (not_not.mpr so.format),ok_bind so.name,ok_bind source,ok_bind entries]
    rfl

structure Reordered (left right : RepoManifest) : Prop where
  format : left.format = right.format
  name : left.name = right.name
  source : left.source = right.source
  files : left.files.Perm right.files

variable {left right : RepoManifest}

theorem Valid.reordered (so : left.Valid) (same : Reordered left right) : right.Valid where
  format := same.format ▸ so.format
  name := same.name ▸ so.name
  source := same.source ▸ so.source
  files file member := so.files file (same.files.mem_iff.mpr member)
  paths := (same.files.map _).nodup_iff.mp so.paths

theorem ordered_reordered (manifest : RepoManifest) : Reordered manifest.ordered manifest :=
  ⟨rfl,rfl,rfl,mergeSort_perm _ _⟩

theorem Reordered.symm (same : Reordered left right) : Reordered right left :=
  ⟨same.format.symm,same.name.symm,same.source.symm,same.files.symm⟩

theorem Reordered.trans (one : Reordered first second) (two : Reordered second third) : Reordered first third :=
  ⟨one.format.trans two.format,one.name.trans two.name,one.source.trans two.source,one.files.trans two.files⟩

theorem toUtf8_injective {left right : Str} (same : toUtf8 left = toUtf8 right) : left = right := by
  have decoded := fromUtf8_iff.mpr (rfl : toUtf8 left = toUtf8 left)
  rw [same,fromUtf8_iff.mpr rfl] at decoded
  exact (Option.some.inj decoded).symm

theorem pathOrder_trans (a b c : ManifestFile) (one : pathOrder a b = true) (two : pathOrder b c = true) :
    pathOrder a c = true := Std.TransCmp.isLE_trans one two

theorem pathOrder_total (a b : ManifestFile) : (pathOrder a b || pathOrder b a) = true := by
  unfold pathOrder
  have swapped : compare (toUtf8 b.path) (toUtf8 a.path) = (compare (toUtf8 a.path) (toUtf8 b.path)).swap :=
    Std.OrientedCmp.eq_swap
  rw [swapped]
  cases compare (toUtf8 a.path) (toUtf8 b.path) <;> rfl

theorem pathOrder_antisymm (one : pathOrder a b = true) (two : pathOrder b a = true) : a.path = b.path :=
  toUtf8_injective (Std.LawfulEqCmp.eq_of_compare (Std.OrientedCmp.isLE_antisymm one two))

theorem ordered_sorted (manifest : RepoManifest) : manifest.ordered.files.Pairwise fun a b => pathOrder a b = true :=
  pairwise_mergeSort pathOrder_trans pathOrder_total _

theorem Valid.ordered_same (so : left.Valid) (same : Reordered left right) : left.ordered = right.ordered := by
  have files : left.ordered.files = right.ordered.files := by
    have both := (ordered_reordered left).trans (same.trans (ordered_reordered right).symm)
    refine both.files.eq_of_pairwise (fun a b inLeft inRight one two => ?_) left.ordered_sorted right.ordered_sorted
    have a' := (ordered_reordered left).files.mem_iff.mp inLeft
    have b' := (same.trans (ordered_reordered right).symm).files.mem_iff.mpr inRight
    exact inj_on_of_nodup_map so.paths a' b' (pathOrder_antisymm one two)
  show (⟨left.format,left.name,left.source,left.ordered.files⟩ : RepoManifest) = _
  rw [same.format,same.name,same.source,files]
  rfl

variable {bytes : Bytes}

theorem encode_iff : manifest.encode codec = .ok bytes ↔
    manifest.Valid ∧ codec.toVec manifest.ordered.document = .ok bytes := by
  unfold encode
  constructor
  · intro encoded
    obtain ⟨_,valid,printed⟩ := bind_ok encoded
    exact ⟨validate_iff.mp valid,mapError_ok printed⟩
  · intro ⟨valid,printed⟩
    rw [ok_bind (validate_iff.mpr valid)]
    exact mapError_of_ok printed

theorem Valid.ordered_again (so : manifest.Valid) : manifest.ordered.ordered = manifest.ordered :=
  (so.ordered_same (ordered_reordered manifest).symm).symm

theorem decode_encode (exactly : Exact codec)
    (encoded : manifest.encode codec = .ok bytes) : decode codec bytes = .ok manifest.ordered := by
  obtain ⟨valid,printed⟩ := encode_iff.mp encoded
  have again : manifest.ordered.encode codec = .ok bytes := by
    refine encode_iff.mpr ⟨valid.reordered (ordered_reordered manifest).symm,?_⟩
    rw [valid.ordered_again]
    exact printed
  unfold decode
  rw [ok_bind (mapError_of_ok (exactly.parses _ _ printed)),ok_bind (mapError_of_ok (read_document _)),ok_bind again]
  exact if_neg (not_not.mpr rfl)

theorem encode_decode (decoded : decode codec bytes = .ok manifest) : manifest.encode codec = .ok bytes := by
  unfold decode at decoded
  obtain ⟨document,_,decoded⟩ := bind_ok decoded
  obtain ⟨read,_,decoded⟩ := bind_ok decoded
  obtain ⟨again,encoded,decoded⟩ := bind_ok decoded
  split at decoded
  · cases decoded
  · rename_i same
    cases decoded
    rw [encoded,not_not.mp same]

-- A manifest has one canonical encoding, and only canonical encodings are read.
theorem canonical (exactly : Exact codec) (kappaOf : Bytes → Str) :
    (∀ manifest : RepoManifest,manifest.validate = .ok () →
      (∃ bytes,manifest.encode codec = .ok bytes ∧ decode codec bytes = .ok manifest.ordered) ∧
      (manifest.ordered.files.Perm manifest.files ∧ manifest.ordered.files.Pairwise fun a b => pathOrder a b = true) ∧
      ∀ other,Reordered manifest other → manifest.encode codec = other.encode codec ∧
        manifest.revision codec kappaOf = other.revision codec kappaOf) ∧
    (∀ (left right : RepoManifest) bytes,left.encode codec = .ok bytes → right.encode codec = .ok bytes →
      Reordered left right) ∧ ∀ bytes,(∃ manifest,decode codec bytes = .ok manifest) ↔
      ∃ manifest : RepoManifest,manifest.validate = .ok () ∧ manifest.encode codec = .ok bytes := by
  refine ⟨fun manifest valid => ?_,fun left right bytes one two => ?_,fun bytes => ?_⟩
  · have so := validate_iff.mp valid
    obtain ⟨bytes,printed⟩ := exactly.prints manifest.ordered.document
    have encoded : manifest.encode codec = .ok bytes := encode_iff.mpr ⟨so,printed⟩
    refine ⟨⟨bytes,encoded,decode_encode exactly encoded⟩,⟨(ordered_reordered manifest).files,manifest.ordered_sorted⟩,?_⟩
    intro other same
    have alike : manifest.encode codec = other.encode codec := by
      rw [encoded]
      refine (encode_iff.mpr ⟨so.reordered same,?_⟩).symm
      rw [←so.ordered_same same]
      exact printed
    refine ⟨alike,?_⟩
    unfold revision
    rw [alike]
  · have sorted : left.ordered = right.ordered := by
      have decoded := decode_encode exactly one
      rw [decode_encode exactly two] at decoded
      exact (Except.ok.inj decoded).symm
    exact (ordered_reordered left).symm.trans (sorted ▸ ordered_reordered right)
  · constructor
    · intro ⟨manifest,decoded⟩
      have encoded := encode_decode decoded
      exact ⟨manifest,validate_iff.mpr (encode_iff.mp encoded).1,encoded⟩
    · intro ⟨manifest,_,encoded⟩
      exact ⟨manifest.ordered,decode_encode exactly encoded⟩

end RepoManifest

def serdeJson : JsonCodec where
  toVec document := .ok (toUtf8 document.print)
  fromSlice bytes :=
    match (fromUtf8 bytes).bind Json.parse with
    | some document => .ok document
    | none => .error "invalid JSON".toList

theorem serdeJson_exact : Exact serdeJson where
  prints document := ⟨_,rfl⟩
  parses document bytes printed := by
    cases printed
    show (match (fromUtf8 (toUtf8 document.print)).bind Json.parse with
      | some document => .ok document
      | none => .error "invalid JSON".toList) = Except.ok document
    rw [fromUtf8_iff.mpr rfl]
    show (match Json.parse document.print with
      | some document => .ok document
      | none => .error "invalid JSON".toList) = Except.ok document
    rw [Json.parse_print]

namespace RepoManifest

def golden : RepoManifest :=
  ⟨repoManifestFormat,"org/repo".toList,some ⟨"huggingface".toList,"org/repo".toList,"0123abcd".toList⟩,
    [⟨"z/b.bin".toList,3,none,some (sha256Prefix ++ replicate 64 'b'),blake3Prefix ++ replicate 64 '6',
        [⟨blake3Prefix ++ replicate 64 'a',0,2⟩,⟨blake3Prefix ++ replicate 64 'c',2,1⟩]⟩,
      ⟨"a.json".toList,0,some "application/json".toList,none,blake3Prefix ++ replicate 64 'f',[]⟩]⟩

theorem golden_canonical : golden.validate = .ok () ∧
    (∃ bytes,golden.encode serdeJson = .ok bytes ∧ decode serdeJson bytes = .ok golden.ordered) := by
  have valid : golden.validate = .ok () := by decide
  exact ⟨valid,((canonical serdeJson_exact fun _ => blake3Prefix).1 golden valid).1⟩

end RepoManifest
end HologramLive.Repo
