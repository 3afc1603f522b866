import HologramLive.Cluster.Requests
import HologramLive.Artifact.ReferenceGrammar
import HologramLive.Repo.Canonical
import HologramLive.Repo.ChunkedFiles
import HologramLive.Buckets.Objects
namespace HologramLive.Cluster

structure BoundRequest where
  method : Str
  path : Str
  query : Option Str
  recipient : Str
  timestamp : Str
  body : Bytes
  clean : rejectSeparators method path query recipient = .ok ()
  dated : (Listing.parseUnsigned (2^64) timestamp).isSome = true

def BoundRequest.preimage (crates : ClusterCrates) (request : BoundRequest) : Bytes :=
  Cluster.preimage crates request.method request.path request.query request.recipient request.timestamp request.body

def segments (query : Option Str) : List Str := ((query.getD []).splitOn '&').filter fun segment => !segment.isEmpty

section Proofs
variable {query other : Option Str} {request : BoundRequest} {crates : ClusterCrates}

theorem canonicalQuery_segments : canonicalQuery query = ['&'].intercalate ((segments query).insertionSort (· ≤ ·)) := by
  cases query with
  | none => rfl
  | some raw => rfl

open List

theorem segments_apart {segment : Str} (member : segment ∈ segments query) : segment ≠ [] ∧ '&' ∉ segment := by
  obtain ⟨part,full⟩ := mem_filter.mp member
  refine ⟨?_,splitOn_parts _ segment part⟩
  rintro rfl
  cases full

theorem intercalate_empty {parts : List Str} (full : ∀ part ∈ parts,part ≠ []) (empty : ['&'].intercalate parts = []) : parts = [] := by
  cases parts with
  | nil => rfl
  | cons part rest =>
    exfalso
    have first := full part mem_cons_self
    cases rest with
    | nil => exact first (by rwa [intercalate_singleton] at empty)
    | cons next later => rw [intercalate_cons_cons] at empty; simp at empty

theorem intercalate_inj {left right : List Str} (one : ∀ part ∈ left,part ≠ [] ∧ '&' ∉ part)
    (two : ∀ part ∈ right,part ≠ [] ∧ '&' ∉ part) (same : ['&'].intercalate left = ['&'].intercalate right) : left = right := by
  by_cases none : left = []
  · subst none
    exact (intercalate_empty (fun part member => (two part member).1) same.symm).symm
  · by_cases none' : right = []
    · subst none'
      exact intercalate_empty (fun part member => (one part member).1) same
    · rw [←splitOn_intercalate _ (fun part member => (one part member).2) none,same,
        splitOn_intercalate _ (fun part member => (two part member).2) none']

theorem canonicalQuery_inj : canonicalQuery query = canonicalQuery other ↔ (segments query).Perm (segments other) := by
  rw [canonicalQuery_segments,canonicalQuery_segments]
  have sorted (query : Option Str) := perm_insertionSort (· ≤ ·) (segments query)
  constructor
  · intro same
    have equal := intercalate_inj (fun part member => segments_apart ((sorted query).mem_iff.mp member))
      (fun part member => segments_apart ((sorted other).mem_iff.mp member)) same
    exact (sorted query).symm.trans (equal ▸ sorted other)
  · intro order
    have equal := ((sorted query).trans (order.trans (sorted other).symm)).eq_of_pairwise'
      (pairwise_insertionSort (· ≤ ·) _) (pairwise_insertionSort (· ≤ ·) _)
    rw [equal]

theorem separated_newline (clean : separated text = false) : '\n' ∉ text := by
  intro member
  unfold separated at clean
  rw [any_eq_false] at clean
  exact clean '\n' member (by decide)

theorem mem_intercalate {separator : Char} {parts : List Str} {c : Char} (member : c ∈ [separator].intercalate parts) :
    c = separator ∨ ∃ part ∈ parts,c ∈ part := by
  induction parts with
  | nil => cases member
  | cons part rest ih =>
    cases rest with
    | nil => rw [intercalate_singleton] at member; exact .inr ⟨part,mem_cons_self,member⟩
    | cons next later =>
      rw [intercalate_cons_cons] at member
      rcases mem_append.mp member with front | back
      · rcases mem_append.mp front with inside | mark
        · exact .inr ⟨part,mem_cons_self,inside⟩
        · exact .inl (mem_singleton.mp mark)
      · rcases ih back with same | ⟨found,among,inside⟩
        · exact .inl same
        · exact .inr ⟨found,mem_cons_of_mem _ among,inside⟩

theorem intercalate_mem {separator : Char} {parts : List Str} {part : Str} {c : Char} (among : part ∈ parts) (inside : c ∈ part) :
    c ∈ [separator].intercalate parts := by
  induction parts with
  | nil => cases among
  | cons first rest ih =>
    cases rest with
    | nil =>
      rw [intercalate_singleton]
      rwa [mem_singleton.mp among] at inside
    | cons next later =>
      rw [intercalate_cons_cons]
      rcases mem_cons.mp among with rfl | deeper
      · exact mem_append_left _ (mem_append_left _ inside)
      · exact mem_append_right _ (ih deeper)

theorem canonicalQuery_newline (clean : ∀ text ∈ query,separated text = false) : '\n' ∉ canonicalQuery query := by
  rw [canonicalQuery_segments]
  intro member
  rcases mem_intercalate member with mark | ⟨segment,among,inside⟩
  · cases mark
  · have listed := (mem_filter.mp ((mem_insertionSort _).mp among)).1
    cases query with
    | none =>
      rw [Option.getD_none,splitOn_nil,mem_singleton] at listed
      rw [listed] at inside
      cases inside
    | some text =>
      refine separated_newline (clean text rfl) ?_
      rw [←@intercalate_splitOn _ text _ _ '&']
      exact intercalate_mem listed inside

theorem dated_newline (dated : (Listing.parseUnsigned (2^64) text).isSome = true) : '\n' ∉ text := by
  intro member
  unfold Listing.parseUnsigned at dated
  dsimp only at dated
  split at dated
  · cases dated
  · rename_i numeral
    simp only [not_or,not_not,all_eq_true] at numeral
    have digits (c) (inside : c ∈ Listing.dropPlus text) : c ≠ '\n' := by
      rintro rfl
      exact absurd (numeral.2 '\n' inside) (by decide)
    unfold Listing.dropPlus at digits
    split at digits
    · rcases mem_cons.mp member with plus | later
      · cases plus
      · exact digits '\n' later rfl
    · exact digits '\n' member rfl

theorem hex_newline (bytes : Bytes) : '\n' ∉ hex bytes := by
  intro member
  have digits := all_eq_true.mp (Repo.hex_lower bytes).2 '\n' member
  exact absurd digits (by decide)

theorem fields_newline (request : BoundRequest) : ∀ field ∈ [signingContext,request.method,request.path,canonicalQuery request.query,
    request.recipient,request.timestamp,hex (crates.blake3 request.body)],'\n' ∉ field := by
  obtain ⟨method,path,query,recipient⟩ := rejectSeparators_ok.mp request.clean
  simp only [forall_mem_cons]
  exact ⟨by decide,separated_newline method,separated_newline path,canonicalQuery_newline query,separated_newline recipient,
    dated_newline request.dated,hex_newline _,by simp⟩

-- One preimage stands for one request, up to the order of its query segments.
theorem preimage_injective (crates : ClusterCrates) (a b : BoundRequest) : a.preimage crates = b.preimage crates ↔
    a.method = b.method ∧ a.path = b.path ∧ (segments a.query).Perm (segments b.query) ∧ a.recipient = b.recipient ∧
      a.timestamp = b.timestamp ∧ crates.blake3 a.body = crates.blake3 b.body := by
  unfold BoundRequest.preimage preimage
  constructor
  · intro same
    have texts := Repo.RepoManifest.toUtf8_injective same
    have fields : [signingContext,a.method,a.path,canonicalQuery a.query,a.recipient,a.timestamp,hex (crates.blake3 a.body)] =
        [signingContext,b.method,b.path,canonicalQuery b.query,b.recipient,b.timestamp,hex (crates.blake3 b.body)] := by
      rw [←splitOn_intercalate _ (@fields_newline crates a) (by simp),texts,
        splitOn_intercalate _ (@fields_newline crates b) (by simp)]
    simp only [List.cons.injEq,and_true,true_and] at fields
    obtain ⟨method,path,query,recipient,timestamp,body⟩ := fields
    exact ⟨method,path,canonicalQuery_inj.mp query,recipient,timestamp,Buckets.hex_injective body⟩
  · rintro ⟨method,path,query,recipient,timestamp,body⟩
    rw [method,path,canonicalQuery_inj.mpr query,recipient,timestamp,body]

end Proofs
end HologramLive.Cluster
