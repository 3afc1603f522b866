import HologramLive.Holo.Directory
namespace HologramLive

-- A codec that knows the rows of a table, each value under its bytes.
def tableDecode {α : Type} (rows : List (Bytes × α)) (bytes : Bytes) : Except Str α :=
  match rows.find? fun row => row.1 = bytes with
  | some row => .ok row.2
  | none => .error "unknown bytes".toList

def tableEncode {α : Type} [DecidableEq α] (rows : List (Bytes × α)) (value : α) : Bytes :=
  match rows.find? fun row => row.2 = value with
  | some row => row.1
  | none => []

open List

theorem tableDecode_mem {α : Type} {rows : List (Bytes × α)} {value : α}
    (decoded : tableDecode rows bytes = .ok value) : (bytes,value) ∈ rows := by
  unfold tableDecode at decoded
  split at decoded
  · rename_i row found
    cases decoded
    have same : row.1 = bytes := by simpa using find?_some found
    rw [←same]
    exact mem_of_find?_eq_some found
  · cases decoded

theorem tableDecode_of_mem {α : Type} {rows : List (Bytes × α)} (distinct : (rows.map (·.1)).Nodup)
    {value : α} (member : (bytes,value) ∈ rows) : tableDecode rows bytes = .ok value := by
  induction rows with
  | nil => cases member
  | cons row rest ih =>
    rw [map_cons,nodup_cons] at distinct
    unfold tableDecode
    rw [find?_cons]
    obtain here | later := mem_cons.mp member
    · rw [←here]
      simp
    · have other : row.1 ≠ bytes := fun same => distinct.1 (same ▸ mem_map.mpr ⟨_,later,rfl⟩)
      have others := ih distinct.2 later
      unfold tableDecode at others
      simpa [other] using others

theorem tableEncode_mem {α : Type} [DecidableEq α] {rows : List (Bytes × α)} {value : α}
    (member : (bytes,value) ∈ rows) : (tableEncode rows value,value) ∈ rows := by
  unfold tableEncode
  cases found : rows.find? fun row => row.2 = value with
  | none =>
    have absent := find?_eq_none.mp found _ member
    simp at absent
  | some row =>
    have same : row.2 = value := by simpa using find?_some found
    rw [←same]
    exact mem_of_find?_eq_some found

def tableAdmits (grant request : Capabilities) : Bool :=
  request.storageRoots.all (· ∈ grant.storageRoots) && decide (request.storageQuotaBytes ≤ grant.storageQuotaBytes) &&
    request.networkFetchEndpoints.all (· ∈ grant.networkFetchEndpoints) &&
    request.networkAnnounceEndpoints.all (· ∈ grant.networkAnnounceEndpoints) &&
    request.publishChannels.all (· ∈ grant.publishChannels) &&
    request.subscribeChannels.all (· ∈ grant.subscribeChannels) &&
    decide (request.memoryMaxBytes ≤ grant.memoryMaxBytes) &&
    decide (request.cpuTimePerEventMs ≤ grant.cpuTimePerEventMs) &&
    decide (request.priorityWeight ≤ grant.priorityWeight)

def tableAddress (bytes : Bytes) : Kappa := "blake3:".toList ++ hex bytes

def Hologram.tabled (manifests : List (Bytes × AppManifest)) (capabilities : List (Bytes × Capabilities))
    (directories : List (Bytes × HoloDirectory)) (archives : List (Bytes × HoloLoader)) : Hologram where
  addressBytes := tableAddress
  fromBytes := tableDecode archives
  decodeManifest := tableDecode manifests
  validateManifest _ := .ok ()
  canonicalizeManifest := tableEncode manifests
  toCapabilities := tableDecode capabilities
  canonicalizeCapabilities := tableEncode capabilities
  admits := tableAdmits
  directoryToVec := tableEncode directories
  directoryFromSlice := tableDecode directories
  wasmContracts := ["core".toList,"component".toList]

theorem tabled_readsBack {manifests : List (Bytes × AppManifest)} (distinct : (manifests.map (·.1)).Nodup)
    (capabilities : List (Bytes × Capabilities)) (directories : List (Bytes × HoloDirectory))
    (archives : List (Bytes × HoloLoader)) :
    (Hologram.tabled manifests capabilities directories archives).ManifestReadsBack := by
  intro bytes manifest decoded _
  exact tableDecode_of_mem distinct (tableEncode_mem (tableDecode_mem decoded))

theorem all_mem_trans {α : Type} [BEq α] [LawfulBEq α] {first second third : List α} (one : second.all (· ∈ first) = true)
    (two : third.all (· ∈ second) = true) : third.all (· ∈ first) = true := by
  simp only [all_eq_true,decide_eq_true_eq] at one two ⊢
  exact fun item member => one item (two item member)

theorem tableAdmits_refl (grant : Capabilities) : tableAdmits grant grant = true := by
  simp [tableAdmits]

theorem tableAdmits_trans {grant delegated request : Capabilities} (one : tableAdmits grant delegated = true)
    (two : tableAdmits delegated request = true) : tableAdmits grant request = true := by
  simp only [tableAdmits,Bool.and_eq_true,decide_eq_true_eq] at one two ⊢
  obtain ⟨⟨⟨⟨⟨⟨⟨⟨a,b⟩,c⟩,d⟩,e⟩,f⟩,g⟩,h⟩,i⟩ := one
  obtain ⟨⟨⟨⟨⟨⟨⟨⟨a',b'⟩,c'⟩,d'⟩,e'⟩,f'⟩,g'⟩,h'⟩,i'⟩ := two
  exact ⟨⟨⟨⟨⟨⟨⟨⟨all_mem_trans a a',Nat.le_trans b' b⟩,all_mem_trans c c'⟩,all_mem_trans d d'⟩,all_mem_trans e e'⟩,
    all_mem_trans f f'⟩,Nat.le_trans g' g⟩,Nat.le_trans h' h⟩,Nat.le_trans i' i⟩

def familyBlobs : List Bytes := [[2],[3],[4]]

def familyParent : AppManifest :=
  ⟨some 0,tableAddress [3],[⟨.view,tableAddress [4],"index.html".toList,"dom".toList⟩],
    [(tableAddress [2],tableAddress [3])]⟩

def familyChild : AppManifest :=
  ⟨none,tableAddress [3],[⟨.view,tableAddress [4],"child.html".toList,"dom".toList⟩],[]⟩

def familyDirectory (blobs : List Bytes) : HoloDirectory :=
  ⟨1,some 0,tableAddress [3],
    [⟨0,"view".toList,tableAddress [4],"index.html".toList,none,none,some "dom".toList,none⟩],
    [⟨0,tableAddress [2],tableAddress [3],none,none,none,none,none⟩],blobs.map fun bytes => ⟨tableAddress bytes,1⟩⟩

def familyArchive : Bytes := [72,79,76,79,4,0]
def thinArchive : Bytes := [72,79,76,79,4,0,0]

def familyLoader (directory : Bytes) (blobs : List Bytes) : HoloLoader where
  fingerprint := [171]
  intoPlan := .ok ⟨some [1],.ok [(Directory.extensionKey,directory)],
    .ok (blobs.map fun bytes => (toUtf8 (tableAddress bytes),bytes))⟩

def family : Hologram :=
  .tabled [([1],familyParent),([2],familyChild)] [([3],emptyCapabilities)]
    [([5],familyDirectory familyBlobs),([6],familyDirectory [])]
    [(familyArchive,familyLoader [5] familyBlobs),(thinArchive,familyLoader [6] [])]

end HologramLive
