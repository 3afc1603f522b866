import HologramLive.Oci.Gc
import HologramLive.Lib.Runs
namespace HologramLive
open Tables

-- One call of the store or of a route. `older` is a volume as an older binary
-- left it, met by this one; `restart` is a crash and the next open.
inductive Op where
  | begin (repo : RepoName) (fresh : UploadId) (now : Nat)
  | append (id : UploadId) (offset : Nat) (frame : Bytes) (now : Nat)
  | finish (id : UploadId) (claimed : Digest)
  | cancel (id : UploadId)
  | restart
  | mount (target source : RepoName) (asked : Digest)
  | manifestPut (repo : RepoName) (reference : Reference) (mediaType : Str) (bytes : Bytes) (plan : ManifestPlan)
  | manifestGet (repo : RepoName) (reference : Reference)
  | tagsPage (repo : RepoName) (after : Option Str) (limit : Nat)
  | manifestDelete (repo : RepoName) (digest : Digest)
  | tagDelete (repo : RepoName) (tag : Tag)
  | deleteBlob (repo : RepoName) (digest : Digest)
  | collect (options : GcOptions)
  | older

namespace OciStore

variable (crates : Crates)

variable (s : OciStore)

def step : Op → OciStore
  | .begin repo fresh now => (s.uploadBegin repo fresh now).2
  | .append id offset frame now => (s.uploadAppend id offset frame now).2
  | .finish id claimed => (uploadFinish crates s id claimed).2
  | .cancel id => (s.uploadCancel id).2
  | .restart => s.restart
  | .mount target source asked => {s with toContent := (s.mount target source asked).2}
  | .manifestPut repo reference mediaType bytes plan => (manifestPut crates s repo reference mediaType bytes plan).2
  | .manifestGet repo reference => (s.manifestGet repo reference).2
  | .tagsPage repo after limit => (s.tagsPage repo after limit).2
  | .manifestDelete repo digest => (s.manifestDelete repo digest).2
  | .tagDelete repo tag => (s.tagDelete repo tag).2
  | .deleteBlob repo digest => {s with toContent := (s.deleteBlob repo digest).2}
  | .collect options => (collect crates s options).store
  | .older => {s with toContent := s.forgetTheObjectTable}

-- An identifier the generator may return: no trace of a session has it.
def Unused (id : UploadId) : Prop :=
  s.sessions[id]? = none ∧ s.uploads[id]? = none ∧ s.staging[id]? = none ∧ s.uploadSessions[id]? = none

instance (s : OciStore) (id : UploadId) : Decidable (s.Unused id) := by unfold Unused; infer_instance

def Allowed : Op → Prop
  | .begin _ fresh _ => s.Unused fresh
  | _ => True

instance (s : OciStore) (op : Op) : Decidable (s.Allowed op) := by cases op <;> unfold Allowed <;> infer_instance

structure Staged (s : OciStore) (id : UploadId) where
  state : SessionState
  session : DiskUploadSession
  bytes : Bytes
  live : s.sessions[id]? = some state
  attached : s.uploadSessions[state.kappaId]? = some session
  held : s.staging[state.kappaId]? = some bytes

def stagedOf (id : UploadId) : Option (DiskUploadSession × Bytes) :=
  match s.sessions[id]? with
  | none => none
  | some state => match s.uploadSessions[state.kappaId]?,s.staging[state.kappaId]? with
    | some session,some bytes => some (session,bytes)
    | _,_ => none

theorem Staged.found {s : OciStore} {id : UploadId} (staged : Staged s id) :
    s.stagedOf id = some (staged.session,staged.bytes) := by
  simp [stagedOf,staged.live,staged.attached,staged.held]

theorem stagedOf_some {s : OciStore} {id : UploadId} {session : DiskUploadSession} {bytes : Bytes}
    (found : s.stagedOf id = some (session,bytes)) : ∃ staged : Staged s id,staged.bytes = bytes := by
  unfold stagedOf at found
  split at found
  · cases found
  · rename_i state live
    split at found
    · rename_i opened held attached stored
      cases found
      exact ⟨⟨state,session,bytes,live,attached,stored⟩,rfl⟩
    · cases found

-- The bytes a call hands to the hash functions are among those `held` says.
def Handles (held : Bytes → Prop) (s : OciStore) : Op → Prop
  | .finish id _ => ∀ staged ∈ s.stagedOf id,held staged.2 ∧ held (crates.partManifest staged.1.parts)
  | .manifestPut _ _ _ bytes _ => held bytes
  | _ => True

instance (crates : Crates) (held : Bytes → Prop) [DecidablePred held] (s : OciStore) (op : Op) :
    Decidable (s.Handles crates held op) := by
  cases op <;> unfold Handles <;> infer_instance

def Next (held : Bytes → Prop) (s t : OciStore) : Prop :=
  ∃ op,s.Allowed op ∧ s.Handles crates held op ∧ t = s.step crates op

def Reachable (held : Bytes → Prop) (s : OciStore) : Prop :=
  Runs.Reached (· = created) (Next crates held) s

def runFrom (ops : List Op) : OciStore := ops.foldl (step crates) s

def Legal (crates : Crates) (held : Bytes → Prop) : OciStore → List Op → Prop
  | _,[] => True
  | s,op :: rest => s.Allowed op ∧ s.Handles crates held op ∧ Legal crates held (s.step crates op) rest

instance legalDecidable (crates : Crates) (held : Bytes → Prop) [DecidablePred held] :
    (s : OciStore) → (ops : List Op) → Decidable (Legal crates held s ops)
  | _,[] => .isTrue trivial
  | s,op :: rest =>
    have := legalDecidable crates held (s.step crates op) rest
    inferInstanceAs (Decidable (s.Allowed op ∧ s.Handles crates held op ∧ Legal crates held (s.step crates op) rest))

theorem Reachable.run {crates : Crates} {held : Bytes → Prop} {s : OciStore} {ops : List Op}
    (reached : Reachable crates held s) (legal : Legal crates held s ops) :
    Reachable crates held (runFrom crates s ops) := by
  induction ops generalizing s with
  | nil => exact reached
  | cons op rest ih =>
    obtain ⟨allowed,handles,later⟩ := legal
    exact ih (.step reached ⟨op,allowed,handles,rfl⟩) later

end OciStore

-- A small world to evaluate in: one layer, three manifests, and the records the
-- store keeps of the uploads, with their digests.
namespace Sample

def hexText : Nat → Nat → Str → Str
  | 0,_,rest => rest
  | width + 1,n,rest => hexText width (n / 16) (Nat.digitChar (n % 16) :: rest)

def hexBytes : Nat → Nat → Bytes → Bytes
  | 0,_,rest => rest
  | width + 1,n,rest => hexBytes width (n / 256) (UInt8.ofNat n :: rest)

def layer : Bytes := hexBytes 1 0x62 []
def layerRow : HashRow := ⟨layer,fun
  | .sha256 => hexText 64 0x3e23e8160039594a33894f6564e1b1348bbd7a0088d42c4acb73eeaed59c009d []
  | .sha512 => hexText 64 0x5267768822ee624d48fce15ec5ca79cbd602cb7f4c2157a516556991f22ef8c7
      (hexText 64 0xb5ef7b18d1ff41c59370efb0858651d44a936c11b7b144c48fe04df3c6a3e8da [])
  | .blake3 => hexText 64 0x10e5cf3d3c8a4f9f3468c8cc58eea84892a22fdadbc1acb22410190044c1d553 []⟩
def plainManifest : Bytes := hexBytes 19 0x7b22736368656d6156657273696f6e223a327d []
def plainManifestRow : HashRow := ⟨plainManifest,fun
  | .sha256 => hexText 64 0xbafebd36189ad3688b7b3915ea55d461e0bfcfbdde11e54b0a123999fb6be50f []
  | .sha512 => hexText 64 0x63f87a5b21b700711f6dd1cabacfdea21e33fb2fb220d00be07d7fcd1de3f085
      (hexText 64 0xe5b7ee51c25be6b9a5f054d904f36da93e0fff53fdd5fb223acd8075bc5ff465 [])
  | .blake3 => hexText 64 0x25f5f00401b01f8856bfa1d0cfa03410541c9d7e1889f5085d2a0bef4a339315 []⟩
def imageManifest : Bytes :=
  hexBytes 40 0x7b22736368656d6156657273696f6e223a322c22636f6e666967223a7b22646967657374223a2273 <|
  hexBytes 40 0x68613235363a33653233653831363030333935393461333338393466363536346531623133343862 <|
  hexBytes 33 0x626437613030383864343263346163623733656561656435396330303964227d7d []
def imageManifestRow : HashRow := ⟨imageManifest,fun
  | .sha256 => hexText 64 0x41d10858bc365ea6e49c7a370613edecfb1518ffecdcbcb22610eead94dbd91a []
  | .sha512 => hexText 64 0x07d636ad5f2336cff456d63182b2d64b44b94c932688fa4e759ee1909371359b
      (hexText 64 0xd9fa8349a0410c650961b4c8f5994c228ea36b397b7ac04329dc55c4e9918b77 [])
  | .blake3 => hexText 64 0xe274c6719f9e20dff1cffc78180e0b537de730ef5b7afcf0a0d4e4cdd4d38fae []⟩
-- {"schemaVersion":2,"subject":{"digest":"blake3:25f5f00401b01f8856bfa1d0cfa03410541c9d7e1889f5085d2a0bef4a339315"}}
def signature : Bytes :=
  hexBytes 40 0x7b22736368656d6156657273696f6e223a322c227375626a656374223a7b22646967657374223a22 <|
  hexBytes 40 0x626c616b65333a323566356630303430316230316638383536626661316430636661303334313035 <|
  hexBytes 34 0x34316339643765313838396635303835643261306265663461333339333135227d7d []
def signatureRow : HashRow := ⟨signature,fun
  | .sha256 => hexText 64 0x23aea1a4d899ef98d114023cfb758fcd1ee7d334ae0d4f7298d18606702f475d []
  | .sha512 => hexText 64 0xdb27f11247f3d9de1d4be64d56984df7ec1bd3df3f5a58abeca8f92fe8efc979
      (hexText 64 0xfb03651978c8746e65ece643d489909275114c605abd5211ee9470d3a043dc29 [])
  | .blake3 => hexText 64 0x93bf382c19f496719f75f888abf5f228600666e28c50830a8dc0e7fc9c09cb3c []⟩
-- {"parts":[{"crc32c":3531649220,"crc64nvme":980822774481512375,"md5":"92eb5ffee6ae2fec3ad71c777531578f","offset":0,"part_number":1,"size":1}],"total_parts":1}
def layerRecord : Bytes :=
  hexBytes 40 0x7b227061727473223a5b7b22637263333263223a333533313634393232302c2263726336346e766d <|
  hexBytes 40 0x65223a3938303832323737343438313531323337352c226d6435223a223932656235666665653661 <|
  hexBytes 40 0x653266656333616437316337373735333135373866222c226f6666736574223a302c22706172745f <|
  hexBytes 37 0x6e756d626572223a312c2273697a65223a317d5d2c22746f74616c5f7061727473223a317d []
def layerRecordRow : HashRow := ⟨layerRecord,fun
  | .sha256 => hexText 64 0x1e2f56dfc8c52a4ec5eff7e1e6b43d32deb7c336cdf12d18d922974cd0fc4c7d []
  | .sha512 => hexText 64 0x629c79bed8d3a396dddd6f2f14914a5db36b7646f5a34cd4ef3f8bb4088f7951
      (hexText 64 0x6692a6e4ac6db39bd5399efa3c760759649289a5dfb59db7c539e8e217c1984b [])
  | .blake3 => hexText 64 0x8e958fd73ae0678f44c976c286d964cc86ea70ebd83f7a9aa1478c524fcef156 []⟩
-- {"parts":[{"crc32c":4103621166,"crc64nvme":8699014953710487404,"md5":"21bf779fab705f805f3cb46ac2da0304","offset":0,"part_number":1,"size":19}],"total_parts":1}
def plainRecord : Bytes :=
  hexBytes 40 0x7b227061727473223a5b7b22637263333263223a343130333632313136362c2263726336346e766d <|
  hexBytes 40 0x65223a383639393031343935333731303438373430342c226d6435223a2232316266373739666162 <|
  hexBytes 40 0x37303566383035663363623436616332646130333034222c226f6666736574223a302c2270617274 <|
  hexBytes 39 0x5f6e756d626572223a312c2273697a65223a31397d5d2c22746f74616c5f7061727473223a317d []
def plainRecordRow : HashRow := ⟨plainRecord,fun
  | .sha256 => hexText 64 0xb8b5e9fd498b6eecdf6db0046459a59eb47e92a61f34271609667a7bd1482194 []
  | .sha512 => hexText 64 0xf686e7a140fd6f697cdbb245858121a1fbc8bc86d78d95b07ebb713b07da93bf
      (hexText 64 0x7d625c89e047f37cc32e62248cc69681e33640fb255de69a77c3f3c7987568d1 [])
  | .blake3 => hexText 64 0xb6579635eebbdafe9eb9708794fb70879e0be9c2dfa55b3906fad2ba4a8b3638 []⟩

def schema : Str × OciJson := ("schemaVersion".toList,.number "2".toList)
def descriptor (algorithm : Algorithm) (row : HashRow) : OciJson :=
  .object [("digest".toList,.string (algorithm.name ++ ':' :: row.hex algorithm))]

def crates : Crates :=
  .tabled [layerRow,plainManifestRow,imageManifestRow,signatureRow,layerRecordRow,plainRecordRow]
    [(plainManifest,.object [schema]),
      (imageManifest,.object [schema,("config".toList,descriptor .sha256 layerRow)]),
      (signature,.object [schema,("subject".toList,descriptor .blake3 plainManifestRow)])]
    fun parts => if parts = [(0,layer)] then layerRecord else if parts = [(0,plainManifest)] then plainRecord else []

def Held (bytes : Bytes) : Prop :=
  bytes ∈ [layer,plainManifest,imageManifest,signature,layerRecord,plainRecord]
instance : DecidablePred Held := fun bytes => inferInstanceAs (Decidable (bytes ∈ _))

theorem distinguishes : crates.Distinguishes Held := by
  have apart : ∀ algorithm ∈ [Algorithm.sha256,.sha512,.blake3],
      ∀ left ∈ [layer,plainManifest,imageManifest,signature,layerRecord,plainRecord],
      ∀ right ∈ [layer,plainManifest,imageManifest,signature,layerRecord,plainRecord],
      crates.digestOf algorithm left = crates.digestOf algorithm right → left = right := by decide +kernel
  intro algorithm left right here there
  exact apart algorithm (by cases algorithm <;> simp) left here right there

def app : RepoName := ⟨"app".toList,by decide⟩
def base : RepoName := ⟨"base".toList,by decide⟩
def latest : Tag := ⟨"latest".toList,by decide⟩
def first : UploadId :=
  ⟨hexText 8 0x6f1c2a9e ('-' :: hexText 4 0x3b7d ('-' :: hexText 4 0x4c55 ('-' :: hexText 4 0x9f0a
    ('-' :: hexText 12 0x2d8e7b6a5c41 [])))),by decide⟩
def second : UploadId :=
  ⟨hexText 8 0x0b1d4f7a ('-' :: hexText 4 0x91c2 ('-' :: hexText 4 0x4e3b ('-' :: hexText 4 0x8a6d
    ('-' :: hexText 12 0x5f2e7c9b1a30 [])))),by decide⟩
def name (algorithm : Algorithm) (bytes : Bytes) : Digest := crates.digestOf algorithm bytes

def plain : ManifestPlan := ⟨.manifest,[],none,by decide⟩
def image : ManifestPlan := ⟨.manifest,[name .sha256 layer],none,by decide⟩
def signs : ManifestPlan := ⟨.manifest,[],some ⟨name .blake3 plainManifest,none,none⟩,by decide⟩

def push (repo : RepoName) (id : UploadId) (bytes : Bytes) (algorithm : Algorithm) : List Op :=
  [.begin repo id 0,.append id 0 bytes 0,.finish id (name algorithm bytes)]

def after (ops : List Op) : OciStore := OciStore.runFrom crates .created ops

end Sample
end HologramLive
