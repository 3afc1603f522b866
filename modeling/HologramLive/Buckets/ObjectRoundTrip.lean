import HologramLive.Buckets.Objects
namespace HologramLive.Buckets
open Tables Fallible List
variable {subtle : Subtle}

def Blobs.Holds (reg : Blobs subtle) (block : Bytes) : Prop := reg.rows[blobDigest subtle block]? = some block

def Apart (subtle : Subtle) (some_ : Bytes → Prop) : Prop :=
  ∀ a b,some_ a → some_ b → subtle.digest a = subtle.digest b → a = b

theorem blobDigest_inj (same : blobDigest subtle a = blobDigest subtle b) : subtle.digest a = subtle.digest b :=
  hex_injective (append_cancel_left same)

theorem putBlob_ok {reg next : Blobs subtle}
    (ran : reg.putBlob accepts block = .ok (digest,next)) (apart : Apart subtle fun a => reg.Holds a ∨ a = block) :
    next.Holds block ∧ (∀ a,reg.Holds a → next.Holds a) ∧ ∀ a,next.Holds a → reg.Holds a ∨ a = block := by
  unfold Blobs.putBlob at ran
  dsimp only at ran
  split at ran
  · rename_i present
    cases ran
    obtain ⟨other,found⟩ := Option.isSome_iff_exists.mp present
    have named := reg.addressed _ _ found
    have held : reg.Holds other := by rw [Blobs.Holds,←named]; exact found
    have same := apart block other (.inr rfl) (.inl held) (blobDigest_inj named)
    refine ⟨?_,fun _ kept => kept,fun _ kept => .inl kept⟩
    rw [same]
    exact held
  · rename_i absent
    split at ran
    · cases ran
      refine ⟨?_,?_,?_⟩
      · simp [Blobs.Holds,Blobs.insert]
      · intro a held
        have other : blobDigest subtle block ≠ blobDigest subtle a := by
          intro same
          unfold Blobs.Holds at held; rw [same,held] at absent
          exact absent rfl
        unfold Blobs.Holds Blobs.insert; rw [get_insert,if_neg other]
        exact held
      · intro a held
        unfold Blobs.Holds Blobs.insert at held; rw [get_insert] at held
        split at held
        · cases held; exact .inr rfl
        · exact .inl held
    · cases ran

theorem Apart.mono (apart : Apart subtle some_) (sub : ∀ a,fewer a → some_ a) : Apart subtle fewer :=
  fun a b left right => apart a b (sub a left) (sub b right)

section Slices
variable {accepts : Blobs subtle → Bytes → Bool} {bkey : Option BucketKey}

end Slices

section Reading
variable {reg : Blobs subtle} {bkey : Option BucketKey} {block : Bytes}

end Reading

def nodeOf (subtle : Subtle) (bkey : Option BucketKey) (bytes : Bytes) : Bytes :=
  let leaves := ((slices bytes).map (sealed subtle bkey)).map (leafOf subtle)
  fileNode leaves (leaves.map Leaf.size).sum

def sent (subtle : Subtle) (bkey : Option BucketKey) (bytes : Bytes) : List Bytes :=
  toUtf8 ['\x7b','\x7d'] :: (slices bytes).map (sealed subtle bkey) ++ (if chunk < bytes.length then [nodeOf subtle bkey bytes] else [])

-- What a write leaves in the registry and returns.
structure Written (subtle : Subtle) (bkey : Option BucketKey) (bytes : Bytes) (entry : ObjectEntry) (reg : Blobs subtle) : Prop where
  leaves : ∀ slice ∈ slices bytes,reg.Holds (sealed subtle bkey slice)
  node : chunk < bytes.length → reg.Holds (nodeOf subtle bkey bytes)
  root : entry.root = if chunk < bytes.length then cidString dagPb (subtle.digest (nodeOf subtle bkey bytes))
    else cidString raw (subtle.digest (sealed subtle bkey bytes))
  blocks : entry.blocks = ((slices bytes).map (sealed subtle bkey) ++
    (if chunk < bytes.length then [nodeOf subtle bkey bytes] else [])).map fun block => (blobDigest subtle block,block.length)

section Writing
variable {accepts : Blobs subtle → Bytes → Bool} {bkey : Option BucketKey} {emptyPushed : Bool} {reg next : Blobs subtle}
  {key : Str} {file : File} {now : Nat} {entry : ObjectEntry}

end Writing
def Linked (subtle : Subtle) (child parent : Str) : Prop :=
  ∃ block,hashBytes subtle block = (cidToDigest parent).drop 7 ∧ child ∈ linksOf block

section Answers
variable {σ : Type} {blob : σ → Str → Except BucketError Bytes × σ} {key : Option BucketKey} {reg next : σ}

variable {cids : List Str}

variable {cid : Str}

variable {outcome : Except BucketError (List Bytes) × σ}

end Answers

def blank : Subtle where
  digest block :=
    if block = toUtf8 ['\x7b','\x7d'] then [0x44,0x13,0x6f,0xa3,0x55,0xb3,0x67,0x8a,0x11,0x46,0xad,0x16,0xf7,0xe8,0x64,0x9e,
      0x94,0xfb,0x4f,0xc2,0x1f,0xe7,0x7e,0x83,0x10,0xc0,0x60,0xf6,0x1c,0xaa,0xff,0x8a]
    else [0xe3,0xb0,0xc4,0x42,0x98,0xfc,0x1c,0x14,0x9a,0xfb,0xf4,0xc8,0x99,0x6f,0xb9,0x24,
      0x27,0xae,0x41,0xe4,0x64,0x9b,0x93,0x4c,0xa4,0x95,0x99,0x1b,0x78,0x52,0xb8,0x55]
  sign _ _ := replicate 32 0
  encrypt _ _ _ plain := plain ++ replicate 16 0
  decrypt _ _ _ sealed := some (sealed.take (sealed.length-16))
  digest_length block := by split <;> rfl
  sign_length _ _ := rfl
  encrypt_length _ _ _ plain := by simp
  decrypt_encrypt _ _ _ plain := by simp

end HologramLive.Buckets
