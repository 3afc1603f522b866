import HologramLive.Oci.Effects
import HologramLive.Oci.Import
namespace HologramLive.Import
open Tables Content

-- What a tree asks of the store it is imported into.
section Asked
variable (w : Reading) (v : Volume) (root : Path)

def layerDigests (repo : RepoName) : List Digest :=
  (linksUnder v (repoDir root repo.text ++ [layersDir])).filterMap fun found => found.1.toOption
def revisionDigests (repo : RepoName) : List Digest :=
  (linksUnder v (repoDir root repo.text ++ [manifestsDir,"revisions".toList])).filterMap fun found => found.1.toOption

def planned (digest : Digest) : Option (Str × Bytes × ManifestPlan) :=
  match readManifest v (blobData root digest) with
  | .ok (some bytes) => match w.plan (storedMediaType w.crates bytes) bytes with
    | .ok (mediaType,plan) => some (mediaType,bytes,plan)
    | .error _ => none
  | _ => none

def Asked (repo : RepoName) (digest : Digest) : Prop :=
  digest ∈ layerDigests v root repo ∨ digest ∈ revisionDigests v root repo ∨
    ∃ other ∈ revisionDigests v root repo,∃ found ∈ planned w v root other,digest ∈ found.2.2.mustExist

def Good (digest : Digest) : Prop :=
  ∃ bytes,v[blobData root digest]? = some (.file bytes) ∧ w.crates.digestOf digest.algorithm bytes = digest

end Asked

def aliasLinked (c : Content) (repo : RepoName) (digest : Digest) : Bool :=
  match c.aliasOf digest with
  | some other => (c.linkGet repo other).isSome
  | none => false

def shareable (c : Content) (digest : Digest) : Bool :=
  match c.aliasOf digest with
  | some other => (c.blobs[digest]?).isSome || (c.blobs[other]?).isSome
  | none => false

variable {repo : RepoName} {digest : Digest}

theorem linkedUnder_iff : c.LinkedUnder repo digest ↔ c.Linked repo digest ∨ aliasLinked c repo digest = true := by
  unfold Content.LinkedUnder aliasLinked Content.Linked
  cases c.aliasOf digest <;> simp

theorem isOk_requireLink {c : Content} : isOk (c.requireLink repo digest) = true ↔ c.LinkedUnder repo digest := by
  rw [←requireLink_ok]
  cases c.requireLink repo digest <;> simp [isOk]

theorem shareable_iff : ((c.aliasOf digest).isSome && isOk (c.resolveStored repo digest)) = shareable c digest := by
  unfold shareable resolveStored
  cases named : c.aliasOf digest with
  | none => rfl
  | some other =>
    dsimp only
    generalize c.blobs[digest]? = own
    generalize c.blobs[other]? = twin
    cases own <;> cases twin <;> rfl

section Due
variable (w : Reading) (v : Volume) (root : Path) (found : List Str) (c₀ c₁ : Content)

-- Since the start, no name the tree asks for, and a repository does not link itself,
-- has come to be linked through the alias table or has ceased to be; and none whose
-- bytes the tree does not give has come to be held or ceased to be.
def Steady (c : Content) : Prop :=
  ∀ repo digest,Asked w v root repo digest → ¬c.Linked repo digest →
    aliasLinked c repo digest = aliasLinked c₀ repo digest ∧
      (¬Good w v root digest → shareable c digest = shareable c₀ digest)

-- What the tree brings to a repository: its layers, then the manifests that name
-- nothing else.
def LayerDue (repo : RepoName) (digest : Digest) : Prop :=
  digest ∈ layerDigests v root repo ∧ ¬c₀.LinkedUnder repo digest ∧ isFile v (blobData root digest) = true ∧
    (Good w v root digest ∨ shareable c₀ digest = true)

inductive Due (repo : RepoName) : Digest → Prop
  | layer {digest : Digest} (due : LayerDue w v root c₀ repo digest) : Due repo digest
  | manifest {digest : Digest} {mediaType : Str} {bytes : Bytes} {plan : ManifestPlan}
      (revision : digest ∈ revisionDigests v root repo) (unlinked : ¬c₀.LinkedUnder repo digest)
      (planned : planned w v root digest = some (mediaType,bytes,plan))
      (hashed : w.crates.digestOf digest.algorithm bytes = digest)
      (named : ∀ needed ∈ plan.mustExist,¬c₀.LinkedUnder repo needed → Due repo needed) : Due repo digest

def Wanted (repo : RepoName) (digest : Digest) : Prop := repo.text ∈ found ∧ Due w v root c₀ repo digest

open Classical in
noncomputable def wantedLink (repo : RepoName) (digest : Digest) : Link :=
  if LayerDue w v root c₀ repo digest then ⟨.blob,none⟩
  else match planned w v root digest with
    | some (mediaType,_,plan) => Link.durable ⟨plan.kind,some mediaType⟩
    | none => ⟨.blob,none⟩

open Classical in
noncomputable def finalLink (repo : RepoName) (digest : Digest) : Option Link :=
  match c₀.linkGet repo digest with
  | some link => some link
  | none => if Wanted w v root found c₀ repo digest then some (wantedLink w v root c₀ repo digest) else none

def tagsDir (repo : RepoName) : Path := repoDir root repo.text ++ [manifestsDir,"tags".toList]
def tagNames (repo : RepoName) : List Str := match readDir v (tagsDir root repo) with
  | .ok names => names
  | .error _ => []
def tagAsked (repo : RepoName) (tag : Tag) : Option Digest :=
  if repo.text ∈ found ∧ tag.text ∈ tagNames v root repo then
    (tagLink v (tagsDir root repo ++ [tag.text] ++ ["current".toList,"link".toList])).toOption
  else none

def entryFor (c : Content) (repo : RepoName) (tag : Tag) (digest : Digest) : TagEntry :=
  ⟨digest,(match c.tags[(repo,tag)]? with
    | some entry => entry.version
    | none => 0)+1⟩

open Classical in
noncomputable def dueTag (repo : RepoName) (tag : Tag) : Option TagEntry :=
  match tagAsked v root found repo tag with
  | none => c₀.tags[(repo,tag)]?
  | some digest =>
    if (∃ link ∈ finalLink w v root found c₀ repo digest,link.kind ≠ .blob) ∧
      (c₀.tags[(repo,tag)]?).map (·.kappa) ≠ some digest then some (entryFor c₀ repo tag digest)
    else c₀.tags[(repo,tag)]?

-- A store on the way from the start to the end, in an import that began at `c₁`.
structure Between (c : Content) : Prop where
  since : ∀ repo digest,c₁.Linked repo digest → c.Linked repo digest
  kept : ∀ repo digest link,c₀.linkGet repo digest = some link → c.linkGet repo digest = some link
  only : ∀ repo digest link,c.linkGet repo digest = some link →
    c₀.linkGet repo digest = some link ∨ (Wanted w v root found c₀ repo digest ∧ link = wantedLink w v root c₀ repo digest)
  steady : Steady w v root c₀ c
  tags : ∀ repo tag,c.tags[(repo,tag)]? = c₀.tags[(repo,tag)]? ∨ c.tags[(repo,tag)]? = dueTag w v root found c₀ repo tag
  held : ∀ repo digest link,c.linkGet repo digest = some link → c₀.linkGet repo digest = none → link.kind ≠ .blob →
    ∃ bytes,c.blobs[digest]? = some bytes

def AllDue (c : Content) : Prop := ∀ repo digest,Wanted w v root found c₀ repo digest → c.Linked repo digest

-- What every step of an import keeps. Blobs come with what was not linked when it
-- began.
structure Grown (c after : Content) : Prop where
  linked : ∀ repo digest,c.Linked repo digest → after.Linked repo digest
  tagged : ∀ repo tag,c.tags[(repo,tag)]? = dueTag w v root found c₀ repo tag →
    after.tags[(repo,tag)]? = dueTag w v root found c₀ repo tag
  settled : AllDue w v root found c₀ c₁ → after.blobs = c.blobs

end Due

section Between
variable {w : Reading} {v : Volume} {root : Path} {found : List Str} {c₀ c₁ c after : Content}

theorem Wanted.unlinked (wanted : Wanted w v root found c₀ repo digest) : ¬c₀.LinkedUnder repo digest := by
  cases wanted.2 with
  | layer due => exact due.2.1
  | manifest _ unlinked _ _ _ => exact unlinked

theorem Wanted.absent (wanted : Wanted w v root found c₀ repo digest) : c₀.linkGet repo digest = none := by
  have unlinked := wanted.unlinked
  cases held : c₀.linkGet repo digest with
  | none => rfl
  | some link => exact absurd (.inl (by rw [Content.Linked,held]; rfl)) unlinked

theorem linkGet_of_linked (linked : c.Linked repo digest) :
    ∃ link,c.linkGet repo digest = some link := Option.isSome_iff_exists.mp linked

theorem Between.refl (c₀ : Content) : Between w v root found c₀ c₀ c₀ where
  since _ _ held := held
  kept _ _ _ held := held
  only _ _ _ held := .inl held
  steady _ _ _ _ := ⟨rfl,fun _ => rfl⟩
  tags _ _ := .inl rfl
  held _ _ _ here none := by rw [none] at here; cases here

theorem Between.again (between : Between w v root found c₀ c₁ c) : Between w v root found c₀ c c :=
  {between with since := fun _ _ held => held}

theorem Between.final (between : Between w v root found c₀ c₁ c)
    (held : c.linkGet repo digest = some link) : finalLink w v root found c₀ repo digest = some link := by
  unfold finalLink
  rcases between.only repo digest link held with first | ⟨wanted,rfl⟩
  · rw [first]
  · rw [wanted.absent]
    exact if_pos wanted

theorem Between.under (between : Between w v root found c₀ c₁ c)
    (asked : Asked w v root repo digest) (unlinked : ¬c.LinkedUnder repo digest) : ¬c₀.LinkedUnder repo digest := by
  rw [linkedUnder_iff,not_or] at unlinked ⊢
  refine ⟨?_,?_⟩
  · intro first
    obtain ⟨link,held⟩ := linkGet_of_linked first
    exact unlinked.1 (Option.isSome_iff_exists.mpr ⟨link,between.kept repo digest link held⟩)
  · rw [←(between.steady repo digest asked unlinked.1).1]
    exact unlinked.2

theorem Between.reached (between : Between w v root found c₀ c₁ c)
    (asked : Asked w v root repo digest) (first : c₀.LinkedUnder repo digest) : c.LinkedUnder repo digest := by
  by_contra unlinked
  exact between.under asked unlinked first

theorem Between.links (between : Between w v root found c₀ c₁ c) (steady : Steady w v root c₀ after)
    (links : ∀ repo digest,after.linkGet repo digest = c.linkGet repo digest ∨
      (Wanted w v root found c₀ repo digest ∧ after.linkGet repo digest = some (wantedLink w v root c₀ repo digest) ∧
        ((wantedLink w v root c₀ repo digest).kind ≠ .blob → ∃ bytes,after.blobs[digest]? = some bytes)))
    (tags : after.tags = c.tags)
    (blobs : ∀ (digest : Digest) (bytes : Bytes),c.blobs[digest]? = some bytes → after.blobs[digest]? = some bytes) :
    Between w v root found c₀ c₁ after where
  since repo digest before := by
    have linked := between.since repo digest before
    unfold Content.Linked at linked ⊢
    rcases links repo digest with same | ⟨-,placed,-⟩
    · rw [same]; exact linked
    · rw [placed]; rfl
  kept repo digest link held := by
    rcases links repo digest with same | ⟨wanted,-,-⟩
    · rw [same]; exact between.kept repo digest link held
    · rw [wanted.absent] at held; cases held
  only repo digest link held := by
    rcases links repo digest with same | ⟨wanted,placed,-⟩
    · rw [same] at held; exact between.only repo digest link held
    · rw [placed] at held; exact .inr ⟨wanted,(Option.some.inj held).symm⟩
  steady := steady
  tags repo tag := by rw [tags]; exact between.tags repo tag
  held repo digest link here fresh kind := by
    rcases links repo digest with same | ⟨-,placed,stored⟩
    · rw [same] at here
      obtain ⟨bytes,stored⟩ := between.held repo digest link here fresh kind
      exact ⟨bytes,blobs digest bytes stored⟩
    · rw [placed] at here
      cases here
      exact stored kind

theorem Between.rest (between : Between w v root found c₀ c₁ c) (steady : Steady w v root c₀ after) (links : after.links = c.links)
    (tags : after.tags = c.tags)
    (blobs : ∀ (digest : Digest) (bytes : Bytes),c.blobs[digest]? = some bytes → after.blobs[digest]? = some bytes) :
    Between w v root found c₀ c₁ after :=
  between.links steady (fun repo digest => .inl (by unfold linkGet; rw [links])) tags blobs

theorem Between.tag (between : Between w v root found c₀ c₁ c) {tag : Tag}
    (due : some entry = dueTag w v root found c₀ repo tag) (links : after.links = c.links) (blobs : after.blobs = c.blobs)
    (aliases : after.aliases = c.aliases) (tags : after.tags = c.tags.insert (repo,tag) entry) :
    Between w v root found c₀ c₁ after := by
  have same (repo : RepoName) (digest : Digest) : after.linkGet repo digest = c.linkGet repo digest := by
    unfold linkGet; rw [links]
  have linked (repo : RepoName) (digest : Digest) (before : c.Linked repo digest) : after.Linked repo digest := by
    unfold Content.Linked at before ⊢
    rw [same]; exact before
  refine ⟨fun repo digest before => linked repo digest (between.since repo digest before),
    fun repo digest link held => (same repo digest).trans (between.kept repo digest link held),
    fun repo digest link held => between.only repo digest link ((same repo digest).symm.trans held),?_,?_,?_⟩
  · intro other digest asked unlinked
    have before : ¬c.Linked other digest := by
      unfold Content.Linked at unlinked ⊢
      rw [←same]; exact unlinked
    have linked : aliasLinked after other digest = aliasLinked c other digest := by
      unfold aliasLinked aliasOf
      rw [aliases]
      simp only [same]
    have shared : shareable after digest = shareable c digest := by
      unfold shareable aliasOf
      rw [aliases,blobs]
    rw [linked,shared]
    exact between.steady other digest asked before
  · intro other name
    rw [tags,get_insert]
    split
    · rename_i equal
      obtain ⟨rfl,rfl⟩ := Prod.mk.inj equal
      exact .inr due
    · exact between.tags other name
  · intro other digest link held fresh kind
    rw [same] at held
    rw [blobs]
    exact between.held other digest link held fresh kind

theorem Grown.refl (c : Content) : Grown w v root found c₀ c₁ c c := ⟨fun _ _ held => held,fun _ _ held => held,fun _ => rfl⟩

theorem Grown.trans (left : Grown w v root found c₀ c₁ c middle) (right : Grown w v root found c₀ c₁ middle after) :
    Grown w v root found c₀ c₁ c after := by
  refine ⟨fun repo digest held => right.linked repo digest (left.linked repo digest held),
    fun repo tag held => right.tagged repo tag (left.tagged repo tag held),fun due => ?_⟩
  rw [right.settled due,left.settled due]

theorem Grown.rest (links : after.links = c.links) (tags : after.tags = c.tags) (blobs : after.blobs = c.blobs) :
    Grown w v root found c₀ c₁ c after := by
  refine ⟨fun repo digest held => ?_,fun repo tag held => ?_,fun _ => blobs⟩
  · unfold Content.Linked linkGet at held ⊢
    rw [links]; exact held
  · rw [tags]; exact held

end Between
end HologramLive.Import
