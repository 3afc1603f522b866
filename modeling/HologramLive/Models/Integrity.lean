import HologramLive.Models.Catalog
import HologramLive.Inference.Compat
namespace HologramLive.Models
open Tables Rpc Runs Fallible List Option

variable (settings : Settings)

def Phase.stored : Phase → Option Import
  | .clearing made | .copying made _ | .placing made => some made
  | _ => none

-- An import is between its record and its last file.
def State.worksAt (s : State) (digest : Str) : Prop :=
  ∃ made,s.busy.bind Phase.stored = some made ∧ made.digest settings = digest

-- The manifest of a single file tells its content, that of a directory does not.
def Import.Shaped (made : Import) : Prop :=
  (made.single = true → ∃ bytes,made.files = (∅ : Files).insert ggufPath bytes ∧
    made.manifest.contentBlake3 = some ("blake3:".toList ++ settings.hash bytes)) ∧
  (made.single = false → made.manifest.contentBlake3 = none)

def Phase.Proper (s : State) : Phase → Prop
  | .storing made | .recording made => made.Shaped settings
  | .clearing made => made ∈ s.produced ∧ made.single = false
  | .copying made rest => made ∈ s.produced ∧ made.single = false ∧ ∃ dir,s.dirs[made.digest settings]? = some dir ∧
      ∀ path : Path,dir[path]? = (if rest[path]?.isSome then none else made.files[path]?) ∧
        ∀ bytes,rest[path]? = some bytes → made.files[path]? = some bytes
  | .placing made => made ∈ s.produced ∧ made.single = true
  | .unrecording _ => True
  | .dropping digest => ∀ metadata : ObjectMetadata,s.records[digest]? = some metadata → metadata.kind ≠ modelKind

-- What a call has placed under a digest is of the imports that got it.
def Within (files dir : Files) : Prop := ∀ path : Path,dir[path]? = none ∨ dir[path]? = files[path]?

structure Kept (s : State) : Prop where
  shaped : ∀ made ∈ s.produced,made.Shaped settings
  named : ∀ (digest : Str) (metadata : ObjectMetadata),s.records[digest]? = some metadata → metadata.kind = modelKind →
    metadata.id = "blake3:".toList ++ digest ∧ ∃ made ∈ s.produced,made.digest settings = digest
  alike : ∀ a ∈ s.produced,∀ b ∈ s.produced,a.digest settings = b.digest settings → a.files = b.files ∧ a.single = b.single
  whole : ∀ (digest : Str) (metadata : ObjectMetadata),s.records[digest]? = some metadata → metadata.kind = modelKind →
    ¬s.worksAt settings digest → ∀ made ∈ s.produced,made.digest settings = digest → s.dirs[digest]? = some made.files
  single : ∀ made ∈ s.produced,made.single = true → ∀ dir,s.dirs[made.digest settings]? = some dir → Within made.files dir
  housed : ∀ (digest : Str) (dir : Files),s.dirs[digest]? = some dir → ∃ made ∈ s.produced,made.digest settings = digest
  phase : ∀ phase,s.busy = some phase → phase.Proper settings s

-- Two imports that get one digest have one manifest, one directory, and no two
-- contents have one hash.
def Apart (made old : Import) : Prop :=
  (old.digest settings = made.digest settings → old.manifest = made.manifest) ∧
  (old.manifest = made.manifest → made.single = false → old.files = made.files) ∧
  ∀ a b,old.files[ggufPath]? = some a → made.files[ggufPath]? = some b → settings.hash a = settings.hash b → a = b

-- No import is broken off after its record is stored, unless its artifact directory
-- is as it should be.
def fine (s : State) : Action → Prop
  | .advance _ => ∀ made,s.busy = some (.recording made) → ∀ old ∈ s.produced,Apart settings made old
  | .fail => ∀ made,s.busy.bind Phase.stored = some made → s.dirs[made.digest settings]? = some made.files
  | .torn .. => False
  | _ => True

variable {settings} {s t : State} {made old : Import}

theorem apart_alike (shaped : made.Shaped settings) (known : old.Shaped settings) (apart : Apart settings made old)
    (same : old.digest settings = made.digest settings) : old.files = made.files ∧ old.single = made.single := by
  obtain ⟨manifests,directories,contents⟩ := apart
  have one := manifests same
  cases kind : made.single with
  | false =>
    cases was : old.single with
    | false => exact ⟨directories one kind,rfl⟩
    | true =>
      obtain ⟨bytes,_,told⟩ := known.1 was
      rw [one,shaped.2 kind] at told
      cases told
  | true =>
    obtain ⟨bytes,files,told⟩ := shaped.1 kind
    cases was : old.single with
    | false =>
      have none := known.2 was
      rw [one,told] at none
      cases none
    | true =>
      obtain ⟨other,before,said⟩ := known.1 was
      rw [one,told] at said
      have hashes := append_cancel_left (Option.some.inj said)
      have equal := contents other bytes (by rw [before,get_insert,if_pos rfl]) (by rw [files,get_insert,if_pos rfl]) hashes.symm
      exact ⟨by rw [before,files,equal],rfl⟩

theorem Kept.change (kept : Kept settings s) (digest : Str) (records : t.records = s.records) (produced : t.produced = s.produced)
    (elsewhere : ∀ other,other ≠ digest → t.dirs[other]? = s.dirs[other]? ∧ (s.worksAt settings other → t.worksAt settings other))
    (single : ∀ made ∈ s.produced,made.digest settings = digest → made.single = true → ∀ dir,t.dirs[digest]? = some dir →
      Within made.files dir)
    (whole : ∀ metadata : ObjectMetadata,s.records[digest]? = some metadata → metadata.kind = modelKind →
      ¬t.worksAt settings digest → ∀ made ∈ s.produced,made.digest settings = digest → t.dirs[digest]? = some made.files)
    (housed : ∀ dir,t.dirs[digest]? = some dir → ∃ made ∈ s.produced,made.digest settings = digest)
    (phase : ∀ phase,t.busy = some phase → phase.Proper settings t) : Kept settings t where
  shaped := produced ▸ kept.shaped
  named := by
    rw [records,produced]
    exact kept.named
  alike := produced ▸ kept.alike
  whole := by
    intro other metadata found kind free made member same
    rw [records] at found
    rw [produced] at member
    by_cases here : other = digest
    · subst here
      exact whole metadata found kind free made member same
    · have ⟨dir,works⟩ := elsewhere other here
      rw [dir]
      exact kept.whole other metadata found kind (fun was => free (works was)) made member same
  single := by
    intro made member only dir found
    rw [produced] at member
    by_cases here : made.digest settings = digest
    · rw [here] at found
      exact single made member here only dir found
    · rw [(elsewhere _ here).1] at found
      exact kept.single made member only dir found
  housed := by
    intro other dir found
    rw [produced]
    by_cases here : other = digest
    · subst here
      exact housed dir found
    · rw [(elsewhere other here).1] at found
      exact kept.housed other dir found
  phase := phase

theorem Kept.still (kept : Kept settings s) (records : t.records = s.records) (produced : t.produced = s.produced)
    (dirs : t.dirs = s.dirs) (works : ∀ digest,s.worksAt settings digest → t.worksAt settings digest)
    (phase : ∀ phase,t.busy = some phase → phase.Proper settings t) : Kept settings t := by
  refine kept.change [] records produced (fun other _ => ⟨by rw [dirs],works other⟩) ?_ ?_ ?_ phase
  · intro made member same only dir found
    rw [dirs,← same] at found
    exact kept.single made member only dir found
  · intro metadata found kind free made member same
    rw [dirs]
    exact kept.whole [] metadata found kind (fun was => free (works _ was)) made member same
  · intro dir found
    rw [dirs] at found
    exact kept.housed [] dir found

theorem readDirectory_shaped (read : readDirectory source = .ok made) : made.Shaped settings := by
  unfold readDirectory at read
  split at read
  · split at read <;> cases read
    refine ⟨?_,fun _ => rfl⟩
    intro never
    cases never
  · cases read

theorem readGguf_shaped (read : readGguf settings source = .ok made) : made.Shaped settings := by
  unfold readGguf at read
  split at read
  · rename_i bytes _
    split at read
    · cases read
    · split at read <;> cases read
      refine ⟨fun _ => ⟨bytes,rfl,rfl⟩,?_⟩
      intro never
      cases never
  · cases read

variable {digest : Str}

theorem idle_works (idle : s.busy = none) : ¬s.worksAt settings digest := by
  rintro ⟨made,never,_⟩
  rw [idle] at never
  cases never

variable {phase : Phase}

theorem begin_kept (kept : Kept settings s) (idle : s.busy = none) (proper : phase.Proper settings {s with busy := some phase}) :
    Kept settings {s with busy := some phase} := by
  refine kept.still rfl rfl rfl (fun _ works => (idle_works idle works).elim) ?_
  intro now is
  cases is
  exact proper

theorem start_kept (kept : Kept settings s) (idle : s.busy = none) (call : Call) : Kept settings (s.start settings call) := by
  cases call with
  | importDirectory source =>
    unfold State.start
    simp only
    split
    · exact kept
    · rename_i made read
      exact begin_kept kept idle (readDirectory_shaped read)
  | importGguf source =>
    unfold State.start
    simp only
    split
    · exact kept
    · rename_i made read
      exact begin_kept kept idle (readGguf_shaped read)
  | remove id =>
    unfold State.start
    simp only
    split
    · exact begin_kept kept idle trivial
    · exact kept

theorem Kept.within {next : Phase}
    (kept : Kept settings s) (busy : s.busy = some phase) (stored : phase.stored = some made)
    (member : made ∈ s.produced) (still : next.stored = some made) (dirs : Table Str Files)
    (elsewhere : ∀ other,other ≠ made.digest settings → dirs[other]? = s.dirs[other]?)
    (single : ∀ old ∈ s.produced,old.digest settings = made.digest settings → old.single = true → ∀ dir,
      dirs[made.digest settings]? = some dir → Within old.files dir)
    (proper : next.Proper settings {s with dirs := dirs,busy := some next}) :
    Kept settings {s with dirs := dirs,busy := some next} := by
  refine kept.change (made.digest settings) rfl rfl ?_ single ?_ (fun _ _ => ⟨made,member,rfl⟩) ?_
  · intro other apart
    refine ⟨elsewhere other apart,?_⟩
    rintro ⟨own,is,same⟩
    rw [busy] at is
    exact (apart (same.symm.trans (congrArg _ (Option.some.inj (is.symm.trans stored))))).elim
  · intro _ _ _ free
    exact (free ⟨made,still,rfl⟩).elim
  · intro now is
    cases is
    exact proper

theorem Kept.ended (kept : Kept settings s) (busy : s.busy = some phase) (stored : phase.stored = some made)
    (member : made ∈ s.produced) (dirs : Table Str Files) (elsewhere : ∀ other,other ≠ made.digest settings → dirs[other]? = s.dirs[other]?)
    (complete : dirs[made.digest settings]? = some made.files) : Kept settings {s with dirs := dirs,busy := none} := by
  have same : ∀ old ∈ s.produced,old.digest settings = made.digest settings → old.files = made.files :=
    fun old known equal => (kept.alike old known made member equal).1
  refine kept.change (made.digest settings) rfl rfl ?_ ?_ ?_ (fun _ _ => ⟨made,member,rfl⟩) fun _ never => nomatch never
  · intro other apart
    refine ⟨elsewhere other apart,?_⟩
    rintro ⟨own,is,equal⟩
    rw [busy] at is
    exact (apart (equal.symm.trans (congrArg _ (Option.some.inj (is.symm.trans stored))))).elim
  · intro old known equal only dir found
    simp only at found
    rw [complete] at found
    cases found
    rw [same old known equal]
    exact fun _ => .inr rfl
  · intro _ _ _ _ old known equal
    rw [same old known equal]
    exact complete

variable {dirs : Table Str Files} {dir : Files}

theorem get_self : (dirs.insert digest dir)[digest]? = some dir := by
  rw [get_insert,if_pos rfl]

variable {other : Str}

theorem get_other (apart : other ≠ digest) : (dirs.insert digest dir)[other]? = dirs[other]? := by
  rw [get_insert,if_neg (Ne.symm apart)]

theorem erase_self : (dirs.erase digest)[digest]? = none := by
  rw [get_erase,if_pos rfl]

theorem erase_other (apart : other ≠ digest) : (dirs.erase digest)[other]? = dirs[other]? := by
  rw [get_erase,if_neg (Ne.symm apart)]

theorem Kept.none_single (kept : Kept settings s) (member : made ∈ s.produced) (several : made.single = false) :
    ∀ old ∈ s.produced,old.digest settings = made.digest settings → old.single = true → False := by
  intro old known same only
  rw [(kept.alike old known made member same).2,several] at only
  cases only

variable {now : Nat}

theorem record_kept (kept : Kept settings s) (busy : s.busy = some (.recording made))
    (apart : ∀ old ∈ s.produced,Apart settings made old) (ran : s.advance settings now (.recording made) = some t) :
    Kept settings t := by
  have shaped : made.Shaped settings := kept.phase _ busy
  have same : ∀ old ∈ s.produced,old.digest settings = made.digest settings → old.files = made.files ∧ old.single = made.single :=
    fun old known => apart_alike shaped (kept.shaped old known) (apart old known)
  cases ran
  have works : ∀ digest,digest = made.digest settings ↔ State.worksAt settings {s with
      records := s.records.insert (made.digest settings) (s.record settings made now)
      busy := some (if made.single then Phase.placing made else .clearing made)
      produced := s.produced ++ [made]} digest := by
    intro digest
    have stored : (if made.single then Phase.placing made else .clearing made).stored = some made := by
      split <;> rfl
    constructor
    · intro here
      exact ⟨made,stored,here.symm⟩
    · rintro ⟨own,is,same⟩
      cases stored.symm.trans is
      exact same.symm
  constructor
  · intro old member
    rcases mem_append.mp member with known | own
    · exact kept.shaped old known
    · rw [mem_singleton.mp own]
      exact shaped
  · intro digest metadata found kind
    simp only [get_insert] at found
    split at found
    · rename_i here
      cases found
      subst here
      exact ⟨rfl,made,mem_append_right _ mem_cons_self,rfl⟩
    · obtain ⟨named,old,known,is⟩ := kept.named digest metadata found kind
      exact ⟨named,old,mem_append_left _ known,is⟩
  · intro a first b second equal
    rcases mem_append.mp first with one | one
    · rcases mem_append.mp second with two | two
      · exact kept.alike a one b two equal
      · rw [mem_singleton.mp two] at equal ⊢; exact same a one equal
    · rw [mem_singleton.mp one] at equal ⊢
      rcases mem_append.mp second with two | two
      · have ⟨files,single⟩ := same b two equal.symm
        exact ⟨files.symm,single.symm⟩
      · rw [mem_singleton.mp two]; exact ⟨rfl,rfl⟩
  · intro digest metadata found kind free old member is
    have other : digest ≠ made.digest settings := fun here => free ((works digest).mp here)
    simp only [get_insert] at found
    rw [if_neg (Ne.symm other)] at found
    rcases mem_append.mp member with known | own
    · refine kept.whole digest metadata found kind ?_ old known is
      rintro ⟨own,busied,_⟩
      rw [busy] at busied
      cases busied
    · rw [mem_singleton.mp own] at is
      exact (other is.symm).elim
  · intro old member only dir found
    rcases mem_append.mp member with known | own
    · exact kept.single old known only dir found
    · rw [mem_singleton.mp own] at only found ⊢
      obtain ⟨first,known,is⟩ := kept.housed _ dir found
      have ⟨files,single⟩ := same first known is
      have placed := kept.single first known (single.trans only) dir (is ▸ found)
      rw [files] at placed
      exact placed
  · intro digest dir found
    obtain ⟨old,known,is⟩ := kept.housed digest dir found
    exact ⟨old,mem_append_left _ known,is⟩
  · intro phase is
    cases is
    cases kind : made.single with
    | true => exact ⟨mem_append_right _ mem_cons_self,kind⟩
    | false => exact ⟨mem_append_right _ mem_cons_self,kind⟩

theorem unrecord_kept (kept : Kept settings s) (busy : s.busy = some (.unrecording digest))
    (ran : s.advance settings now (.unrecording digest) = some t) : Kept settings t := by
  cases ran
  have free : ∀ other,¬s.worksAt settings other := by
    rintro other ⟨made,is,_⟩
    rw [busy] at is
    cases is
  refine ⟨kept.shaped,?_,kept.alike,?_,kept.single,kept.housed,?_⟩
  · intro other metadata found kind
    simp only [get_erase] at found
    split at found
    · cases found
    · exact kept.named other metadata found kind
  · intro other metadata found kind _ made member same
    simp only [get_erase] at found
    split at found
    · cases found
    · exact kept.whole other metadata found kind (free other) made member same
  · intro phase is
    cases is
    intro metadata found
    simp only [get_erase,if_true] at found
    cases found

theorem clear_kept (kept : Kept settings s) (busy : s.busy = some (.clearing made))
    (ran : s.advance settings now (.clearing made) = some t) : Kept settings t := by
  obtain ⟨member,several⟩ : made ∈ s.produced ∧ made.single = false := kept.phase _ busy
  simp only [State.advance] at ran
  split at ran
  · cases ran
    refine kept.within busy rfl member rfl _ (fun other apart => get_other apart)
      (fun old known same only => (kept.none_single member several old known same only).elim) ?_
    refine ⟨member,several,∅,get_self,?_⟩
    intro path
    cases there : made.files[path]? with
    | none => exact ⟨by simp,fun _ never => nomatch never⟩
    | some bytes => exact ⟨by simp,fun _ same => same⟩
  · split at ran
    · cases ran
      have next := kept.within busy rfl member (rfl : Phase.stored (.clearing made) = some made) (s.dirs.erase (made.digest settings))
        (fun other apart => erase_other apart) (fun old known same only => (kept.none_single member several old known same only).elim)
        ⟨member,several⟩
      rw [← busy] at next
      exact next
    · cases ran

variable {rest : Files}

theorem copied_complete (done : rest.isEmpty = true)
    (copied : ∀ path : Path,dir[path]? = (if rest[path]?.isSome then none else made.files[path]?) ∧
      ∀ bytes,rest[path]? = some bytes → made.files[path]? = some bytes) : dir = made.files := by
  refine table_ext fun path => ?_
  rw [(copied path).1]
  have empty : rest[path]? = none := by
    rw [Std.ExtTreeMap.isEmpty_iff.mp done]
    simp
  rw [empty]
  rfl

theorem copying_kept (kept : Kept settings s) (busy : s.busy = some (.copying made rest))
    (ran : s.advance settings now (.copying made rest) = some t) : Kept settings t := by
  obtain ⟨member,_,dir,found,copied⟩ := kept.phase _ busy
  simp only [State.advance] at ran
  split at ran
  · rename_i done
    cases ran
    exact kept.ended busy rfl member s.dirs (fun _ _ => rfl) (copied_complete done copied ▸ found)
  · cases ran

theorem place_kept (kept : Kept settings s) (busy : s.busy = some (.placing made))
    (ran : s.advance settings now (.placing made) = some t) : Kept settings t := by
  obtain ⟨member,only⟩ : made ∈ s.produced ∧ made.single = true := kept.phase _ busy
  obtain ⟨bytes,files,_⟩ := (kept.shaped made member).1 only
  have own : made.files[ggufPath]? = some bytes := by rw [files,get_insert,if_pos rfl]
  have others : ∀ path : Path,path ≠ ggufPath → made.files[path]? = none := by
    intro path apart
    rw [files,get_insert,if_neg (Ne.symm apart)]
    simp
  simp only [State.advance] at ran
  split at ran
  · cases ran
    have next := kept.within busy rfl member (rfl : Phase.stored (.placing made) = some made) (s.dirs.insert (made.digest settings) ∅)
      (fun other apart => get_other apart) ?_ ⟨member,only⟩
    · rw [← busy] at next
      exact next
    · intro old _ _ _ dir found path
      rw [get_self] at found
      cases found
      exact .inl (by simp)
  · rename_i dir there
    have within := kept.single made member only dir there
    have nothing : ∀ path : Path,path ≠ ggufPath → dir[path]? = none := by
      intro path apart
      rcases within path with none | same
      · exact none
      · exact same.trans (others path apart)
    split at ran
    · rename_i missing found
      cases ran
      rw [own] at found
      cases found
      refine kept.ended busy rfl member _ (fun other apart => get_other apart) ?_
      rw [get_self]
      refine congrArg some (table_ext fun path => ?_)
      rw [get_insert]
      split
      · rename_i here; rw [← here,own]
      · rename_i apart; rw [nothing path (Ne.symm apart),others path (Ne.symm apart)]
    · rename_i present
      cases ran
      refine kept.ended busy rfl member _ (fun _ _ => rfl) ?_
      rw [there]
      refine congrArg some (table_ext fun path => ?_)
      by_cases here : path = ggufPath
      · subst here
        rcases within ggufPath with none | same
        · exact (present _ none own).elim
        · exact same
      · rw [nothing path here,others path here]

theorem drop_kept (kept : Kept settings s) (busy : s.busy = some (.dropping digest))
    (ran : s.advance settings now (.dropping digest) = some t) : Kept settings t := by
  have gone : ∀ metadata : ObjectMetadata,s.records[digest]? = some metadata → metadata.kind ≠ modelKind := kept.phase _ busy
  have free : ∀ other,¬s.worksAt settings other := by
    rintro other ⟨made,is,_⟩
    rw [busy] at is
    cases is
  simp only [State.advance] at ran
  split at ran
  · cases ran
    exact kept.still rfl rfl rfl (fun other works => (free other works).elim) fun _ never => nomatch never
  · split at ran
    · cases ran
      refine kept.change digest rfl rfl ?_ ?_ ?_ ?_ fun _ never => nomatch never
      · exact fun other apart => ⟨erase_other apart,fun works => (free other works).elim⟩
      · intro _ _ _ _ dir found; simp only at found
        rw [erase_self] at found; cases found
      · intro metadata found kind; exact (gone metadata found kind).elim
      · intro dir found; simp only at found
        rw [erase_self] at found; cases found
    · cases ran

theorem unlink_kept (kept : Kept settings s) (busy : s.busy = some phase)
    (removes : phase.removes settings = some digest) (ran : s.unlink path digest = some t) : Kept settings t := by
  obtain ⟨dir,there,ran⟩ := bind_eq_some_iff.mp ran
  split at ran
  · cases ran
    have less : ∀ {files : Files},Within files dir → Within files (dir.erase path) := by
      intro files within other
      rw [get_erase]
      split
      · exact .inl rfl
      · exact within other
    cases phase with
    | clearing made =>
      cases removes
      obtain ⟨member,several⟩ : made ∈ s.produced ∧ made.single = false := kept.phase _ busy
      have next := kept.within busy rfl member (rfl : Phase.stored (.clearing made) = some made)
        (s.dirs.insert (made.digest settings) (dir.erase path)) (fun other apart => get_other apart)
        (fun old known same only => (kept.none_single member several old known same only).elim) ⟨member,several⟩
      rw [← busy] at next
      exact next
    | dropping digest =>
      cases removes
      have gone : ∀ metadata : ObjectMetadata,s.records[digest]? = some metadata → metadata.kind ≠ modelKind := kept.phase _ busy
      refine kept.change digest rfl rfl (fun other apart => ⟨get_other apart,fun works => works⟩) ?_ ?_ ?_ ?_
      · intro old known same only after found; simp only at found
        rw [get_self] at found; cases found
        exact less (kept.single old known only dir (same ▸ there))
      · intro metadata found kind; exact (gone metadata found kind).elim
      · exact fun _ _ => kept.housed digest dir there
      · intro now is; rw [show now = .dropping digest from Option.some.inj (is.symm.trans busy)]
        exact gone
    | storing | recording | copying | placing | unrecording => cases removes
  · cases ran

theorem copy_kept (kept : Kept settings s) (busy : s.busy = some (.copying made rest)) (next : rest[path]? = some bytes)
    (ran : s.write (made.digest settings) path bytes (some (.copying made (rest.erase path))) = some t) : Kept settings t := by
  obtain ⟨member,several,dir,there,copied⟩ := kept.phase _ busy
  obtain ⟨found,is,ran⟩ := map_eq_some_iff.mp ran
  rw [there] at is
  cases is
  subst ran
  refine kept.within busy rfl member rfl _ (fun other apart => get_other apart)
    (fun old known same only => (kept.none_single member several old known same only).elim) ?_
  refine ⟨member,several,_,get_self,?_⟩
  intro other
  rw [get_insert,get_erase]
  split
  · rename_i here
    subst here
    exact ⟨((copied path).2 bytes next).symm,fun _ never => nomatch never⟩
  · exact copied other

theorem fail_kept (kept : Kept settings s) (busy : s.busy = some phase)
    (allowed : ∀ made,s.busy.bind Phase.stored = some made → s.dirs[made.digest settings]? = some made.files) :
    Kept settings {s with busy := none} := by
  rw [busy] at allowed
  have proper := kept.phase _ busy
  cases phase with
  | clearing made => exact kept.ended busy rfl proper.1 s.dirs (fun _ _ => rfl) (allowed made rfl)
  | copying made rest => exact kept.ended busy rfl proper.1 s.dirs (fun _ _ => rfl) (allowed made rfl)
  | placing made => exact kept.ended busy rfl proper.1 s.dirs (fun _ _ => rfl) (allowed made rfl)
  | storing | recording | unrecording | dropping =>
    refine kept.still rfl rfl rfl ?_ fun _ never => nomatch never
    rintro other ⟨made,is,_⟩
    rw [busy] at is
    cases is

theorem store_kept (kept : Kept settings s) (busy : s.busy = some (.storing made))
    (ran : s.advance settings now (.storing made) = some t) : Kept settings t := by
  cases ran
  refine kept.still rfl rfl rfl ?_ ?_
  · rintro other ⟨own,is,_⟩
    rw [busy] at is
    cases is
  · intro phase is
    cases is
    exact kept.phase _ busy

theorem act_kept (kept : Kept settings s) (allowed : fine settings s action)
    (ran : act settings s action = some t) : Kept settings t := by
  cases action with
  | start call =>
    simp only [act] at ran
    split at ran
    · rename_i idle
      cases ran
      exact start_kept kept (isNone_iff_eq_none.mp idle) call
    · cases ran
  | advance now =>
    obtain ⟨phase,busy,ran⟩ := bind_eq_some_iff.mp ran
    cases phase with
    | storing made => exact store_kept kept busy ran
    | recording made => exact record_kept kept busy (allowed made busy) ran
    | clearing made => exact clear_kept kept busy ran
    | copying made rest => exact copying_kept kept busy ran
    | placing made => exact place_kept kept busy ran
    | unrecording digest => exact unrecord_kept kept busy ran
    | dropping digest => exact drop_kept kept busy ran
  | unlink path =>
    obtain ⟨digest,removes,ran⟩ := bind_eq_some_iff.mp ran
    obtain ⟨phase,busy,removes⟩ := bind_eq_some_iff.mp removes
    exact unlink_kept kept busy removes ran
  | copy path =>
    simp only [act] at ran
    split at ran
    · rename_i made rest busy
      obtain ⟨bytes,next,ran⟩ := bind_eq_some_iff.mp ran
      exact copy_kept kept busy next ran
    · cases ran
  | torn path n => cases allowed
  | fail =>
    obtain ⟨phase,busy,ran⟩ := map_eq_some_iff.mp ran
    subst ran
    exact fail_kept kept busy allowed

theorem start_catalog (start : Start s) : Kept settings s := by
  obtain ⟨records,dirs,busy,produced⟩ := start
  refine ⟨?_,?_,?_,?_,?_,?_,?_⟩
  · intro made member
    rw [produced] at member
    cases member
  · intro digest metadata found kind
    exact (records digest metadata found kind).elim
  · intro a member
    rw [produced] at member
    cases member
  · intro digest metadata found kind
    exact (records digest metadata found kind).elim
  · intro made member
    rw [produced] at member
    cases member
  · intro digest dir found
    rw [dirs] at found
    cases found
  · intro phase is
    rw [busy] at is
    cases is

theorem Kept.holds (kept : Kept settings s) (idle : s.busy = none)
    (found : s.records[digest]? = some metadata) (kind : metadata.kind = modelKind) : s.Holds settings metadata.id := by
  obtain ⟨named,made,member,is⟩ := kept.named digest metadata found kind
  refine ⟨made,member,?_,?_⟩
  · exact (congrArg ("blake3:".toList ++ ·) is).trans named.symm
  · rw [is]
    exact kept.whole digest metadata found kind (idle_works idle) made member is

theorem get_record {id : Str} (got : s.get settings id = .ok info) : ∃ (digest : Str) (metadata : ObjectMetadata),
    s.records[digest]? = some metadata ∧ metadata.kind = modelKind ∧ info.id = metadata.id := by
  unfold State.get at got
  split at got
  · cases got
  · rename_i metadata known
    split at got <;> cases got
    unfold State.metadata at known
    split at known
    · cases known
    · rename_i digest _
      split at known
      · cases known
      · rename_i found there; split at known
        · cases known
        · rename_i kind; cases known
          exact ⟨digest,metadata,there,Decidable.not_not.mp kind,rfl⟩

theorem catalog_whole (reached : Reached Start (Taken (act settings) (fine settings)) s) (idle : s.busy = none) :
    (∀ (id : Str) (info : ModelInfo),s.get settings id = .ok info → s.Holds settings info.id) ∧
    (∀ infos : List ModelInfo,s.list settings = .ok infos → ∀ info ∈ infos,s.Holds settings info.id) ∧
    ∀ a ∈ s.produced,∀ b ∈ s.produced,a.id settings = b.id settings → a.files = b.files := by
  have kept : Kept settings s := by
    refine reached.invariant (Kept settings) (fun _ => start_catalog) ?_
    rintro s t _ kept ⟨action,allowed,ran⟩
    exact act_kept kept allowed ran
  refine ⟨?_,?_,?_⟩
  · intro id info got
    obtain ⟨digest,metadata,found,kind,same⟩ := get_record got
    rw [same]
    exact kept.holds idle found kind
  · intro infos listed info member
    obtain ⟨metadata,among,made⟩ := mapM_ok_from listed info member
    have row := (mem_insertionSort newerFirst).mp among
    obtain ⟨rows,kind⟩ := mem_filter.mp row
    obtain ⟨⟨digest,own⟩,entry,same⟩ := mem_map.mp rows
    simp only at same
    subst same
    have is : info.id = own.id := by
      split at made <;> cases made
      rfl
    rw [is]
    exact kept.holds idle (mem_rows.mp entry) (of_decide_eq_true kind)
  · intro a first b second same
    exact (kept.alike a first b second (append_cancel_left same)).1

section Runs
open Inference (row)

def digits (bytes : Bytes) : Str :=
  let n := bytes.foldl (fun sum b => (sum*257+b.toNat+1) % 2^256) 0
  let text := Nat.toDigits 16 n
  replicate (64-text.length) '0' ++ text

def manifestRows (manifest : ModelManifest) : List (Str × JsonDocument) :=
  [row "name" (.string manifest.name),row "engine" (.string manifest.engine),row "source" (.string manifest.source),
    row "size" (.number manifest.size),row "files" (.array (manifest.files.map .string))] ++
    (manifest.contentBlake3.map fun content => row "content_blake3" (.string content)).toList

def textOfItem : JsonDocument → Option Str
  | .string text => some text
  | _ => none

def readManifest (bytes : Bytes) : Except Str ModelManifest :=
  match (fromUtf8 bytes).bind Json.parse with
  | some (.object ((_,.string name) :: (_,.string engine) :: (_,.string source) :: (_,.number size) :: (_,.array files) :: rest)) =>
    match files.mapM textOfItem,rest with
    | some files,[] => .ok ⟨name,engine,source,size,files,none⟩
    | some files,[(_,.string content)] => .ok ⟨name,engine,source,size,files,some content⟩
    | _,_ => .error "invalid manifest".toList
  | _ => .error "invalid manifest".toList

def sample : Settings := ⟨digits,fun manifest => toUtf8 (Json.print (.object (manifestRows manifest))),readManifest⟩

def bare : State := ⟨∅,∅,∅,none,[]⟩

theorem bare_start : Start bare := by
  refine ⟨?_,rfl,rfl,rfl⟩
  intro digest metadata found
  cases found

def weightsPath : Path := [toUtf8 "weights".toList,toUtf8 "layer0.bin".toList]
def artifact (weights : String) : Source :=
  ⟨toUtf8 "/tmp/tiny.wcpu".toList,.directory (((∅ : Files).insert manifestPath (toUtf8 "format".toList)).insert weightsPath
    (toUtf8 weights.toList)) fun _ => 7⟩

def imported (weights : String) : List Action :=
  [.start (.importDirectory (artifact weights)),.advance 5,.advance 5,.advance 5,.copy manifestPath,.copy weightsPath,.advance 5]

def careful (s : State) : Action → Bool
  | .advance _ => match s.busy with
    | some (.recording _) => s.produced.isEmpty
    | _ => true
  | .fail | .torn .. => false
  | _ => true

theorem careful_fine (is : careful s action = true) : fine settings s action := by
  cases action with
  | advance now =>
    intro made busy old member
    unfold careful at is
    rw [busy] at is
    rw [isEmpty_iff.mp is] at member
    cases member
  | fail | torn => cases is
  | start | unlink | copy => trivial

def everything : State → Action → Prop := fun _ _ => True
instance : ∀ s action,Decidable (everything s action) := fun _ _ => .isTrue trivial

def info : ModelInfo :=
  ⟨"blake3:".toList ++ digits (toUtf8 (Json.print (.object (manifestRows ⟨"tiny".toList,"weightc".toList,"/tmp/tiny.wcpu".toList,14,
    ["manifest.json".toList,"weights/layer0.bin".toList],none⟩)))),"tiny".toList,"weightc".toList,"/tmp/tiny.wcpu".toList,14,5⟩

theorem imported_whole : ∃ s,Reached Start (Taken (act sample) (fine sample)) s ∧ s.list sample = .ok [info] ∧
    s.Holds sample info.id := by
  have shown : (play (act sample) (fun s action => careful s action = true) bare (imported "one")).any (fun s => decide
      (s.busy.isNone = true ∧ s.list sample = .ok [info])) = true := by
    decide +kernel
  obtain ⟨s,path,seen⟩ := play_shows bare_start shown
  obtain ⟨idle,listed⟩ := of_decide_eq_true seen
  have reached : Reached Start (Taken (act sample) (fine sample)) s := by
    refine path.mono ?_
    rintro s t ⟨action,allowed,ran⟩
    exact ⟨action,careful_fine allowed,ran⟩
  have whole := catalog_whole reached (isNone_iff_eq_none.mp idle)
  exact ⟨s,reached,listed,whole.2.1 _ listed info mem_cons_self⟩

def broken : List Action := (imported "one").take 3 ++ [.fail]

-- The weights change between two imports, and keep their size.
theorem catalog_breaks : (∃ s,Reached Start (Taken (act sample) everything) s ∧ s.busy = none ∧
      s.get sample info.id = .ok info ∧ ¬s.Holds sample info.id) ∧
    ∃ s,Reached Start (Taken (act sample) everything) s ∧ s.busy = none ∧
      ∃ a ∈ s.produced,∃ b ∈ s.produced,a.id sample = b.id sample ∧ a.files ≠ b.files := by
  constructor
  · have shown : (play (act sample) everything bare broken).any (fun s => decide
        (s.busy.isNone = true ∧ s.get sample info.id = .ok info ∧ s.dirs.isEmpty = true)) = true := by
      decide +kernel
    obtain ⟨s,reached,seen⟩ := play_shows bare_start shown
    obtain ⟨idle,got,empty⟩ := of_decide_eq_true seen
    refine ⟨s,reached,isNone_iff_eq_none.mp idle,got,?_⟩
    rintro ⟨made,_,_,there⟩
    rw [Std.ExtTreeMap.isEmpty_iff.mp empty] at there
    cases there
  · have shown : (play (act sample) everything bare (imported "one" ++ (imported "two").take 3 ++
        [.fail])).any (fun s => decide
        (s.busy.isNone = true ∧ s.produced.map (fun made => (made.id sample,made.files[weightsPath]?)) =
          [(info.id,some (toUtf8 "one".toList)),(info.id,some (toUtf8 "two".toList))])) = true := by
      decide +kernel
    obtain ⟨s,reached,seen⟩ := play_shows bare_start shown
    obtain ⟨idle,made⟩ := of_decide_eq_true seen
    refine ⟨s,reached,isNone_iff_eq_none.mp idle,?_⟩
    obtain ⟨a,rest,all,first,more⟩ := map_eq_cons_iff.mp made
    obtain ⟨b,_,later,second,_⟩ := map_eq_cons_iff.mp more
    rw [all,later]
    refine ⟨a,mem_cons_self,b,mem_cons_of_mem _ mem_cons_self,?_,?_⟩
    · exact (congrArg Prod.fst first).trans (congrArg Prod.fst second).symm
    · intro same
      have one := congrArg Prod.snd first
      have two := congrArg Prod.snd second
      simp only at one two
      rw [same,two] at one
      exact absurd one (by decide)

end Runs

end HologramLive.Models
