import HologramLive.Artifact.Delivery
namespace HologramLive
open Tables Fallible List
variable {hologram : Hologram} {service : RegistryService} {codec : JsonCodec} {store : ObjectStore} {reference : ArtifactRef}

structure Served (hologram : Hologram) (registry : ArtifactRegistry) (repository : Str) (kappa : Kappa) : Prop where
  valid : validateId kappa = .ok ()
  held : ∃ bytes,registry.blobs[(repository,kappa)]? = some bytes ∧ hologram.addressBytes bytes = kappa

section Pull
variable {registry : ArtifactRegistry} {total : Nat} {pulling : Pulling}

theorem cacheAddressed_absent (valid : validateId kappa = .ok ())
    (mine : hologram.addressBytes bytes = kappa) (absent : store[kappa]? = none) :
    store.cacheAddressed hologram kappa bytes = .ok (store.insert kappa bytes) := by
  unfold ObjectStore.cacheAddressed
  rw [ok_bind valid,if_neg (not_not.mpr mine),absent]
  rfl

def Agrees (registry : ArtifactRegistry) (repository : Str) (store : ObjectStore) : Prop :=
  ∀ (kappa : Kappa) bytes,store[kappa]? = some bytes → registry.blobs[(repository,kappa)]? = some bytes

theorem pullLayer_succeeds {entry : ArtifactLayer × Nat}
    (served : Served hologram registry reference.repository entry.1.kappa)
    (agrees : Agrees registry reference.repository pulling.store) :
    ∃ next,pullLayer hologram registry reference total pulling entry = .ok next ∧ ∀ kappa : Kappa,next.store[kappa]? =
      if kappa = entry.1.kappa then registry.blobs[(reference.repository,kappa)]? else pulling.store[kappa]? := by
  unfold pullLayer
  dsimp only
  rw [ok_bind (getCached_valid served.valid)]
  cases present : pulling.store[entry.1.kappa]? with
  | some bytes =>
    refine ⟨_,rfl,fun kappa => ?_⟩
    split
    · rename_i same
      rw [same,agrees _ _ present]
      exact present
    · rfl
  | none =>
    obtain ⟨bytes,held,mine⟩ := served.held
    have fetched : fetchLayer registry reference entry.1.kappa = .ok bytes := by
      unfold fetchLayer ArtifactRegistry.blob
      rw [held]
      rfl
    dsimp only
    rw [ok_bind fetched,ok_bind (cacheAddressed_absent served.valid mine present)]
    refine ⟨_,rfl,fun kappa => ?_⟩
    show (pulling.store.insert entry.1.kappa bytes)[kappa]? = _
    rw [get_insert]
    by_cases same : kappa = entry.1.kappa
    · rw [if_pos same.symm,if_pos same,same,held]
    · rw [if_neg (Ne.symm same),if_neg same]

theorem pullLayers_succeeds {entries : List (ArtifactLayer × Nat)}
    (served : ∀ entry ∈ entries,Served hologram registry reference.repository entry.1.kappa)
    (agrees : Agrees registry reference.repository pulling.store) :
    ∃ out,entries.foldlM (pullLayer hologram registry reference total) pulling = .ok out ∧ ∀ kappa : Kappa,out.store[kappa]? =
      if kappa ∈ entries.map (·.1.kappa) then registry.blobs[(reference.repository,kappa)]? else pulling.store[kappa]? := by
  induction entries generalizing pulling with
  | nil => exact ⟨pulling,rfl,fun kappa => by simp⟩
  | cons entry rest ih =>
    obtain ⟨first,others⟩ := forall_mem_cons.mp served
    obtain ⟨next,step,after⟩ := @pullLayer_succeeds hologram reference registry total _ _ first agrees
    have agrees' : Agrees registry reference.repository next.store := by
      intro kappa bytes found
      rw [after] at found
      split at found
      · exact found
      · exact agrees kappa bytes found
    obtain ⟨out,ran,last⟩ := ih others agrees'
    refine ⟨out,by rw [foldlM_cons,ok_bind step]; exact ran,fun kappa => ?_⟩
    rw [last,after,map_cons]
    by_cases later : kappa ∈ rest.map (·.1.kappa)
    · rw [if_pos later,if_pos (mem_cons_of_mem _ later)]
    · simp only [later,if_false,mem_cons,or_false]

theorem confirmLayers_succeeds {layers : List ArtifactLayer}
    (stored : ∀ layer ∈ layers,validateId layer.kappa = .ok () ∧ (store[layer.kappa]?).isSome) :
    ∃ done,layers.mapM (confirmLayer reference store) = .ok done := by
  refine mapM_succeeds fun layer member => ?_
  obtain ⟨valid,present⟩ := stored layer member
  obtain ⟨bytes,found⟩ := Option.isSome_iff_exists.mp present
  refine ⟨(),?_⟩
  unfold confirmLayer
  rw [ok_bind (getCached_valid valid),found]
  rfl

end Pull

-- What a pull of a pushed archive delivers: the archive, and what its own layers
-- refer to.
def delivered (hologram : Hologram) (archiveBytes : Bytes) (manifest : AppManifest) (store : ObjectStore) (kappa : Kappa) :
    Option Bytes :=
  if kappa = hologram.addressBytes archiveBytes then some archiveBytes
  else if kappa ∈ manifest.layers.map (·.content) then store[kappa]?
  else none

-- Planning from what is delivered asks only for what the archive embeds, what its
-- own layers refer to, and itself.
def Delivers (hologram : Hologram) (archiveBytes : Bytes) (archive : OpenedArchive) (store : ObjectStore) : Prop :=
  ∀ kappa,Sought hologram ⟨archive.embedded,fun kappa => .ok (delivered hologram archiveBytes archive.manifest store kappa)⟩
    archive.rootOccurrence kappa →
    Has archive.embedded kappa ∨ kappa ∈ archive.manifest.layers.map (·.content) ∨ kappa = hologram.addressBytes archiveBytes

theorem reached_congr (same : ∀ kappa,left.object hologram kappa = right.object hologram kappa) (reached : ReachedFrom hologram left root application) :
    ReachedFrom hologram right root application := by
  induction reached with
  | root => exact .root
  | child above edge fresh resolved ih =>
    refine .child ih edge fresh ?_
    unfold Sources.childManifest at resolved ⊢
    rw [←same]
    exact resolved

variable {kappa : Kappa}

theorem sought_congr (same : ∀ kappa,left.object hologram kappa = right.object hologram kappa) (sought : Sought hologram left root kappa) : Sought hologram right root kappa := by
  obtain ⟨application,reached,asked⟩ := sought
  exact ⟨application,reached_congr same reached,asked⟩

structure Filled (hologram : Hologram) (archiveBytes : Bytes) (archive : OpenedArchive) (store filled : ObjectStore) : Prop where
  labelled : Labelled hologram filled
  valid : ∀ (kappa : Kappa),(filled[kappa]?).isSome → validateId kappa = .ok ()
  itself : filled[hologram.addressBytes archiveBytes]? = some archiveBytes
  outside : ∀ (kappa : Kappa),¬Has archive.embedded kappa →
    filled[kappa]? = delivered hologram archiveBytes archive.manifest store kappa
  layers : ∀ kappa,¬Has archive.embedded kappa → kappa ∈ archive.manifest.layers.map (·.content) → Has filled kappa

section Filled
variable {archiveBytes : Bytes} {archive : OpenedArchive} {filled : ObjectStore}
  (so : Filled hologram archiveBytes archive store filled)
include so

theorem Filled.lookup (valid : validateId kappa = .ok ()) : Sources.lookup ⟨archive.embedded,filled.getCached⟩ kappa =
      Sources.lookup ⟨archive.embedded,fun kappa => .ok (delivered hologram archiveBytes archive.manifest store kappa)⟩ kappa := by
  unfold Sources.lookup
  cases inside : archive.embedded[kappa]? with
  | some bytes => rfl
  | none =>
    have outside : ¬Has archive.embedded kappa := by unfold Has; simp [inside]
    dsimp only
    rw [getCached_valid valid,so.outside kappa outside]

theorem Filled.object (kappa : Kappa) : Sources.object hologram ⟨archive.embedded,filled.getCached⟩ kappa =
    Sources.object hologram ⟨archive.embedded,fun kappa => .ok (delivered hologram archiveBytes archive.manifest store kappa)⟩
      kappa := by
  unfold Sources.object
  by_cases valid : validateId kappa = .ok ()
  · rw [so.lookup valid]
  · unfold Sources.lookup
    cases inside : archive.embedded[kappa]? with
    | some bytes => rfl
    | none =>
      have outside : ¬Has archive.embedded kappa := by unfold Has; simp [inside]
      have absent : filled[kappa]? = none := by
        cases found : filled[kappa]? with
        | none => rfl
        | some bytes => exact absurd (so.valid kappa (by rw [found]; rfl)) valid
      dsimp only
      rw [←so.outside kappa outside,absent]
      cases refused : filled.getCached kappa with
      | error e => rfl
      | ok found => exact absurd (getCached_ok refused).1 valid

theorem Filled.sought : Sought hologram ⟨archive.embedded,filled.getCached⟩ archive.rootOccurrence kappa ↔
    Sought hologram ⟨archive.embedded,fun kappa => .ok (delivered hologram archiveBytes archive.manifest store kappa)⟩
      archive.rootOccurrence kappa :=
  ⟨sought_congr so.object,sought_congr fun kappa => (so.object kappa).symm⟩

theorem Filled.found (covered : Has archive.embedded kappa ∨
    kappa ∈ archive.manifest.layers.map (·.content) ∨ kappa = hologram.addressBytes archiveBytes) :
    ∃ found,Sources.lookup ⟨archive.embedded,filled.getCached⟩ kappa = .ok (some found) := by
  unfold Sources.lookup
  cases inside : archive.embedded[kappa]? with
  | some bytes => exact ⟨_,rfl⟩
  | none =>
    have outside : ¬Has archive.embedded kappa := by unfold Has; simp [inside]
    have held : Has filled kappa := by
      obtain embedded | own | rfl := covered
      · exact absurd embedded outside
      · exact so.layers kappa outside own
      · unfold Has; rw [so.itself]; rfl
    obtain ⟨bytes,present⟩ := Option.isSome_iff_exists.mp held
    dsimp only
    rw [getCached_valid (so.valid kappa held),present]
    exact ⟨_,rfl⟩

theorem Filled.covered {found : Bytes × ResolutionSource}
    (ok : Sources.lookup ⟨archive.embedded,filled.getCached⟩ kappa = .ok (some found)) : Has archive.embedded kappa ∨
    kappa ∈ archive.manifest.layers.map (·.content) ∨ kappa = hologram.addressBytes archiveBytes := by
  by_cases inside : Has archive.embedded kappa
  · exact .inl inside
  refine .inr ?_
  unfold Sources.lookup at ok
  have absent : archive.embedded[kappa]? = none := by
    cases found : archive.embedded[kappa]? with
    | none => rfl
    | some bytes => exact absurd (by unfold Has; rw [found]; rfl) inside
  rw [absent] at ok
  dsimp only at ok
  cases cached : filled.getCached kappa with
  | error e => rw [cached] at ok; cases ok
  | ok answer =>
    rw [cached] at ok
    obtain ⟨valid,present⟩ := getCached_ok cached
    rw [so.outside kappa inside] at present
    unfold delivered at present
    split at present
    · rename_i itself
      exact .inr itself
    · split at present
      · rename_i own; exact .inl own
      · rw [←present] at ok; cases ok

theorem Filled.plans (opened : openArchive hologram archiveBytes = .ok archive) :
    (∀ limits,∃ planned,explainApplication hologram archiveBytes limits filled.getCached = .ok planned ∧
      ∀ kappa edge,.missingObject kappa edge ∉ planned.blockers) ↔ Delivers hologram archiveBytes archive store := by
  have explains (limits : PlanLimits) : explainApplication hologram archiveBytes limits filled.getCached =
      explainOpened hologram archive limits filled.getCached := by
    unfold explainApplication
    rw [ok_bind opened]
  constructor
  · intro complete kappa sought
    have among : Sources.Among hologram ⟨archive.embedded,filled.getCached⟩
        ((archive.embedded.toList.map (·.1)) ++ filled.toList.map (·.1)) := by
      intro kappa object named
      obtain ⟨_,found,_⟩ := found_of_object named
      unfold Sources.lookup at found
      split at found
      · rename_i bytes inside
        exact mem_append_left _ (mem_map.mpr ⟨(kappa,bytes),mem_rows.mpr inside,rfl⟩)
      · dsimp only at found
        cases cached : filled.getCached kappa with
        | error e => rw [cached] at found; cases found
        | ok answer =>
          obtain ⟨_,present⟩ := getCached_ok cached
          cases answer with
          | none => rw [cached] at found; cases found
          | some bytes => exact mem_append_right _ (mem_map.mpr ⟨(kappa,bytes),mem_rows.mpr present,rfl⟩)
    obtain ⟨limits,wide⟩ := explained_unlimited among
    obtain ⟨planned,ran,clean⟩ := complete limits
    rw [explains] at ran
    have sought' := so.sought.mpr sought
    obtain ⟨found,answered⟩ := explained_answered ran (wide planned ran) kappa sought'
    cases found with
    | some found => exact so.covered answered
    | none =>
      obtain ⟨edge,told⟩ := explained_missing ran (wide planned ran) sought' answered
      exact absurd told (clean kappa edge)
  · intro delivers limits
    have answers : Sources.Answers hologram ⟨archive.embedded,filled.getCached⟩ archive.rootOccurrence := by
      intro kappa sought
      obtain ⟨found,answered⟩ := so.found (delivers kappa (so.sought.mp sought))
      exact ⟨_,answered⟩
    obtain ⟨planned,ran⟩ := explainOpened_succeeds answers limits
    refine ⟨planned,(explains limits).trans ran,fun kappa edge told => ?_⟩
    obtain ⟨missing,sought⟩ := @explained_happens hologram limits archive filled.getCached planned ran .missing kappa edge told
    obtain ⟨found,answered⟩ := so.found (delivers kappa (so.sought.mp sought))
    rw [show Sources.lookup ⟨archive.embedded,filled.getCached⟩ kappa = .ok none from missing] at answered
    cases answered

end Filled
section Delivered
variable {archiveBytes : Bytes} {archive : OpenedArchive} {registry registry' : ArtifactRegistry} {name : Str}
  {inspection : HoloInspection} {force : Bool} {report : PushReport} {progress : List PushProgress}

variable {published : Publishing} {repository : Str}

theorem archive_published {manifest : ArtifactManifest} (so : Published hologram service repository
      (shipment (hologram.addressBytes archiveBytes) archiveBytes payloads) published)
    (layers : manifest.layers = published.layers) (found : manifest.archive = .ok layer) :
    layer.kappa = hologram.addressBytes archiveBytes := by
  have mine : layer ∈ manifest.layers.filter fun layer => layer.role = .archive := by
    unfold ArtifactManifest.archive at found
    split at found
    · cases found
    · rename_i single
      cases found
      rw [single]
      exact mem_singleton.mpr rfl
    · cases found
  obtain ⟨member,role⟩ := mem_filter.mp mine
  rw [layers] at member
  have listed : (layer.role,layer.kappa) ∈ published.layers.map fun layer => (layer.role,layer.kappa) :=
    mem_map.mpr ⟨layer,member,rfl⟩
  rw [so.layers] at listed
  obtain ⟨item,shipped,same⟩ := mem_map.mp listed
  obtain rfl | payload := mem_cons.mp shipped
  · exact (Prod.mk.inj same).2.symm
  · obtain ⟨payload,_,rfl⟩ := mem_map.mp payload
    rw [←(Prod.mk.inj same).1] at role
    simp at role

theorem saturated_le (n : Nat) : saturated n ≤ u64Max := by unfold saturated; omega

variable {items : List (LayerRole × Kappa × Bytes)}

theorem published_carried (forms : DigestForms hologram service)
    (so : Published hologram service repository items published) :
    ∀ layer ∈ published.layers,ArtifactManifest.Carried layer := by
  intro layer member
  obtain ⟨item,shipped,kappa,sha256,size⟩ := so.carried layer member
  refine ⟨?_,?_,?_⟩
  · rw [kappa,so.addressed item shipped]
    exact forms.kappa item.2.2
  · intro digest named
    rw [sha256] at named
    cases named
    exact forms.sha256 item.2.2
  · rw [size]
    exact saturated_le _

theorem published_served (forms : DigestForms hologram service)
    (so : Published hologram service repository items published) (blobs : final.blobs = published.registry.blobs) :
    ∀ layer ∈ published.layers,Served hologram final repository layer.kappa := by
  intro layer member
  obtain ⟨item,shipped,kappa,_⟩ := so.carried layer member
  have addressed := so.addressed item shipped
  rw [kappa]
  refine ⟨?_,item.2.2,?_,addressed.symm⟩
  · rw [addressed]
    exact validateId_blake3 (forms.kappa item.2.2)
  · rw [blobs]
    exact so.blobs item shipped

theorem pull_filled (reads : codec.ReadsBack) (forms : DigestForms hologram service) (own : OwnAddress hologram archiveBytes)
    (opened : openArchive hologram archiveBytes = .ok archive)
    (inspected : inspectBytes hologram (hologram.addressBytes archiveBytes) name archiveBytes = .ok inspection)
    (pushed : push hologram service codec registry store reference archiveBytes inspection force =
      .ok (registry',report,progress)) :
    ∃ filled pulled steps,pull hologram service codec registry' ∅ reference = .ok (filled,pulled,steps) ∧
      pulled.archiveKappa = hologram.addressBytes archiveBytes ∧ Filled hologram archiveBytes archive store filled := by
  obtain ⟨payloads,published,body,gathered,so,encoded,blobs,tagged⟩ := push_ok forms own pushed
  obtain ⟨labelled,external⟩ := inspect_opened opened inspected
  obtain ⟨names,cached⟩ := gathered_cached gathered
  have served := published_served forms so blobs
  have decoded := ArtifactManifest.decode_encoded reads (published_carried forms so) encoded
  obtain ⟨archived,found,_⟩ := bind_ok encoded
  have agrees : Agrees registry' reference.repository (∅ : ObjectStore) := by
    intro kappa bytes present
    simp at present
  have listed (layers : List ArtifactLayer) : layers.zipIdx.map (·.1.kappa) = layers.map (·.kappa) :=
    Walk.map_zipIdx (fun layer : ArtifactLayer => layer.kappa) layers
  obtain ⟨out,ran,stored⟩ := @pullLayers_succeeds hologram reference registry' published.layers.length ⟨∅,0,0,0,[]⟩
    published.layers.zipIdx (fun entry member => served entry.1 (fst_mem_of_mem_zipIdx member)) agrees
  rw [listed] at stored
  have kappas : published.layers.map (·.kappa) = hologram.addressBytes archiveBytes :: externalPayloads inspection := by
    have layers := congrArg (List.map Prod.snd) so.layers
    rw [map_map,map_map] at layers
    rw [show published.layers.map (·.kappa) = _ from layers,←names]
    simp [shipment]
  have shipped : registry'.blobs[(reference.repository,hologram.addressBytes archiveBytes)]? = some archiveBytes := by
    rw [blobs]
    exact so.blobs _ mem_cons_self
  have paid : ∀ payload ∈ payloads,registry'.blobs[(reference.repository,payload.1)]? = some payload.2 := by
    intro payload member
    rw [blobs]
    exact so.blobs _ (mem_cons_of_mem _ (mem_map.mpr ⟨payload,member,rfl⟩))
  have inside (kappa : Kappa) : out.store[kappa]? =
      if kappa ∈ hologram.addressBytes archiveBytes :: externalPayloads inspection then
        registry'.blobs[(reference.repository,kappa)]? else none := by
    rw [stored,kappas]
    simp
  have servedAt (kappa : Kappa) (member : kappa ∈ hologram.addressBytes archiveBytes :: externalPayloads inspection) :
      Served hologram registry' reference.repository kappa := by
    rw [←kappas] at member
    obtain ⟨layer,among,rfl⟩ := mem_map.mp member
    exact served layer among
  have confirmed : ∃ done,published.layers.mapM (confirmLayer reference out.store) = .ok done := by
    refine confirmLayers_succeeds fun layer member => ?_
    have serves := served layer member
    obtain ⟨bytes,held,_⟩ := serves.held
    refine ⟨serves.valid,?_⟩
    rw [stored,if_pos (mem_map.mpr ⟨layer,member,rfl⟩),held]
    rfl
  obtain ⟨done,confirmed⟩ := confirmed
  have manifest : registry'.manifest service reference.repository reference.tag = some (body,some (service.sha256Of body)) := by
    unfold ArtifactRegistry.manifest
    rw [tagged]
    rfl
  refine ⟨out.store,⟨reference.display,some (service.sha256Of body),archived.kappa,out.layersFetched,out.layersPresent,
    out.bytesTransferred⟩,out.progress,?_,archive_published so rfl found,?_,?_,?_,?_,?_⟩
  · unfold pull
    rw [manifest]
    dsimp only
    rw [ok_bind decoded,ok_bind found,ok_bind ran,ok_bind confirmed]
    rfl
  · intro kappa bytes present
    rw [inside] at present
    split at present
    · rename_i member
      obtain ⟨bytes',held,mine⟩ := (servedAt kappa member).held
      rw [held] at present
      cases present
      exact mine
    · cases present
  · intro kappa present
    rw [inside] at present
    split at present
    · rename_i member
      exact (servedAt kappa member).valid
    · cases present
  · rw [inside,if_pos mem_cons_self,shipped]
  · intro kappa outside
    rw [inside]
    unfold delivered
    by_cases itself : kappa = hologram.addressBytes archiveBytes
    · rw [if_pos itself,if_pos (by rw [itself]; exact mem_cons_self),itself,shipped]
    · rw [if_neg itself]
      by_cases layer : kappa ∈ archive.manifest.layers.map (·.content)
      · have member := (external kappa).mpr ⟨by simpa using layer,outside⟩
        rw [if_pos layer,if_pos (mem_cons_of_mem _ member)]; rw [←names] at member
        obtain ⟨payload,among,rfl⟩ := mem_map.mp member
        rw [paid payload among,(getCached_ok (cached payload among)).2]
      · rw [if_neg layer,if_neg]; intro member
        obtain same | beyond := mem_cons.mp member
        · exact itself same
        · exact layer (by simpa using ((external kappa).mp beyond).1)
  · intro kappa outside layer
    have member := (external kappa).mpr ⟨by simpa using layer,outside⟩
    unfold Has
    rw [inside,if_pos (mem_cons_of_mem _ member)]
    obtain ⟨bytes,held,_⟩ := (servedAt kappa (mem_cons_of_mem _ member)).held
    rw [held]
    rfl

-- A pull of what was pushed always succeeds and stores only what matches its
-- kappa; the archive plans from there without a missing object exactly when what
-- its own layers refer to is all that it does not embed.
theorem push_pull_complete (reads : codec.ReadsBack) (forms : DigestForms hologram service)
    (own : OwnAddress hologram archiveBytes) (opened : openArchive hologram archiveBytes = .ok archive)
    (inspected : inspectBytes hologram (hologram.addressBytes archiveBytes) name archiveBytes = .ok inspection)
    (pushed : push hologram service codec registry store reference archiveBytes inspection force =
      .ok (registry',report,progress)) :
    ∃ filled pulled steps,pull hologram service codec registry' ∅ reference = .ok (filled,pulled,steps) ∧
      pulled.archiveKappa = hologram.addressBytes archiveBytes ∧ Labelled hologram filled ∧
      filled[pulled.archiveKappa]? = some archiveBytes ∧
      ((∀ limits,∃ planned,explainApplication hologram archiveBytes limits filled.getCached = .ok planned ∧
        ∀ kappa edge,.missingObject kappa edge ∉ planned.blockers) ↔ Delivers hologram archiveBytes archive store) := by
  obtain ⟨filled,pulled,steps,ran,named,so⟩ := pull_filled reads forms own opened inspected pushed
  refine ⟨filled,pulled,steps,ran,named,so.labelled,?_,so.plans opened⟩
  rw [named]
  exact so.itself

end Delivered

-- A thin archive with one view, whose local store holds its capability set and
-- its content.
def courierArchive : Bytes := [72,79,76,79,4,0,0]

variable (bytes : Bytes)

def courierDigest : Str :=
  replicate 64 (if bytes = courierArchive then 'a' else if bytes = [3] then '3' else if bytes = [4] then '4' else '0')

def courierAddress : Kappa := "blake3:".toList ++ courierDigest bytes

def courierApp : AppManifest :=
  ⟨some 0,courierAddress [3],[⟨.view,courierAddress [4],"index.html".toList,"dom".toList⟩],[]⟩

def courierDirectory : HoloDirectory :=
  ⟨1,some 0,courierAddress [3],
    [⟨0,"view".toList,courierAddress [4],"index.html".toList,none,none,some "dom".toList,none⟩],[],[]⟩

def courierHologram : Hologram :=
  {Hologram.tabled [([1],courierApp)] [([3],emptyCapabilities)] [([6],courierDirectory)]
      [(courierArchive,⟨[171],.ok ⟨some [1],.ok [(Directory.extensionKey,[6])],.ok []⟩⟩)] with
    addressBytes := courierAddress}

def courierStore : ObjectStore :=
  (((∅ : ObjectStore).insert (courierAddress [3]) [3]).insert (courierAddress [4]) [4]).insert
    (courierAddress courierArchive) courierArchive

def courierService : RegistryService where
  sha256 bytes := if bytes = emptyConfig then "44136fa355b3678a1146ad16f7e8649e94fb4fc21fe77e8310c060f61caaff8a".toList
    else courierDigest bytes
  refuses _ _ := none

def courierReference : ArtifactRef := ⟨"hub".toList,"demos".toList,"clock".toList,"v1".toList⟩

def courierManifest : ArtifactManifest :=
  ⟨[⟨courierAddress courierArchive,some (courierService.sha256Of courierArchive),holoMediaType,7,.archive⟩,
      ⟨courierAddress [4],some (courierService.sha256Of [4]),layerMediaType,1,.layer⟩],
    some "holo".toList,some "clock".toList,some "v1".toList⟩

def courierCodec : JsonCodec where
  toVec document := if document = courierManifest.document then .ok [200] else .error "unknown document".toList
  fromSlice bytes := if bytes = [200] then .ok courierManifest.document else .error "unknown bytes".toList

theorem courier_readsBack : courierCodec.ReadsBack := by
  intro document bytes written
  by_cases known : document = courierManifest.document
  · rw [show courierCodec.toVec document = .ok [200] from if_pos known] at written
    cases written
    rw [known]
    rfl
  · rw [show courierCodec.toVec document = .error "unknown document".toList from if_neg known] at written
    cases written

theorem courierDigest_hex : (courierDigest bytes).length = 64 ∧ (courierDigest bytes).all isLowerHex = true := by
  unfold courierDigest
  refine ⟨length_replicate,?_⟩
  refine all_eq_true.mpr fun digit member => ?_
  rw [(mem_replicate.mp member).2]
  split
  · decide
  split
  · decide
  split <;> decide

theorem courier_forms : DigestForms courierHologram courierService where
  kappa bytes := by
    obtain ⟨length,digits⟩ := courierDigest_hex bytes
    show isDigestOf "blake3:".toList ("blake3:".toList ++ courierDigest bytes) = true
    unfold isDigestOf
    rw [show "blake3:".toList.isPrefixOf? ("blake3:".toList ++ courierDigest bytes) = some (courierDigest bytes) from rfl]
    simp [length,digits]
  sha256 bytes := by
    show isDigestOf "sha256:".toList ("sha256:".toList ++ courierService.sha256 bytes) = true
    unfold isDigestOf
    rw [show "sha256:".toList.isPrefixOf? ("sha256:".toList ++ courierService.sha256 bytes) =
      some (courierService.sha256 bytes) from rfl]
    by_cases config : bytes = emptyConfig
    · rw [config]
      decide
    · obtain ⟨length,digits⟩ := courierDigest_hex bytes
      rw [show courierService.sha256 bytes = courierDigest bytes from if_neg config]
      simp [length,digits]

theorem courier_own : OwnAddress courierHologram courierArchive := by
  intro bytes same
  by_cases itself : bytes = courierArchive
  · exact itself
  have digests : courierDigest bytes = courierDigest courierArchive := append_cancel_left same
  unfold courierDigest at digests
  rw [if_neg itself,if_pos rfl] at digests
  have digit := (replicate_right_inj (by decide)).mp digests
  split at digit
  · cases digit
  · split at digit <;> cases digit

def courierPush : Option (ArtifactRegistry × PushReport × List PushProgress) :=
  (inspectBytes courierHologram (courierAddress courierArchive) "clock".toList courierArchive).toOption.bind fun inspection =>
    (push courierHologram courierService courierCodec ⟨∅,∅⟩ courierStore courierReference courierArchive inspection
      false).toOption

def courierBlockers (store : ObjectStore) : Option (List PlanBlocker) :=
  (explainApplication courierHologram courierArchive .default store.getCached).toOption.map (·.blockers)

def courierDelivery : Option (List PlanBlocker) :=
  courierPush.bind fun pushed =>
    (pull courierHologram courierService courierCodec pushed.1 ∅ courierReference).toOption.bind fun pulled =>
      courierBlockers pulled.1

theorem courier_misses : ∃ inspection pushed pulled planned replanned,
    inspectBytes courierHologram (courierAddress courierArchive) "clock".toList courierArchive = .ok inspection ∧
    explainApplication courierHologram courierArchive .default courierStore.getCached = .ok planned ∧
    planned.blockers = [] ∧
    push courierHologram courierService courierCodec ⟨∅,∅⟩ courierStore courierReference courierArchive inspection false =
      .ok pushed ∧ pull courierHologram courierService courierCodec pushed.1 ∅ courierReference = .ok pulled ∧
    explainApplication courierHologram courierArchive .default pulled.1.getCached = .ok replanned ∧
    PlanBlocker.missingObject (courierAddress [3]) .requiredCapabilities ∈ replanned.blockers := by
  have before : courierBlockers courierStore = some [] := by decide
  have after : courierDelivery = some [.missingObject (courierAddress [3]) .requiredCapabilities] := by decide
  obtain ⟨planned,plans,clean⟩ := Option.map_eq_some_iff.mp before
  obtain ⟨pushed,pushes,after⟩ := Option.bind_eq_some_iff.mp after
  obtain ⟨pulled,pulls,after⟩ := Option.bind_eq_some_iff.mp after
  obtain ⟨replanned,replans,told⟩ := Option.map_eq_some_iff.mp after
  obtain ⟨inspection,inspects,pushes⟩ := Option.bind_eq_some_iff.mp pushes
  refine ⟨inspection,pushed,pulled,planned,replanned,ok_of_toOption inspects,ok_of_toOption plans,clean,
    ok_of_toOption pushes,ok_of_toOption pulls,ok_of_toOption replans,?_⟩
  rw [told]
  exact mem_singleton.mpr rfl

theorem courier_delivery : ∃ archive registry' filled pulled steps,
    openArchive courierHologram courierArchive = .ok archive ∧
    pull courierHologram courierService courierCodec registry' ∅ courierReference = .ok (filled,pulled,steps) ∧
    ((∀ limits,∃ planned,explainApplication courierHologram courierArchive limits filled.getCached = .ok planned ∧
      ∀ kappa edge,.missingObject kappa edge ∉ planned.blockers) ↔
        Delivers courierHologram courierArchive archive courierStore) := by
  have pushes : courierPush.isSome = true := by decide
  have opens : (openArchive courierHologram courierArchive).toOption.isSome = true := by decide
  obtain ⟨pushed,pushes⟩ := Option.isSome_iff_exists.mp pushes
  obtain ⟨archive,opened⟩ := Option.isSome_iff_exists.mp opens
  obtain ⟨inspection,inspects,pushes⟩ := Option.bind_eq_some_iff.mp pushes
  obtain ⟨registry',report,progress⟩ := pushed
  obtain ⟨filled,pulled,steps,ran,_,_,_,plans⟩ := push_pull_complete courier_readsBack courier_forms courier_own
    (ok_of_toOption opened) (ok_of_toOption inspects) (ok_of_toOption pushes)
  exact ⟨archive,registry',filled,pulled,steps,ok_of_toOption opened,ran,plans⟩

end HologramLive
