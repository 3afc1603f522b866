import HologramLive.Artifact.Transfer
import HologramLive.Holo.PackedArchives
namespace HologramLive
open Tables Fallible List
variable {hologram : Hologram} {service : RegistryService} {codec : JsonCodec} {store : ObjectStore} {reference : ArtifactRef}

-- Kappas and digests have the forms that the codec and the store look for.
structure DigestForms (hologram : Hologram) (service : RegistryService) : Prop where
  kappa : ∀ bytes,isBlake3 (hologram.addressBytes bytes) = true
  sha256 : ∀ bytes,isSha256 (service.sha256Of bytes) = true

theorem lowerHex_hex (lower : isLowerHex c = true) : isHexDigit c = true := by
  unfold isLowerHex at lower
  unfold isHexDigit
  simp only [Bool.or_eq_true] at lower ⊢
  exact .inl lower

theorem validateId_blake3 {id : Kappa} (blake3 : isBlake3 id = true) : validateId id = .ok () := by
  unfold isBlake3 isDigestOf at blake3
  unfold validateId
  split at blake3
  · rename_i hex named
    rw [named]
    simp only [Bool.and_eq_true,decide_eq_true_eq] at blake3
    refine if_pos ⟨blake3.1,?_⟩
    exact all_eq_true.mpr fun c member => lowerHex_hex (all_eq_true.mp blake3.2 c member)
  · cases blake3

theorem validateId_not_sha256 {id : Kappa} (valid : validateId id = .ok done) : isSha256 id = false := by
  cases id with
  | nil => rfl
  | cons first rest =>
    unfold validateId at valid
    unfold isSha256 isDigestOf
    by_cases same : 's' = first
    · subst same
      simp [isPrefixOf?] at valid
    · simp [isPrefixOf?,same]

theorem getCached_valid {id : Kappa} (valid : validateId id = .ok ()) : store.getCached id = .ok store[id]? := by
  unfold ObjectStore.getCached
  rw [ok_bind valid]
  rfl

theorem getCached_ok {id : Kappa} (ok : store.getCached id = .ok found) :
    validateId id = .ok () ∧ store[id]? = found := by
  unfold ObjectStore.getCached at ok
  obtain ⟨done,valid,ok⟩ := bind_ok ok
  cases ok
  exact ⟨valid,rfl⟩

-- What each publication adds: its blob under its digest, and its layer.
structure Published (hologram : Hologram) (service : RegistryService) (repository : Str)
    (items : List (LayerRole × Kappa × Bytes)) (publishing : Publishing) : Prop where
  blobs : ∀ item ∈ items,publishing.registry.blobs[(repository,item.2.1)]? = some item.2.2
  layers : publishing.layers.map (fun layer => (layer.role,layer.kappa)) = items.map fun item => (item.1,item.2.1)
  carried : ∀ layer ∈ publishing.layers,∃ item ∈ items,layer.kappa = item.2.1 ∧
    layer.sha256 = some (service.sha256Of item.2.2) ∧ layer.size = saturated item.2.2.length
  addressed : ∀ item ∈ items,item.2.1 = hologram.addressBytes item.2.2

theorem putBlob_ok {registry next : ArtifactRegistry}
    (ok : registry.putBlob hologram service repository digest mediaType bytes = .ok next) :
    (digest = hologram.addressBytes bytes ∨ digest = service.sha256Of bytes) ∧
      next = {registry with blobs := registry.blobs.insert (repository,digest) bytes} := by
  unfold ArtifactRegistry.putBlob at ok
  split at ok
  · cases ok
  · split at ok
    · rename_i named
      cases ok
      exact ⟨named,rfl⟩
    · cases ok

theorem publish_ok {next : Publishing}
    (forms : DigestForms hologram service) {repository : Str} {total : Nat} {role : LayerRole}
    {mediaType : Str} {kappa : Kappa} (so : Published hologram service repository items publishing)
    (valid : validateId kappa = .ok ())
    (agree : kappa = hologram.addressBytes bytes → ∀ item ∈ items,item.2.1 = kappa → item.2.2 = bytes)
    (ok : publish hologram service repository total role mediaType publishing ((kappa,bytes),index) = .ok next) :
    Published hologram service repository (items ++ [(role,kappa,bytes)]) next := by
  unfold publish at ok
  dsimp only at ok
  obtain ⟨registry,put,ok⟩ := bind_ok ok
  cases ok
  obtain ⟨named,rfl⟩ := putBlob_ok put
  have mine : kappa = hologram.addressBytes bytes := by
    obtain mine | foreign := named
    · exact mine
    · have sha256 := forms.sha256 bytes
      rw [←foreign,validateId_not_sha256 valid] at sha256
      cases sha256
  refine ⟨?_,?_,?_,?_⟩
  · have own : (publishing.registry.blobs.insert (repository,kappa) bytes)[(repository,kappa)]? = some bytes := by
      rw [get_insert,if_pos rfl]
    refine forall_mem_append.mpr ⟨fun item member => ?_,forall_mem_singleton.mpr own⟩
    show (publishing.registry.blobs.insert (repository,kappa) bytes)[(repository,item.2.1)]? = some item.2.2
    rw [get_insert]
    split
    · rename_i same
      rw [agree mine item member (Prod.mk.inj same).2.symm]
    · exact so.blobs item member
  · simp only [map_append,so.layers,map_cons,map_nil]
  · refine forall_mem_append.mpr ⟨fun layer member => ?_,forall_mem_singleton.mpr ?_⟩
    · obtain ⟨item,inside,facts⟩ := so.carried layer member
      exact ⟨item,mem_append_left _ inside,facts⟩
    · exact ⟨(role,kappa,bytes),mem_append_right _ (mem_singleton.mpr rfl),rfl,rfl,rfl⟩
  · exact forall_mem_append.mpr ⟨so.addressed,forall_mem_singleton.mpr mine⟩

def shipment (archiveKappa : Kappa) (archiveBytes : Bytes) (payloads : List (Kappa × Bytes)) :
    List (LayerRole × Kappa × Bytes) :=
  (.archive,archiveKappa,archiveBytes) :: payloads.map fun payload => (.layer,payload)

section Push
variable {archiveBytes : Bytes}

def OwnAddress (hologram : Hologram) (archiveBytes : Bytes) : Prop :=
  ∀ bytes,hologram.addressBytes bytes = hologram.addressBytes archiveBytes → bytes = archiveBytes

theorem publishAll_ok (forms : DigestForms hologram service) (own : OwnAddress hologram archiveBytes) {repository : Str}
    {total index : Nat} {payloads done : List (Kappa × Bytes)} {publishing out : Publishing}
    (cached : ∀ payload ∈ done ++ payloads,store.getCached payload.1 = .ok (some payload.2))
    (so : Published hologram service repository (shipment (hologram.addressBytes archiveBytes) archiveBytes done) publishing)
    (ran : (payloads.zipIdx index).foldlM (publish hologram service repository total .layer layerMediaType) publishing =
      .ok out) :
    Published hologram service repository (shipment (hologram.addressBytes archiveBytes) archiveBytes (done ++ payloads))
      out := by
  induction payloads generalizing index done publishing with
  | nil =>
    cases ran
    rw [append_nil]
    exact so
  | cons payload rest ih =>
    rw [zipIdx_cons,foldlM_cons] at ran
    obtain ⟨next,first,others⟩ := bind_ok ran
    obtain ⟨valid,held⟩ := getCached_ok (cached payload (mem_append_right _ mem_cons_self))
    have agree (mine : payload.1 = hologram.addressBytes payload.2) :
        ∀ item ∈ shipment (hologram.addressBytes archiveBytes) archiveBytes done,
          item.2.1 = payload.1 → item.2.2 = payload.2 := by
      refine forall_mem_cons.mpr ⟨fun same => ?_,?_⟩
      · exact (own payload.2 (mine.symm.trans same.symm)).symm
      · intro item member same
        obtain ⟨earlier,inside,rfl⟩ := mem_map.mp member
        obtain ⟨_,before⟩ := getCached_ok (cached earlier (mem_append_left _ inside))
        rw [show earlier.1 = payload.1 from same,held] at before
        exact (Option.some.inj before).symm
    have one := publish_ok forms so valid agree first
    have grown : shipment (hologram.addressBytes archiveBytes) archiveBytes done ++ [(.layer,payload.1,payload.2)] =
        shipment (hologram.addressBytes archiveBytes) archiveBytes (done ++ [payload]) := by
      simp [shipment]
    rw [grown] at one
    have all := ih (by simpa using cached) one others
    rw [append_assoc] at all
    exact all

theorem gathered_cached {kappas : List Kappa} (ok : kappas.mapM (gatherPayload store) = .ok payloads) :
    payloads.map (·.1) = kappas ∧ ∀ payload ∈ payloads,store.getCached payload.1 = .ok (some payload.2) := by
  have each : ∀ kappa payload,gatherPayload store kappa = .ok payload →
      payload.1 = kappa ∧ store.getCached payload.1 = .ok (some payload.2) := by
    intro kappa payload got
    unfold gatherPayload at got
    obtain ⟨found,cached,got⟩ := bind_ok got
    cases found with
    | none => cases got
    | some bytes => cases got; exact ⟨rfl,cached⟩
  refine ⟨?_,fun payload member => ?_⟩
  · rw [mapM_ok_map (fun kappa payload got => (each kappa payload got).1) ok,map_id']
  · obtain ⟨i,at_⟩ := mem_iff_getElem?.mp member
    obtain ⟨kappa,_,got⟩ := forall₂_at (mapM_ok_forall ok) at_
    exact (each kappa payload got).2

theorem push_ok (forms : DigestForms hologram service) (own : OwnAddress hologram archiveBytes) (pushed : push hologram service codec registry store reference archiveBytes inspection
      force = .ok (registry',report,progress)) :
    ∃ payloads published body,(externalPayloads inspection).mapM (gatherPayload store) = .ok payloads ∧
      Published hologram service reference.repository
        (shipment (hologram.addressBytes archiveBytes) archiveBytes payloads) published ∧
      (⟨published.layers,some "holo".toList,some reference.name,some reference.tag⟩ : ArtifactManifest).encode codec =
        .ok body ∧ registry'.blobs = published.registry.blobs ∧
      registry'.manifests[(reference.repository,reference.tag)]? = some body := by
  unfold push at pushed
  dsimp only at pushed
  split at pushed
  · cases pushed
  · obtain ⟨payloads,gathered,pushed⟩ := bind_ok pushed
    obtain ⟨configured,_,pushed⟩ := bind_ok pushed
    obtain ⟨archived,first,pushed⟩ := bind_ok pushed
    obtain ⟨published,others,pushed⟩ := bind_ok pushed
    obtain ⟨body,encoded,pushed⟩ := bind_ok pushed
    obtain ⟨final,put,pushed⟩ := bind_ok pushed
    cases pushed
    have started : Published hologram service reference.repository [] ⟨configured,[],0,[]⟩ :=
      ⟨by simp,rfl,by simp,by simp⟩
    have one := publish_ok forms started (validateId_blake3 (forms.kappa archiveBytes)) (by simp) first
    obtain ⟨_,cached⟩ := gathered_cached gathered
    have all := @publishAll_ok hologram service store archiveBytes forms own _ _ _ _ [] _ _ cached one others
    unfold ArtifactRegistry.putManifest at put
    split at put
    · cases put
    · cases put
      exact ⟨payloads,published,body,gathered,all,encoded,rfl,by rw [get_insert,if_pos rfl]⟩

end Push
namespace Directory
variable {manifest : AppManifest} {blobs : List (Bytes × Bytes)} {directory : HoloDirectory}

theorem deriveLayer_content
    (ok : deriveLayer hologram position layer = .ok row) : row.contentKappa = layer.content := by
  unfold deriveLayer at ok
  obtain ⟨place,_,ok⟩ := bind_ok ok
  dsimp only at ok
  split at ok
  · obtain ⟨contract,_,ok⟩ := bind_ok ok
    cases ok
    rfl
  all_goals
    cases ok
    rfl

theorem indexBlob_ok {next : Table Kappa Nat} (ok : indexBlob hologram indexed blob = .ok next) :
    ∃ label,fromUtf8 blob.1 = some label ∧ hologram.addressBytes blob.2 = label ∧
      next = indexed.insert label (saturated blob.2.length) := by
  unfold indexBlob at ok
  split at ok
  · cases ok
  · rename_i label named
    dsimp only at ok
    split at ok
    · cases ok
    · rename_i same
      split at ok
      · cases ok
      · cases ok; exact ⟨label,named,not_not.mp same,rfl⟩

theorem indexBlobs_ok (ok : blobs.foldlM (indexBlob hologram) indexed = .ok out) :
    (∀ kappa,(out[kappa]?).isSome ↔ (∃ blob ∈ blobs,fromUtf8 blob.1 = some kappa) ∨ (indexed[kappa]?).isSome) ∧
      ∀ blob ∈ blobs,fromUtf8 blob.1 = some (hologram.addressBytes blob.2) := by
  induction blobs generalizing indexed with
  | nil => cases ok; simp
  | cons blob rest ih =>
    rw [foldlM_cons] at ok
    obtain ⟨next,first,others⟩ := bind_ok ok
    obtain ⟨label,named,mine,rfl⟩ := indexBlob_ok first
    obtain ⟨listed,labels⟩ := ih others
    refine ⟨fun kappa => ?_,forall_mem_cons.mpr ⟨by rw [named,mine],labels⟩⟩
    rw [listed,get_insert]
    by_cases same : label = kappa
    · simp [same,named]
    · simp [same,named]

theorem derive_lists (ok : derive hologram manifest blobs = .ok directory) :
    directory.layers.map (·.contentKappa) = manifest.layers.map (·.content) ∧
      (∀ kappa,kappa ∈ directory.blobs.map (·.kappa) ↔ ∃ blob ∈ blobs,fromUtf8 blob.1 = some kappa) ∧
      ∀ blob ∈ blobs,fromUtf8 blob.1 = some (hologram.addressBytes blob.2) := by
  unfold derive at ok
  obtain ⟨_,_,ok⟩ := bind_ok ok
  obtain ⟨indexed,index,ok⟩ := bind_ok ok
  obtain ⟨layers,rows,ok⟩ := bind_ok ok
  obtain ⟨children,_,ok⟩ := bind_ok ok
  cases ok
  obtain ⟨listed,labels⟩ := indexBlobs_ok index
  refine ⟨?_,fun kappa => ?_,labels⟩
  · have each : ∀ (entry : Layer × Nat) row,deriveLayer hologram entry.2 entry.1 = .ok row → row.contentKappa = entry.1.content :=
      fun _ _ => deriveLayer_content
    rw [mapM_ok_map each rows,Walk.map_zipIdx fun layer : Layer => layer.content]
  · rw [←(listed kappa).trans (or_iff_left (by simp)),map_map,mem_map,Option.isSome_iff_exists]
    constructor
    · intro ⟨⟨label,size⟩,member,same⟩
      exact ⟨size,by rw [←show label = kappa from same]; exact mem_rows.mp member⟩
    · intro ⟨size,found⟩
      exact ⟨(kappa,size),mem_rows.mpr found,rfl⟩

end Directory

theorem embedded_rows {blobs : List (Bytes × Bytes)}
    (ok : blobs.mapM embeddedBlob = .ok rows) (labels : ∀ blob ∈ blobs,fromUtf8 blob.1 = some (hologram.addressBytes blob.2)) :
    (∀ kappa,(∃ row ∈ rows,row.1 = kappa) ↔ ∃ blob ∈ blobs,fromUtf8 blob.1 = some kappa) ∧
      ∀ row ∈ rows,hologram.addressBytes row.2 = row.1 := by
  have each : ∀ blob row,embeddedBlob blob = .ok row → fromUtf8 blob.1 = some row.1 ∧ row.2 = blob.2 := by
    intro blob row made
    unfold embeddedBlob at made
    split at made
    · cases made
    · rename_i kappa named
      cases made
      exact ⟨named,rfl⟩
  have all := mapM_ok_forall ok
  clear ok
  induction all with
  | nil => simp
  | cons made others ih =>
    rename_i blob row blobs rows
    obtain ⟨named,same⟩ := each _ _ made
    obtain ⟨mine,rest⟩ := forall_mem_cons.mp labels
    obtain ⟨listed,addressed⟩ := ih rest
    refine ⟨fun kappa => ?_,forall_mem_cons.mpr ⟨?_,addressed⟩⟩
    · simp only [mem_cons,exists_eq_or_imp,listed kappa,named,Option.some.injEq]
    · rw [same]
      exact Option.some.inj (mine.symm.trans named)

theorem verifyRequired_derive (ok : Directory.verifyRequired hologram manifest directories blobs = .ok directory) :
    Directory.derive hologram manifest blobs = .ok directory := by
  unfold Directory.verifyRequired at ok
  split at ok
  · cases ok
  · cases ok
  · obtain ⟨declared,_,ok⟩ := bind_ok ok
    obtain ⟨derived,derives,ok⟩ := bind_ok ok
    split at ok
    · cases ok
    · cases ok
      exact derives

theorem inspect_opened {name : Str} (opened : openArchive hologram archiveBytes = .ok archive)
    (inspected : inspectBytes hologram kappa name archiveBytes = .ok inspection) :
    Labelled hologram archive.embedded ∧ ∀ kappa,kappa ∈ externalPayloads inspection ↔
      (∃ layer ∈ archive.manifest.layers,layer.content = kappa) ∧ ¬Has archive.embedded kappa := by
  unfold openArchive at opened
  unfold inspectBytes at inspected
  obtain ⟨_,current,opened⟩ := bind_ok opened
  obtain ⟨loader,loads,opened⟩ := bind_ok opened
  obtain ⟨plan,planned,opened⟩ := bind_ok opened
  rw [ok_bind current,ok_bind loads,ok_bind planned] at inspected
  cases sectioned : plan.appManifest with
  | none => rw [sectioned] at opened; cases opened
  | some manifestBytes =>
    rw [sectioned] at opened
    dsimp only at opened
    obtain ⟨manifest,decoded,opened⟩ := bind_ok opened
    obtain ⟨_,_,opened⟩ := bind_ok opened
    obtain ⟨extensions,extended,opened⟩ := bind_ok opened
    obtain ⟨blobs,blobbed,opened⟩ := bind_ok opened
    obtain ⟨directory,verified,opened⟩ := bind_ok opened
    obtain ⟨rows,embedded,opened⟩ := bind_ok opened
    obtain ⟨again,_,opened⟩ := bind_ok opened
    cases opened
    rw [ok_bind extended,sectioned] at inspected
    dsimp only at inspected
    rw [mapError_ok decoded,ok_bind (mapError_of_ok rfl),ok_bind blobbed,ok_bind verified] at inspected
    cases inspected
    have derived := verifyRequired_derive verified
    obtain ⟨contents,listed,labels⟩ := Directory.derive_lists derived
    obtain ⟨rowed,addressed⟩ := embedded_rows embedded labels
    have has (kappa : Kappa) : Has (embeddedTable rows) kappa ↔ kappa ∈ directory.blobs.map (·.kappa) := by
      rw [listed,←rowed]
      show Has (insertRows rows ∅) kappa ↔ _
      rw [has_insertRows]
      simp [Has]
    refine ⟨Labelled.empty.insertRows addressed,fun kappa => ?_⟩
    show kappa ∈ (Std.ExtTreeSet.ofList _ compare : KeySet Kappa).toList ↔ _ ∧ ¬Has (embeddedTable rows) kappa
    rw [has,Std.ExtTreeSet.mem_toList,Std.ExtTreeSet.mem_ofList,contains_iff_mem,mem_filter,contents,
      mem_map,decide_eq_true_eq]

end HologramLive
