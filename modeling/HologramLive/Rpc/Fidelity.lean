import HologramLive.Holo.Grants
import HologramLive.Holo.PackedArchives
import HologramLive.Rpc.Reports
import HologramLive.Rpc.Conversions
namespace HologramLive.Rpc

def ObjectQuery.into (value : ObjectQuery) : Pb.ObjectQuery where
  kind := value.kind
  mediaType := value.mediaType
  filenameContains := value.filenameContains
  minSize := value.minSize
  maxSize := value.maxSize
  createdAfterMillis := value.createdAfterMillis
  createdBeforeMillis := value.createdBeforeMillis
  limit := value.limit
  cursor := value.cursor

def Pb.ObjectQuery.into (value : Pb.ObjectQuery) : Rpc.ObjectQuery where
  kind := value.kind
  mediaType := value.mediaType
  filenameContains := value.filenameContains
  minSize := value.minSize
  maxSize := value.maxSize
  createdAfterMillis := value.createdAfterMillis
  createdBeforeMillis := value.createdBeforeMillis
  limit := value.limit
  cursor := value.cursor

def RpcRequest.into (value : RpcRequest) : Pb.RpcRequest where
  request := some <| match value with
    | .handshake => .handshake
    | .health => .health
    | .shutdown => .shutdown
    | .modulesList => .modulesList
    | .tracingGet => .tracingGet
    | .tracingSet filter => .tracingSet {filter}
    | .registryList => .registryList
    | .registrySearch query => .registrySearch query.into
    | .filesSearch query => .filesSearch query.into
    | .registryPut kind mediaType filename bytes => .registryPut {kind,mediaType,filename,content := bytes}
    | .registryGet id => .registryGet {id}
    | .filesList => .filesList
    | .filesPut mediaType filename bytes => .filesPut {kind := "file".toList,mediaType,filename,content := bytes}
    | .filesGet id => .filesGet {id}
    | .filesRename id filename => .filesRename {id,filename}
    | .holoImport name bytes => .holoImport {name,content := bytes}
    | .holoList => .holoList
    | .holoInspect kappa => .holoInspect {id := kappa}
    | .holoPlan kappa => .holoPlan {id := kappa}
    | .holoVerify kappa => .holoVerify {id := kappa}
    | .holoRemove kappa => .holoRemove {id := kappa}
    | .holoLoad kappa => .holoLoad {id := kappa}
    | .holoUnload kappa => .holoUnload {id := kappa}
    | .holoRun kappa inputs => .holoRun {kappa,inputs}
    | .holoResident => .holoResident
    | .historyCreate title => .historyCreate {title}
    | .historyList includeArchived => .historyList {includeArchived}
    | .historyGet id => .historyGet {id}
    | .historyAppend id role content => .historyAppend {id,role,content}
    | .historyDelete id => .historyDelete {id}
    | .historyArchive id archived => .historyArchive {id,archived}
    | .chatSend id content => .chatSend {id,content}
    | .modelList => .modelList
    | .modelImport path => .modelImport {path}
    | .modelRemove id => .modelRemove {id}
    | .nodesList => .nodesList
    | .nodeHeartbeat node => .nodeHeartbeat node.into
    | .pluginList => .pluginList
    | .pluginCall pluginId operation payload => .pluginCall {pluginId,operation,payload}

def Pb.RpcRequest.tryInto (value : Pb.RpcRequest) : Except LiveError Rpc.RpcRequest :=
  match value.request with
  | none => .error (.protocol "gRPC request has no operation".toList)
  | some request => match request with
    | .handshake => .ok .handshake
    | .health => .ok .health
    | .shutdown => .ok .shutdown
    | .modulesList => .ok .modulesList
    | .tracingGet => .ok .tracingGet
    | .tracingSet value => .ok (.tracingSet value.filter)
    | .registryList => .ok .registryList
    | .registrySearch query => .ok (.registrySearch query.into)
    | .filesSearch query => .ok (.filesSearch query.into)
    | .registryPut value => .ok (.registryPut value.kind value.mediaType value.filename value.content)
    | .registryGet value => .ok (.registryGet value.id)
    | .filesList => .ok .filesList
    | .filesPut value => .ok (.filesPut value.mediaType value.filename value.content)
    | .filesGet value => .ok (.filesGet value.id)
    | .filesRename value => .ok (.filesRename value.id value.filename)
    | .holoImport value => .ok (.holoImport value.name value.content)
    | .holoList => .ok .holoList
    | .holoInspect value => .ok (.holoInspect value.id)
    | .holoPlan value => .ok (.holoPlan value.id)
    | .holoVerify value => .ok (.holoVerify value.id)
    | .holoRemove value => .ok (.holoRemove value.id)
    | .holoLoad value => .ok (.holoLoad value.id)
    | .holoUnload value => .ok (.holoUnload value.id)
    | .holoRun value => .ok (.holoRun value.kappa value.inputs)
    | .holoResident => .ok .holoResident
    | .historyCreate value => .ok (.historyCreate value.title)
    | .historyList value => .ok (.historyList value.includeArchived)
    | .historyGet value => .ok (.historyGet value.id)
    | .historyAppend value => .ok (.historyAppend value.id value.role value.content)
    | .historyDelete value => .ok (.historyDelete value.id)
    | .historyArchive value => .ok (.historyArchive value.id value.archived)
    | .chatSend value => .ok (.chatSend value.id value.content)
    | .modelList => .ok .modelList
    | .modelImport value => .ok (.modelImport value.path)
    | .modelRemove value => .ok (.modelRemove value.id)
    | .nodesList => .ok .nodesList
    | .nodeHeartbeat value => .ok (.nodeHeartbeat value.into)
    | .pluginList => .ok .pluginList
    | .pluginCall value => .ok (.pluginCall value.pluginId value.operation value.payload)

theorem request_returns (request : RpcRequest) : request.into.tryInto = .ok request := by
  cases request <;> rfl

end HologramLive.Rpc

namespace HologramLive.Rpc
open Tables Fallible Forests Directory ResidentEntry List EffectiveGrant

theorem narrow_ok {U : Type} {ofNat : Nat → U} {back : U} (fits : value < size)
    (same : ofNat value = back) (field : String) : narrow size ofNat value field = .ok back := by
  unfold narrow
  rw [if_pos fits,same]

theorem narrowU16_toNat (value : UInt16) (field : String) : narrowU16 value.toNat field = .ok value :=
  narrow_ok value.toNat_lt UInt16.ofNat_toNat field

theorem narrowUsize_saturated (value : USize) (field : String) :
    narrowUsize (saturated value.toNat) field = .ok value := by
  have widened : saturated value.toNat = value.toNat := by
    have bound := value.toNat_lt
    simp only [saturated,u64Max]
    omega
  rw [widened]
  exact narrow_ok value.toNat_lt_size USize.ofNat_toNat field

theorem requireNonempty_ok {value : Str} (given : value ≠ []) (field : String) :
    requireNonempty value field = .ok () := by
  unfold requireNonempty
  rw [if_neg (by simpa using given)]

theorem operationInfo_returns (value : OperationInfo) : value.into.tryInto = .ok value := by
  obtain ⟨id,kind,safe⟩ := value
  cases kind <;> rfl

theorem capabilityManifest_returns (value : CapabilityManifest) : value.into.tryInto = .ok value := by
  unfold Pb.CapabilityManifest.tryInto
  refine (ok_bind (narrowU16_toNat value.protocolVersion _)).trans ?_
  refine (ok_bind (mapM_returns fun operation _ => operationInfo_returns operation)).trans ?_
  have modules : (value.modules.map ModuleInfo.into).map Pb.ModuleInfo.into = value.modules :=
    map_returns (fun _ => rfl) _
  simp only [CapabilityManifest.into,modules]
  rfl

theorem health_returns (value : HealthResponse) : value.into.tryInto = .ok value := by
  unfold Pb.HealthResponse.tryInto
  refine (ok_bind (narrowUsize_saturated value.modulesReady _)).trans ?_
  rfl

theorem objectPage_returns (value : ObjectPage) : value.into.into = value := by
  have objects : (value.objects.map ObjectMetadata.into).map Pb.ObjectMetadata.into = value.objects :=
    map_returns (fun _ => rfl) _
  simp only [ObjectPage.into,Pb.ObjectPage.into,objects]

theorem conversation_returns (value : Conversation) : value.into.into = value := by
  have messages : (value.messages.map ConversationMessage.into).map Pb.ConversationMessage.into = value.messages :=
    map_returns (fun _ => rfl) _
  simp only [Conversation.into,Pb.Conversation.into,messages]

theorem completion_returns (value : ApplicationCompletion) : value.into.tryInto = .ok value := by
  cases value <;> rfl

structure Disclosed (requestedCapabilitiesKappa effectiveGrantKappa grantSource authorization : Str) : Prop where
  requested : requestedCapabilitiesKappa ≠ []
  granted : effectiveGrantKappa ≠ []
  source : grantSource ≠ []
  decided : authorization ≠ []

theorem resident_returns {value : ResidentHolo} (state : value.state ≠ [])
    (disclosed : Disclosed value.requestedCapabilitiesKappa value.effectiveGrantKappa value.grantSource
      value.authorization) : value.into.tryInto = .ok value := by
  unfold Pb.ResidentHolo.tryInto
  refine (ok_bind (requireNonempty_ok state _)).trans ?_
  refine (ok_bind (requireNonempty_ok disclosed.requested _)).trans ?_
  refine (ok_bind (requireNonempty_ok disclosed.granted _)).trans ?_
  refine (ok_bind (requireNonempty_ok disclosed.source _)).trans ?_
  refine (ok_bind (requireNonempty_ok disclosed.decided _)).trans ?_
  refine (ok_bind (narrowUsize_saturated value.inputCount _)).trans ?_
  refine (ok_bind (narrowUsize_saturated value.outputCount _)).trans ?_
  refine (ok_bind (narrowUsize_saturated value.residentBytes _)).trans ?_
  refine (ok_bind (narrowUsize_saturated value.queued _)).trans ?_
  refine (ok_bind (narrowUsize_saturated value.processed _)).trans ?_
  rfl

theorem runResult_returns {value : HoloRunResult}
    (disclosed : Disclosed value.requestedCapabilitiesKappa value.effectiveGrantKappa value.grantSource
      value.authorization) : value.into.tryInto = .ok value := by
  unfold Pb.HoloRunResult.tryInto
  refine (ok_bind (requireNonempty_ok disclosed.requested _)).trans ?_
  refine (ok_bind (requireNonempty_ok disclosed.granted _)).trans ?_
  refine (ok_bind (requireNonempty_ok disclosed.source _)).trans ?_
  refine (ok_bind (requireNonempty_ok disclosed.decided _)).trans ?_
  refine (ok_bind (narrowUsize_saturated value.residentBytes _)).trans ?_
  refine (ok_bind (completion_returns value.completion)).trans ?_
  rfl

variable {hologram : Hologram} {sections : Bytes → List HoloSection}

def Contracted (hologram : Hologram) (kind : Str) (contract : Option Str) : Prop :=
  validateWireContract hologram kind contract = .ok contract

theorem contracted_wasm (known : normalizeWasmContract hologram contract = .ok contract) :
    Contracted hologram "wasm".toList (some contract) := by
  unfold Contracted validateWireContract
  rw [if_pos rfl]
  dsimp only
  refine (ok_bind (mapError_of_ok known)).trans ?_
  rfl

theorem contracted_plain {kind : Str} (other : kind ≠ "wasm".toList) : Contracted hologram kind none := by
  unfold Contracted validateWireContract
  rw [if_neg other]
  rfl

theorem contracted_other (other : kind ≠ .wasmCodemodule) : Contracted hologram (layerKindName kind) none :=
  contracted_plain fun same => other (layerKindName_wasm.mp same)

theorem layer_returns {value : HoloLayer} (contracted : Contracted hologram value.kind value.contract) :
    value.into.tryInto hologram = .ok value := by
  unfold Pb.HoloLayer.tryInto
  refine (ok_bind contracted).trans ?_
  rfl

theorem directory_returns {value : HoloDirectory} (schema : value.schemaVersion = schemaVersion)
    (contracted : ∀ layer ∈ value.layers,Contracted hologram layer.kind layer.contract) :
    value.into.tryInto hologram = .ok value := by
  have children : (value.children.map HoloChild.into).map Pb.HoloChild.into = value.children :=
    map_returns (fun _ => rfl) _
  have blobs : (value.blobs.map HoloBlob.into).map Pb.HoloBlob.into = value.blobs := map_returns (fun _ => rfl) _
  unfold Pb.HoloDirectory.tryInto
  refine (ok_bind (narrow_ok (by show value.schemaVersion < _; rw [schema]; decide) rfl _)).trans ?_
  rw [if_neg (by simpa [HoloDirectory.into] using schema)]
  refine (ok_bind (mapM_returns fun layer member => layer_returns (contracted layer member))).trans ?_
  simp only [HoloDirectory.into,children,blobs]
  rfl

structure Sound (hologram : Hologram) (inspection : HoloInspection) : Prop where
  format : inspection.formatVersion.toNat = currentHoloVersion
  application : inspection.applicationKappa.isSome → inspection.directoryEmbedded ∧ inspection.directory.isSome
  directory : ∀ directory,inspection.directory = some directory →
    directory.schemaVersion = schemaVersion ∧
    ∀ layer ∈ directory.layers,Contracted hologram layer.kind layer.contract

theorem inspection_returns {value : HoloInspection} (sound : Sound hologram value) :
    value.into.tryInto hologram = .ok value := by
  have rows : (value.sections.map HoloSection.into).map Pb.HoloSection.into = value.sections :=
    map_returns (fun _ => rfl) _
  have directory : (value.directory.map HoloDirectory.into).mapM (Pb.HoloDirectory.tryInto hologram) =
      .ok value.directory := by
    cases present : value.directory with
    | none => rfl
    | some directory =>
      obtain ⟨schema,contracted⟩ := sound.directory directory present
      show (directory.into.tryInto hologram >>= _) = _
      rw [ok_bind (directory_returns schema contracted)]
  have embedded : ¬(value.applicationKappa.isSome && (!value.directoryEmbedded || value.directory.isNone)) = true := by
    intro refused
    obtain ⟨given,missing⟩ := Bool.and_eq_true_iff.mp refused
    obtain ⟨embedded,present⟩ := sound.application given
    rw [embedded,Option.isNone_eq_false_iff.mpr present] at missing
    cases missing
  unfold Pb.HoloInspection.tryInto
  refine (ok_bind (narrowU16_toNat value.formatVersion _)).trans ?_
  rw [if_neg (not_not.mpr sound.format)]
  refine (ok_bind directory).trans ?_
  refine (if_neg embedded).trans ?_
  simp only [HoloInspection.into,rows]
  rfl

theorem planLayer_returns {value : HoloPlanLayer} (contracted : Contracted hologram value.kind value.contract) :
    value.into.tryInto hologram = .ok value := by
  unfold Pb.HoloPlanLayer.tryInto
  refine (ok_bind contracted).trans ?_
  rfl

theorem plan_returns {value : HoloPlan}
    (contracted : ∀ layer ∈ value.layers,Contracted hologram layer.kind layer.contract) :
    value.into.tryInto hologram = .ok value := by
  have children : (value.children.map HoloChild.into).map Pb.HoloChild.into = value.children :=
    map_returns (fun _ => rfl) _
  have blockers : (value.blockers.map HoloPlanBlocker.into).map Pb.HoloPlanBlocker.into = value.blockers :=
    map_returns (fun _ => rfl) _
  unfold Pb.HoloPlan.tryInto
  refine (ok_bind (mapM_returns fun layer member => planLayer_returns (contracted layer member))).trans ?_
  simp only [HoloPlan.into,children,blockers]
  rfl

theorem requireCurrent_version (current : requireCurrent bytes = .ok done) :
    (bytes.getD 4 0).toNat+256*(bytes.getD 5 0).toNat = currentHoloVersion := by
  unfold requireCurrent at current
  split at current
  · rename_i low high rest
    dsimp only at current
    split at current
    · rename_i version
      simpa using version
    · cases current
  · cases current

variable {blobs : List (Bytes × Bytes)} {directory : HoloDirectory} {manifest : AppManifest}

theorem derived_contracted (derived : derive hologram manifest blobs = .ok directory) :
    directory.schemaVersion = schemaVersion ∧
      ∀ layer ∈ directory.layers,Contracted hologram layer.kind layer.contract := by
  unfold derive at derived
  obtain ⟨_,_,derived⟩ := bind_ok derived
  obtain ⟨_,_,derived⟩ := bind_ok derived
  obtain ⟨layers,rows,derived⟩ := bind_ok derived
  obtain ⟨_,_,derived⟩ := bind_ok derived
  cases derived
  refine ⟨rfl,fun layer member => ?_⟩
  obtain ⟨entry,_,made⟩ := mapM_ok_from rows layer member
  unfold deriveLayer at made
  obtain ⟨_,_,made⟩ := bind_ok made
  dsimp only at made
  split at made
  · rename_i kind
    obtain ⟨contract,known,made⟩ := bind_ok made
    cases made
    rw [kind]
    exact contracted_wasm (normalized_ok (mapError_ok known)).2
  all_goals
    rename_i kind
    cases made
    exact contracted_other fun same => by rw [kind] at same; cases same

theorem verifyRequired_derived (verified : verifyRequired hologram manifest directories blobs = .ok directory) :
    derive hologram manifest blobs = .ok directory := by
  unfold verifyRequired at verified
  split at verified
  · cases verified
  · cases verified
  · obtain ⟨declared,_,verified⟩ := bind_ok verified
    obtain ⟨derived,made,verified⟩ := bind_ok verified
    split at verified
    · cases verified
    · cases verified
      exact made

variable {inspection : HoloInspection}

theorem inspected_sound {kappa : Kappa}
    (inspected : inspectBytes hologram sections kappa name bytes = .ok inspection) : Sound hologram inspection := by
  unfold inspectBytes at inspected
  obtain ⟨_,current,inspected⟩ := bind_ok inspected
  obtain ⟨loader,_,inspected⟩ := bind_ok inspected
  obtain ⟨plan,_,inspected⟩ := bind_ok inspected
  dsimp only at inspected
  obtain ⟨extensions,_,inspected⟩ := bind_ok inspected
  have version : (UInt16.ofNat ((bytes.getD 4 0).toNat+256*(bytes.getD 5 0).toNat)).toNat = currentHoloVersion := by
    rw [requireCurrent_version current]
    rfl
  split at inspected
  · obtain ⟨manifest,_,inspected⟩ := bind_ok inspected
    obtain ⟨blobs,_,inspected⟩ := bind_ok inspected
    obtain ⟨derived,verified,inspected⟩ := bind_ok inspected
    cases inspected
    refine ⟨version,fun _ => ⟨rfl,rfl⟩,fun directory present => ?_⟩
    cases present
    exact derived_contracted (verifyRequired_derived verified)
  · split at inspected
    · cases inspected
    · cases inspected
      exact ⟨version,fun never => (by cases never),fun _ never => (by cases never)⟩

def Known (hologram : Hologram) (layer : PlannedLayer) : Prop :=
  layer.kind = .wasmCodemodule → normalizeWasmContract hologram layer.aux = .ok layer.aux

theorem planLayer_contracted (report : ApplicationPlanReport) (known : Known hologram layer) :
    Contracted hologram (planLayer hologram report layer).kind (planLayer hologram report layer).contract := by
  unfold planLayer
  dsimp only
  split
  · rename_i kind
    rw [known kind,kind]
    exact contracted_wasm (known kind)
  all_goals
    rename_i kind
    exact contracted_other fun same => by rw [kind] at same; cases same

theorem opened_known
    (opened : openArchive hologram archiveBytes = .ok archive) : ∀ layer ∈ plannedLayers archive.manifest,Known hologram layer := by
  obtain ⟨_,_,_,_,opened⟩ := openArchive_cases opened
  obtain ⟨directory,verified⟩ := opened.directory
  have derived := verifyRequired_derived verified
  unfold derive at derived
  obtain ⟨_,_,derived⟩ := bind_ok derived
  obtain ⟨_,_,derived⟩ := bind_ok derived
  obtain ⟨rows,made,_⟩ := bind_ok derived
  intro planned member wasm
  obtain ⟨entry,among,rfl⟩ := mem_map.mp member
  obtain ⟨row,derivedLayer⟩ := mapM_ok_mem made entry among
  unfold deriveLayer at derivedLayer
  obtain ⟨_,_,derivedLayer⟩ := bind_ok derivedLayer
  dsimp only at wasm derivedLayer
  rw [wasm] at derivedLayer
  obtain ⟨contract,known,_⟩ := bind_ok derivedLayer
  obtain ⟨same,normal⟩ := normalized_ok (mapError_ok known)
  rw [same] at normal
  exact normal

variable {report : ApplicationPlanReport}

theorem explained_known (explained : explainApplication hologram archiveBytes limits resolveLocal = .ok report) :
    ∀ layer ∈ report.layers,Known hologram layer := by
  obtain ⟨archive,opened,explained⟩ := explained_opened explained
  have known := opened_known opened
  unfold explainOpened at explained
  generalize (Walk.start limits archive).run hologram ⟨archive.embedded,resolveLocal⟩ limits limits.maxApplications =
    ran at explained
  cases ran with
  | error e => cases explained
  | ok walk =>
    cases explained
    intro layer member
    obtain ⟨planned,among,rfl⟩ := mem_map.mp member
    exact known planned among

theorem evaluated_known (evaluate : ProviderContext → ProviderAvailability)
    (known : ∀ layer ∈ report.layers,Known hologram layer) :
    ∀ layer ∈ (report.evaluateProviders evaluate).layers,Known hologram layer := by
  intro layer member
  obtain ⟨judged,listed,rfl⟩ := mem_map.mp member
  obtain ⟨planned,among,rfl⟩ := mem_map.mp listed
  have so := known planned among
  split
  · exact so
  · exact so

theorem fromReport_returns (target : Str) (known : ∀ layer ∈ report.layers,Known hologram layer) :
    (HoloPlan.fromReport hologram report target).into.tryInto hologram = .ok (HoloPlan.fromReport hologram report target) := by
  refine plan_returns fun layer member => ?_
  obtain ⟨planned,among,rfl⟩ := mem_map.mp member
  exact planLayer_contracted report (known planned among)

def Trusted (hologram : Hologram) (grant : EffectiveGrant) : Prop :=
  grant = localBaseline hologram ∨
    ∃ bytes source,fromCanonical hologram bytes source = .ok grant

def Addresses (hologram : Hologram) : Prop := ∀ bytes,hologram.addressBytes bytes ≠ []

variable {grant : EffectiveGrant}

theorem trusted_addressed (trusted : Trusted hologram grant) : ∃ bytes,grant.kappa = hologram.addressBytes bytes := by
  obtain rfl | ⟨bytes,source,compiled⟩ := trusted
  · exact ⟨_,rfl⟩
  · unfold fromCanonical at compiled
    obtain ⟨_,_,compiled⟩ := bind_ok compiled
    cases compiled
    exact ⟨_,rfl⟩

theorem requested_addressed {sources : Sources} {kappa : Kappa}
    (found : sources.requested hologram kappa = some requested) : ∃ bytes,requested.kappa = hologram.addressBytes bytes := by
  unfold Sources.requested at found
  obtain ⟨object,_,decoded⟩ := Option.bind_eq_some_iff.mp found
  have decoded := ok_of_toOption decoded
  unfold RequestedCapabilities.decode CapabilityObject.decode at decoded
  split at decoded
  · cases decoded
  · rename_i same
    obtain ⟨_,_,decoded⟩ := bind_ok decoded
    cases decoded
    exact ⟨object.bytes,(not_not.mp same).symm⟩

variable {plan : ApplicationPlan}

theorem planned_addressed (planned : Planned hologram plan) :
    ∃ bytes,plan.requestedCapabilities.kappa = hologram.addressBytes bytes := by
  obtain ⟨archiveBytes,limits,resolveLocal,report,evaluate,explained,into⟩ := planned
  obtain ⟨archive,_,explained⟩ := explained_opened explained
  obtain ⟨clean,requested,_⟩ := intoApplicationPlan_cases into
  have unblocked : report.blockers = [] :=
    (append_eq_nil_iff.mp (append_eq_nil_iff.mp clean).1).1
  obtain ⟨_,order,closure,drains,_,_,rfl⟩ := explainOpened_clean explained unblocked
  change (if order.length = 0 then none else _) = _ at requested
  split at requested
  · cases requested
  · exact requested_addressed requested

theorem loaded_disclosed (addresses : Addresses hologram)
    (planned : Planned hologram plan) (trusted : Trusted hologram grant) :
    Disclosed (loaded plan grant).requestedCapabilitiesKappa
      (loaded plan grant).effectiveGrantKappa (loaded plan grant).grantSource "allowed".toList := by
  obtain ⟨bytes,requested⟩ := planned_addressed planned
  obtain ⟨canonical,granted⟩ := trusted_addressed trusted
  refine ⟨?_,?_,?_,by decide⟩
  · exact fun none => addresses bytes (requested.symm.trans none)
  · exact fun none => addresses canonical (granted.symm.trans none)
  · show grant.source.name ≠ []
    cases grant.source <;> decide

section
variable (hologram : Hologram) (sections : Bytes → List HoloSection)

def Inspected (inspection : HoloInspection) : Prop :=
  ∃ kappa name bytes found id filename,inspectBytes hologram sections kappa name bytes = .ok found ∧
    inspection = {found with kappa := id,name := filename}

def Resident (record : ResidentHolo) : Prop :=
  ∃ plan grant kappa state status,Planned hologram plan ∧ Trusted hologram grant ∧
    record = (loaded plan grant).record kappa state status

-- What the service can answer. The responses that the client takes without a check
-- may hold anything.
def Produced : RpcResponse → Prop
  | .holoInspection inspection => Inspected hologram sections inspection
  | .holoList items => ∀ item ∈ items,Inspected hologram sections item
  | .holoPlan plan => ∃ archiveBytes limits resolveLocal report evaluate target,
      explainApplication hologram archiveBytes limits resolveLocal = .ok report ∧
      plan = HoloPlan.fromReport hologram (report.evaluateProviders evaluate) target
  | .holoResident items => ∀ item ∈ items,Resident hologram item
  | .holoRun result => ∃ plan grant kappa outcome status,Planned hologram plan ∧ Trusted hologram grant ∧
      result = (loaded plan grant).result kappa outcome status
  | _ => True

def carried (error : LiveError) : Option LiveError :=
  match (RpcResponse.error (.ofLiveError error)).into.tryInto hologram with
  | .ok (.error error) => some error.toLiveError
  | _ => none

end

def rebuilt : LiveError → Bool
  | .io _ | .config _ | .transport _ => false
  | _ => true

theorem LifecycleState.name_nonempty (state : LifecycleState) : state.name ≠ [] := by cases state <;> decide

theorem inspected_returns (inspected : Inspected hologram sections inspection) :
    inspection.into.tryInto hologram = .ok inspection := by
  obtain ⟨kappa,name,bytes,found,id,filename,inspected,rfl⟩ := inspected
  obtain ⟨format,application,directory⟩ := inspected_sound inspected
  exact inspection_returns ⟨format,application,directory⟩

theorem produced_returns (addresses : Addresses hologram) {response : RpcResponse}
    (produced : Produced hologram sections response) : response.into.tryInto hologram = .ok response := by
  have mapped {α : Type} {answer : Except LiveError α} {value : α} (same : answer = .ok value)
      (wrap : α → RpcResponse) : answer.map wrap = .ok (wrap value) := by rw [same]; rfl
  have listed {α β : Type} {f : α → β} {g : β → α} (back : ∀ a,g (f a) = a) (wrap : List α → RpcResponse)
      (items : List α) : (.ok (wrap ((items.map f).map g)) : Except LiveError RpcResponse) = .ok (wrap items) := by
    rw [map_returns back]
  have kept {α : Type} {value back : α} (same : back = value) (wrap : α → RpcResponse) :
      (.ok (wrap back) : Except LiveError RpcResponse) = .ok (wrap value) := by rw [same]
  cases response with
  | capabilityManifest value => exact mapped (capabilityManifest_returns value) .capabilityManifest
  | health value => exact mapped (health_returns value) .health
  | modules items => exact listed (fun _ => rfl) .modules items
  | objects items => exact listed (fun _ => rfl) .objects items
  | objectPage page => exact kept (objectPage_returns page) .objectPage
  | object value => rfl
  | objectContent value => rfl
  | holoInspection value => exact mapped (inspected_returns produced) .holoInspection
  | holoPlan value =>
    obtain ⟨archiveBytes,limits,resolveLocal,report,evaluate,target,explained,rfl⟩ := produced
    exact mapped (fromReport_returns target (evaluated_known evaluate (explained_known explained))) .holoPlan
  | holoList items =>
    exact mapped (mapM_returns fun item member => inspected_returns (produced item member)) .holoList
  | holoResident items =>
    refine mapped (mapM_returns fun item member => ?_) .holoResident
    obtain ⟨plan,grant,kappa,state,status,planned,trusted,rfl⟩ := produced item member
    exact resident_returns (LifecycleState.name_nonempty state) (loaded_disclosed addresses planned trusted)
  | holoRun value =>
    obtain ⟨plan,grant,kappa,outcome,status,planned,trusted,rfl⟩ := produced
    exact mapped (runResult_returns (loaded_disclosed addresses planned trusted)) .holoRun
  | conversation value => exact kept (conversation_returns value) .conversation
  | conversations items => exact listed conversation_returns .conversations items
  | model value => rfl
  | models items => exact listed (fun _ => rfl) .models items
  | nodes items => exact listed (fun _ => rfl) .nodes items
  | pluginResult json => rfl
  | plugins items => exact listed (fun _ => rfl) .plugins items
  | tracingFilter filter => rfl
  | accepted => rfl
  | error value => rfl

theorem carried_code (error : LiveError) :
    (∃ back,carried hologram error = some back ∧ back.code = error.code) ↔ rebuilt error := by
  constructor
  · intro ⟨back,came,same⟩
    cases error with
    | io message => cases came; exact absurd same (show "LIVE_PROTOCOL_ERROR".toList ≠ "LIVE_IO".toList by decide)
    | config message =>
      cases came
      exact absurd same (show "LIVE_PROTOCOL_ERROR".toList ≠ "LIVE_CONFIG_INVALID".toList by decide)
    | transport message =>
      cases came
      exact absurd same (show "LIVE_PROTOCOL_ERROR".toList ≠ "LIVE_TRANSPORT_UNAVAILABLE".toList by decide)
    | _ => rfl
  · intro named
    cases error with
    | io message | config message | transport message => cases named
    | _ => exact ⟨_,rfl,rfl⟩

theorem wire_faithful (addresses : Addresses hologram) (sections : Bytes → List HoloSection) :
    (∀ request : RpcRequest,request.into.tryInto = .ok request) ∧
    (∀ response,Produced hologram sections response → response.into.tryInto hologram = .ok response) ∧
    ∀ error,(∃ back,carried hologram error = some back ∧ back.code = error.code) ↔ rebuilt error :=
  ⟨request_returns,fun _ => produced_returns addresses,carried_code⟩

theorem thrifty_faithful : (∀ request : RpcRequest,request.into.tryInto = .ok request) ∧
    (∀ response,Produced thrifty (fun _ => []) response → response.into.tryInto thrifty = .ok response) ∧
    ∀ error,(∃ back,carried thrifty error = some back ∧ back.code = error.code) ↔ rebuilt error :=
  wire_faithful (fun bytes none => by cases none) fun _ => []

theorem io_code_lost : ¬∀ error,∃ back,carried thrifty error = some back ∧ back.code = error.code := by
  intro kept
  obtain ⟨back,came,same⟩ := kept (.io "object blake3:0 is corrupt".toList)
  cases came
  exact absurd same (by decide)

end HologramLive.Rpc
