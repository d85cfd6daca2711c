import CCattler.Agent.Site
import CCattler.Controllers.WatchedFacts

/-! # What the parts of a cycle can do

Most functions of the agent start no container, report no instance as running, and
leave the entries of other instances alone. The functions are walked through by
instance search; where a function distinguishes a reply, so does its proof.
-/

namespace CCattler.NodeAgent

open Go Store Concurrency CCattler.Types CCattler.Controllers AgentProgram
open Concurrency.Proc (Makes yields_bind yields_pure)

-- the size of an instance grows with the number of steps of a function
set_option synthInstance.maxSize 100000

/-! ## Routine calls -/

/-- What an agent reports is below these prefixes. -/
def IsReport (key : Str) : Prop := lit "observed/" <+: key ∨ lit "network/" <+: key

/-- A call that starts nothing and writes nothing but reports. -/
abbrev Routine : AgentCall → Prop
  | .store request =>
    request.usesLease = false ∧ ∀ operation ∈ request.operations, IsReport operation.key
  | .start _ => False
  | _ => True

section Requests

variable {key value instanceID field : Str}

theorem isReport_instance (rest : Str) : IsReport (scanObservedInstances ++ rest) :=
  Or.inl ((show lit "observed/" <+: scanObservedInstances by decide).trans (List.prefix_append _ _))

instance : Fact (IsReport (fieldKey scanObservedInstances instanceID field)) :=
  ⟨isReport_instance _⟩

instance : Fact (IsReport (keyObservedInstance instanceID)) := ⟨isReport_instance _⟩
instance : Fact (IsReport (keyObservedInstanceState instanceID)) := ⟨isReport_instance _⟩
instance : Fact (IsReport (keyObservedInstanceStatusReason instanceID)) := ⟨isReport_instance _⟩
instance : Fact (IsReport (keyObservedInstancePullStatus instanceID)) := ⟨isReport_instance _⟩
instance : Fact (IsReport (keyObservedInstanceExitReason instanceID)) := ⟨isReport_instance _⟩
instance : Fact (IsReport (keyObservedInstanceIP instanceID)) := ⟨isReport_instance _⟩
instance : Fact (IsReport (keyObservedInstanceService instanceID)) := ⟨isReport_instance _⟩
instance : Fact (IsReport (keyObservedInstanceNode instanceID)) := ⟨isReport_instance _⟩
instance : Fact (IsReport (keyObservedInstanceCreatedAt instanceID)) := ⟨isReport_instance _⟩
instance : Fact (IsReport (keyObservedInstanceSecretWait instanceID)) := ⟨isReport_instance _⟩
instance : Fact (IsReport (keyObservedInstanceInitProgress instanceID)) := ⟨isReport_instance _⟩
instance : Fact (IsReport (keyObservedInstanceImage instanceID)) := ⟨isReport_instance _⟩
instance : Fact (IsReport (keyObservedInstanceConfigHash instanceID)) := ⟨isReport_instance _⟩

instance {port : Int} : Fact (IsReport (keyObservedInstanceHostPortForPort instanceID port)) :=
  ⟨isReport_instance _⟩

instance {step : Int} : Fact (IsReport (keyObservedInstanceInitStepState instanceID step)) :=
  ⟨isReport_instance _⟩

instance {step : Int} : Fact (IsReport (keyObservedInstanceInitStepReason instanceID step)) :=
  ⟨isReport_instance _⟩

instance : Fact (IsReport (keyNetworkAllocation instanceID)) :=
  ⟨Or.inr ((show lit "network/" <+: lit "network/allocation/" by decide).trans
    (List.prefix_append _ _))⟩

instance : Fact (StoreRequest.get key).IsRead := ⟨trivial⟩

instance : Fact (StoreRequest.scan key).IsRead := ⟨trivial⟩

instance {request : StoreRequest} [h : Fact request.IsRead] : Fact (Routine (.store request)) := by
  have hread := h.out
  cases request <;> first | exact hread.elim | exact ⟨rfl, fun _ hmem => nomatch hmem⟩

section

variable [h : Fact (IsReport key)]

instance : Fact (Routine (.store (.put key value))) :=
  ⟨rfl, by simpa [StoreRequest.operations] using h.out⟩

instance : Fact (Routine (.store (.delete key))) :=
  ⟨rfl, by simpa [StoreRequest.operations] using h.out⟩

instance : Fact (Routine (.store (.transaction [⟨key, 0⟩] [⟨.put, key, value⟩] []))) :=
  ⟨rfl, by simpa [StoreRequest.operations] using h.out⟩

end

end Requests

/-! ## The wrappers -/

section Wrappers

variable {allowed : AgentCall → Prop} {key value : Str}

section

variable [Fact (allowed (.store (.get key)))]

instance : Makes allowed (get key) :=
  inferInstanceAs (Makes allowed (Proc.request _))

instance : Makes allowed (lookup key) := by
  refine Makes.seq fun reply => ?_
  cases reply <;> infer_instance

end

section

variable [Fact (allowed (.store (.scan key)))]

instance : Makes allowed (scan key) :=
  inferInstanceAs (Makes allowed (Proc.request _))

instance : Makes allowed (scanned key) := by
  refine Makes.seq fun reply => ?_
  cases reply <;> infer_instance

end

instance [Fact (allowed (.store (.put key value)))] : Makes allowed (put key value) :=
  inferInstanceAs (Makes allowed (Proc.request _))

instance [Fact (allowed (.store (.put key value)))] : Makes allowed (publish key value) := by
  unfold publish
  infer_instance

instance [Fact (allowed (.store (.delete key)))] : Makes allowed (delete key) :=
  inferInstanceAs (Makes allowed (Proc.request _))

instance [Fact (allowed (.store (.delete key)))] : Makes allowed (retract key) := by
  unfold retract
  infer_instance

instance [Fact (allowed (.store (.transaction [⟨key, 0⟩] [⟨.put, key, value⟩] [])))] :
    Makes allowed (publishIfAbsent key value) := by
  unfold publishIfAbsent transaction
  infer_instance

instance {keys : List Str} [Fact (allowed (.visit keys))] : Makes allowed (visit keys) := by
  unfold visit
  infer_instance

instance {change : AgentMemory → AgentMemory} [Fact (allowed (.modify change))] :
    Makes allowed (modify change) :=
  inferInstanceAs (Makes allowed (Proc.request _))

instance [Fact (allowed .readMemory)] : Makes allowed readMemory :=
  inferInstanceAs (Makes allowed (Proc.request _))

instance [Fact (allowed .now)] : Makes allowed now :=
  inferInstanceAs (Makes allowed (Proc.request _))

instance {condition : Bool} {action : AgentProgram Unit} [Makes allowed action] :
    Makes allowed (whenever condition action) := by
  unfold whenever
  infer_instance

theorem makes_each {α : Type} {body : α → AgentProgram Unit} {items : List α}
    (h : ∀ item ∈ items, Makes allowed (body item)) : Makes allowed (each body items) := by
  induction items with
  | nil => exact inferInstanceAs (Makes allowed (pure ()))
  | cons item rest ih =>
    have := h item List.mem_cons_self
    exact Makes.seq fun _ => ih fun other hmem => h other (List.mem_cons_of_mem item hmem)

instance {α : Type} {body : α → AgentProgram Unit} {items : List α}
    [h : ∀ item, Makes allowed (body item)] : Makes allowed (each body items) :=
  makes_each fun item _ => h item

instance {α : Type} {less : α → α → AgentProgram Bool}
    [∀ left right, Makes allowed (less left right)] {items sorted : List α} :
    Makes allowed (Agent.sliceStable less items sorted) := by
  have hinsert : ∀ (item : α) (sorted : List α),
      Makes allowed (Agent.insertSorted less item sorted) := by
    intro item sorted
    induction sorted with
    | nil => exact inferInstanceAs (Makes allowed (pure _))
    | cons last before ih =>
      unfold Agent.insertSorted
      infer_instance
  induction items generalizing sorted with
  | nil => exact inferInstanceAs (Makes allowed (pure _))
  | cons item rest ih => exact Makes.seq fun _ => ih

section

variable {α : Type} (less : α → α → AgentProgram Bool)

theorem yields_insertSorted (item : α) (sorted : List α) :
    (Agent.insertSorted less item sorted).Yields (fun found => found.Perm (item :: sorted)) := by
  induction sorted with
  | nil => exact yields_pure (List.Perm.refl _)
  | cons last before ih =>
    refine yields_bind _ fun before? => ?_
    split
    · refine ih.bind fun inserted hinserted => yields_pure ?_
      exact (hinserted.cons last).trans (List.Perm.swap item last before)
    · exact yields_pure (List.Perm.refl _)

theorem yields_sliceStable (items sorted : List α) :
    (Agent.sliceStable less items sorted).Yields (fun found => found.Perm (items ++ sorted)) := by
  induction items generalizing sorted with
  | nil => exact yields_pure (List.reverse_perm sorted)
  | cons item rest ih =>
    refine (yields_insertSorted less item sorted).bind fun inserted hinserted => ?_
    refine (ih inserted).mono fun found hfound => ?_
    exact hfound.trans ((hinserted.append_left rest).trans List.perm_middle)

end

end Wrappers

/-! ## Reads of a service -/

/-- A read of the store. -/
abbrev ReadsStore : AgentCall → Prop
  | .store request => request.IsRead
  | _ => False

section Lookups

variable {service : Str} {libraries : Libraries}

instance : Makes Routine (lookupServiceImageFromStore service) := by
  unfold lookupServiceImageFromStore
  infer_instance

instance {primaryKey fallbackKey : Str} {parse : Str → Int} :
    Makes Routine (lookupResourceWithFallback primaryKey fallbackKey parse) := by
  refine Makes.seq fun _ => Makes.ite inferInstance (Makes.seq fun found => ?_)
  cases found <;> infer_instance

instance : Makes Routine (lookupServiceResourcesFromStore libraries service) := by
  unfold lookupServiceResourcesFromStore
  infer_instance

instance {configPrefix partPrefix : Str} :
    Makes Routine (resolveServiceConfig configPrefix partPrefix) := by
  unfold resolveServiceConfig
  infer_instance

instance : Makes Routine (computeServiceConfigHash libraries service) := by
  unfold computeServiceConfigHash resolveServiceConfigEnvVars resolveServiceConfigFiles
  infer_instance

instance : Makes Routine (lookupServiceVolumeMountsFromStore service) := by
  unfold lookupServiceVolumeMountsFromStore
  infer_instance

instance {allowed : AgentCall → Prop} {connectionName : Str} {secretValues : Map Str}
    [∀ key, Fact (allowed (.store (.get key)))] :
    Makes allowed (assembleConnectionURL connectionName secretValues) := by
  refine Makes.seq fun found => ?_
  cases found <;> infer_instance

end Lookups

/-! ## Reports -/

section Reports

variable {instanceID : Str} {agent : Agent}

instance {reason : Str} : Makes Routine (publishStatusReason instanceID reason) := by
  unfold publishStatusReason
  infer_instance

instance : Makes Routine (clearPullStatusFromStore instanceID) := by
  unfold clearPullStatusFromStore
  infer_instance

instance {runtimeStatus : Status} :
    Makes Routine (publishExitReasonFromStatus instanceID runtimeStatus) := by
  unfold publishExitReasonFromStatus
  infer_instance

instance {state : InstanceState} {exitReason : Str} :
    Makes Routine (publishExitReasonIfFailed instanceID state exitReason) := by
  unfold publishExitReasonIfFailed
  infer_instance

instance {runtimeIP : Str} :
    Makes Routine (agent.publishInstanceIP instanceID runtimeIP) := by
  refine Makes.ite (Makes.seq fun allocated => ?_) inferInstance
  cases allocated <;> infer_instance

instance {service runtimeIP : Str} {state : InstanceState} :
    Makes Routine
      (agent.publishInstanceStateToStore instanceID service state runtimeIP) := by
  unfold Agent.publishInstanceStateToStore Agent.registerEndpointIdentityIfSupported
    lookupServiceExposedPortsFromStore
  infer_instance

instance : Makes Routine (agent.republishHostPortIfNeeded instanceID) := by
  unfold Agent.republishHostPortIfNeeded publishInstanceHostPorts
  infer_instance

end Reports

/-! ## Volumes

A volume is handled by calls that name it and by writes of its own facts. -/

/-- The observed facts of a volume. -/
def OwnFact (volumeName key : Str) : Prop :=
  key = keyObservedVolume volumeName ∨ ∃ field, key = fieldKey scanObservedVolumes volumeName field

/-- A call made for a volume. -/
abbrev VolumeCall (volumeName : Str) : AgentCall → Prop
  | .store request =>
    request.usesLease = false ∧ ∀ operation ∈ request.operations, OwnFact volumeName operation.key
  | .createVolume _ name | .attachVolume _ name _ | .detachVolume _ name _ | .volumeUsage _ name =>
    name = volumeName
  | .panic => True
  | _ => False

theorem OwnFact.isPrefix {volumeName key : Str} (h : OwnFact volumeName key) :
    scanObservedVolumes <+: key := by
  rcases h with rfl | ⟨_, rfl⟩ <;> exact List.prefix_append _ _

theorem VolumeCall.routine {volumeName : Str} (call : AgentCall)
    (h : VolumeCall volumeName call) : Routine call := by
  cases call with
  | store request =>
    refine ⟨h.1, fun operation hmem => ?_⟩
    exact Or.inl ((show lit "observed/" <+: scanObservedVolumes by decide).trans
      (h.2 operation hmem).isPrefix)
  | createVolume _ _ | attachVolume _ _ _ | detachVolume _ _ _ | volumeUsage _ _ | panic =>
    exact trivial
  | _ => exact h.elim

section Volume

variable {volumeName key value : Str}

theorem ownFact_field (volumeName field : Str) :
    OwnFact volumeName (fieldKey scanObservedVolumes volumeName field) := Or.inr ⟨field, rfl⟩

instance : Fact (volumeName = volumeName) := ⟨rfl⟩

instance : Fact (VolumeCall volumeName (.store (.get key))) := ⟨rfl, fun _ hmem => nomatch hmem⟩

instance : Fact (VolumeCall volumeName (.store (.scan key))) := ⟨rfl, fun _ hmem => nomatch hmem⟩

section

variable [h : Fact (OwnFact volumeName key)]

instance : Fact (VolumeCall volumeName (.store (.put key value))) :=
  ⟨rfl, by simpa [StoreRequest.operations] using h.out⟩

instance : Fact (VolumeCall volumeName (.store (.delete key))) :=
  ⟨rfl, by simpa [StoreRequest.operations] using h.out⟩

instance : Fact (VolumeCall volumeName
    (.store (.transaction [⟨key, 0⟩] [⟨.put, key, value⟩] []))) :=
  ⟨rfl, by simpa [StoreRequest.operations] using h.out⟩

end

instance : Fact (OwnFact volumeName (keyObservedVolumeHomeNode volumeName)) := ⟨ownFact_field _ _⟩
instance : Fact (OwnFact volumeName (keyObservedVolumeMigrationSource volumeName)) :=
  ⟨ownFact_field _ _⟩
instance : Fact (OwnFact volumeName (keyObservedVolumeAccess volumeName)) := ⟨ownFact_field _ _⟩
instance {nodeID instanceID : Str} :
    Fact (OwnFact volumeName (keyObservedVolumeAttachment volumeName nodeID instanceID)) :=
  ⟨ownFact_field _ _⟩

theorem ownFact_of_mem_facts {volume : Volume} {entry : Str × Str} (h : entry ∈ volume.facts) :
    OwnFact volume.name entry.1 := by
  simp only [Volume.facts, List.mem_append, List.mem_cons, List.not_mem_nil, or_false,
    List.mem_ite_nil_left] at h
  rcases h with (((((rfl | rfl | rfl) | ⟨-, rfl⟩) | ⟨-, rfl⟩) | ⟨-, rfl⟩) | ⟨-, rfl⟩) | ⟨-, rfl⟩
  · exact Or.inl rfl
  all_goals exact ownFact_field _ _

theorem makes_writeAll {allowed : AgentCall → Prop} {entries : List (Str × Str)}
    (h : ∀ entry ∈ entries, Makes allowed (put entry.1 entry.2)) :
    Makes allowed (writeAll entries) := by
  induction entries with
  | nil => exact inferInstanceAs (Makes allowed (pure ()))
  | cons entry rest ih =>
    have := h entry List.mem_cons_self
    refine Makes.seq fun reply => ?_
    cases reply with
    | ok revision => exact ih fun other hmem => h other (List.mem_cons_of_mem entry hmem)
    | error error => infer_instance

instance {size boundInstance node mountPath : Str} {state : VolumeState} {used capacity : Int} :
    Makes (VolumeCall volumeName) (writeObservedVolume
      ⟨volumeName, size, state, node, boundInstance, mountPath, used, capacity⟩) :=
  makes_writeAll fun entry hmem =>
    have : Fact (OwnFact volumeName entry.1) := ⟨ownFact_of_mem_facts hmem⟩
    inferInstance

variable {agent : Agent} {primary volumeProvider : StorageProvider} {instanceID : Str}

section

variable {allowed : AgentCall → Prop} [∀ key, Fact (allowed (.store (.get key)))]

instance : Makes allowed (Agent.lookupVolumeType volumeName) := by
  refine Makes.seq fun found => ?_
  cases found <;> infer_instance

instance : Makes allowed (agent.storageProviderForVolume primary volumeName) := by
  unfold Agent.storageProviderForVolume
  cases agent.localStorageProvider <;> infer_instance

end

instance {mountPath : Str} : Makes (VolumeCall volumeName)
    (agent.recordExclusiveAttachment volumeProvider volumeName instanceID mountPath) := by
  refine Makes.seq fun found => ?_
  unfold Agent.recordVolumeHomeNode
  cases found <;> infer_instance

instance : Makes (VolumeCall volumeName)
    (agent.attachExclusiveVolumeForInstance volumeProvider volumeName instanceID) := by
  refine Makes.seq fun created => ?_
  cases created with
  | error message => infer_instance
  | ok _ =>
    refine Makes.seq fun attached => ?_
    cases attached <;> infer_instance

instance {mountPath : Str} : Makes (VolumeCall volumeName)
    (agent.recordSharedAttachment volumeName instanceID mountPath) := by
  refine Makes.seq fun recorded => ?_
  cases recorded with
  | error error => infer_instance
  | ok revision =>
    refine Makes.seq fun attached => ?_
    cases attached <;> infer_instance

instance : Makes (VolumeCall volumeName)
    (agent.attachSharedVolumeForInstance volumeProvider volumeName instanceID) := by
  refine Makes.seq fun created => ?_
  cases created with
  | error message => infer_instance
  | ok _ =>
    refine Makes.seq fun attached => ?_
    cases attached <;> infer_instance

instance : Makes (VolumeCall volumeName)
    (agent.isNodeLocalVolumeHomeOrUnset volumeProvider volumeName) := by
  refine Makes.ite inferInstance (Makes.seq ?_)
  rintro ((_ | _) | _) <;> infer_instance

instance {volumeState : VolumeState} : Makes (VolumeCall volumeName)
    (agent.ensureExclusiveVolume volumeProvider volumeName instanceID volumeState) := by
  unfold Agent.ensureExclusiveVolume Agent.isExclusiveVolumeOnThisNode
  refine Makes.seq fun _ => Makes.ite (Makes.ite inferInstance ?_) inferInstance
  refine Makes.ite inferInstance (Makes.seq fun attached => ?_)
  cases attached <;> infer_instance

instance : Makes (VolumeCall volumeName) (agent.ensureVolume primary instanceID volumeName) := by
  refine Makes.seq fun found => ?_
  cases found with
  | none => infer_instance
  | some volumeState =>
    refine Makes.seq fun provider => Makes.ite (Makes.seq fun attached => ?_) inferInstance
    cases attached <;> infer_instance

instance : Makes (VolumeCall volumeName)
    (agent.detachSharedVolumeForInstance volumeProvider volumeName instanceID) := by
  refine Makes.seq fun deleted => ?_
  cases deleted with
  | error error => infer_instance
  | ok _ =>
    refine Makes.seq ?_
    rintro (_ | (_ | _)) <;> infer_instance

instance : Makes (VolumeCall volumeName)
    (agent.detachExclusiveVolume volumeProvider volumeName) := by
  refine Makes.seq fun _ => Makes.seq fun found => ?_
  cases found <;> infer_instance

instance makes_detachVolume :
    Makes (VolumeCall volumeName) (agent.detachVolume primary instanceID volumeName) := by
  unfold Agent.detachVolume
  infer_instance

end Volume

section Volumes

variable {agent : Agent} {primary : StorageProvider} {instanceID : Str}

/-- What is done for one volume is routine. -/
theorem makes_of_volume {Result : Type} {program : AgentProgram Result} (volumeName : Str)
    [h : Makes (VolumeCall volumeName) program] : Makes Routine program :=
  ⟨h.calls.mono VolumeCall.routine⟩

instance {volumeNames : List Str} :
    Makes Routine (agent.ensureVolumes primary instanceID volumeNames) := by
  induction volumeNames with
  | nil => exact inferInstanceAs (Makes _ (pure _))
  | cons first rest ih =>
    have : Makes Routine (agent.ensureVolume primary instanceID first) :=
      makes_of_volume first
    refine Makes.seq ?_
    rintro (_ | (_ | _)) <;> infer_instance

instance {info : PlacedInstance} :
    Makes Routine (agent.ensureVolumesAttachedForInstance primary info) := by
  unfold Agent.ensureVolumesAttachedForInstance
  infer_instance

instance {volumeName : Str} :
    Makes Routine (agent.lookupVolumeHostMountPath volumeName instanceID) := by
  unfold Agent.lookupVolumeHostMountPath
  infer_instance

instance {volumeMounts resolvedMounts : Map Str} {volumeNames : List Str} : Makes Routine
    (agent.resolveVolumeMounts instanceID volumeMounts volumeNames resolvedMounts) := by
  induction volumeNames generalizing resolvedMounts with
  | nil => exact inferInstanceAs (Makes _ (pure _))
  | cons first rest ih =>
    unfold Agent.resolveVolumeMounts
    infer_instance

instance : Makes Routine (agent.detachVolumesForInstance primary instanceID) := by
  have (volumeName : Str) : Makes Routine
      (agent.detachVolume primary instanceID volumeName) := makes_of_volume volumeName
  refine Makes.seq fun found => ?_
  cases found <;> infer_instance

end Volumes

/-! ## Secrets -/

section Secrets

section Reads

variable {allowed : AgentCall → Prop} [∀ key, Fact (allowed (.store (.get key)))]
  [∀ key, Fact (allowed (.store (.scan key)))]

instance {names : List Str} : Makes allowed (collectConnectionSecrets names) := by
  induction names with
  | nil => exact inferInstanceAs (Makes _ (pure _))
  | cons first rest ih =>
    refine Makes.seq ?_
    rintro ((_ | _) | connectionFact)
    · exact ih
    · infer_instance
    · refine Makes.seq fun found => ?_
      cases found <;> infer_instance

instance {serviceName : Str} : Makes allowed (collectConnectionSecretNames serviceName) := by
  refine Makes.seq fun scanned => ?_
  cases scanned <;> infer_instance

instance {serviceName : Str} : Makes allowed (loadServiceSecretRequirements serviceName) := by
  refine Makes.seq ?_
  rintro (_ | grantFacts)
  · infer_instance
  · refine Makes.seq ?_
    rintro (_ | connectionSecrets)
    · infer_instance
    · refine Makes.seq ?_
      rintro ((_ | _) | _) <;> infer_instance

end Reads

variable {agent : Agent} {info : PlacedInstance} {secretValues : Map Str}

instance {instanceID : Str} {connections : List (Str × Str)} {secretMounts : Map Str} :
    Makes Routine
      (addConnectionFiles instanceID secretValues connections secretMounts) := by
  induction connections generalizing secretMounts with
  | nil => exact inferInstanceAs (Makes _ (pure _))
  | cons first rest ih =>
    refine Makes.seq fun connectionURL => ?_
    cases resolveExplicitSecretMountPath first.2 with
    | none => exact ih
    | some usablePath =>
      refine Makes.ite ih (Makes.seq fun written => ?_)
      cases written <;> infer_instance

instance {secretMounts : Map Str} :
    Makes Routine (addConnectionFileMounts info secretValues secretMounts) := by
  refine Makes.seq fun scanned => ?_
  cases scanned <;> infer_instance

instance : Makes Routine (agent.buildInstanceSecretMounts info secretValues) := by
  unfold Agent.buildInstanceSecretMounts
  cases agent.secretMaterialDirectory with
  | none => infer_instance
  | some materialDirectory =>
    refine Makes.ite inferInstance (Makes.seq fun loaded => ?_)
    cases loaded <;> infer_instance

instance {instanceID : Str} :
    Makes Routine (agent.readDeliveredSecretValues instanceID) := by
  unfold Agent.readDeliveredSecretValues
  infer_instance

instance {instanceID : Str} : Makes Routine (fetchSecrets instanceID) := by
  refine Makes.seq fun fetched => ?_
  cases fetched with
  | error failure => infer_instance
  | ok deliveredValues =>
    refine Makes.seq fun written => ?_
    cases written <;> infer_instance

instance {instanceID : Str} {requirements : SecretRequirements} :
    Makes Routine (agent.reusableMaterial instanceID requirements) := by
  refine Makes.ite (Makes.seq fun existing => ?_) inferInstance
  cases existing <;> infer_instance

instance {instanceID : Str} {requirements : SecretRequirements} :
    Makes Routine (isWaitingForSecrets instanceID requirements) := by
  refine Makes.seq fun memory => ?_
  cases memory.secretDeliveryWaits.lookup instanceID <;> infer_instance

instance {instanceID : Str} :
    Makes Routine (clearSecretDeliveryWait instanceID) := by
  unfold clearSecretDeliveryWait
  infer_instance

variable {requirements : SecretRequirements}

instance {failure : DeliveryFailure} :
    Makes Routine (agent.recordSecretDeliveryWait info requirements failure) := by
  unfold Agent.recordSecretDeliveryWait
  infer_instance

instance : Makes Routine (agent.deliverSecrets info requirements) := by
  refine Makes.ite inferInstance (Makes.seq fun delivered => ?_)
  cases delivered <;> infer_instance

instance : Makes Routine (agent.prepareInstanceSecretMaterial info) := by
  refine Makes.seq fun loaded => ?_
  cases loaded with
  | error error => infer_instance
  | ok requirements =>
    refine Makes.ite inferInstance (Makes.seq fun reusable => ?_)
    cases reusable <;> infer_instance

end Secrets

/-! ## Init steps -/

section Init

variable {agent : Agent} {libraries : Libraries} {instanceID : Str}
  {info : PlacedInstance} {stepDefinition : InitStepDefinition} {image : Str} {totalSteps : Int}

instance {serviceName : Str} {stepIndex : Int} :
    Makes Routine (loadInitStepDefinition libraries serviceName stepIndex) := by
  unfold loadInitStepDefinition
  infer_instance

instance {serviceName : Str} {indices : List Nat} :
    Makes Routine (loadInitSteps libraries serviceName indices) := by
  induction indices with
  | nil => exact inferInstanceAs (Makes _ (pure _))
  | cons first rest ih =>
    unfold loadInitSteps
    infer_instance

instance {stepIndex : Int} {reason : Str} :
    Makes Routine (recordInitStepFailure instanceID stepIndex reason) := by
  unfold recordInitStepFailure
  infer_instance

instance {progress : InitProgress} :
    Makes Routine (publishInitProgress libraries instanceID progress) := by
  unfold publishInitProgress
  cases libraries.marshalInitProgress progress <;> infer_instance

instance {initSpec : ExecSpec} :
    Makes Routine (agent.materializeInitConfigFiles info initSpec) := by
  refine Makes.seq fun _ => Makes.seq fun mounts => ?_
  cases mounts <;> infer_instance

instance : Makes Routine (agent.runInitCommand image info stepDefinition) := by
  unfold Agent.runInitCommand resolveServiceConfigEnvVars
  refine Makes.ite inferInstance (Makes.seq fun _ => Makes.seq fun materialized => ?_)
  cases materialized <;> infer_instance

instance {hostname originalAddress : Str} :
    Makes Routine (agent.resolveConnectionAddress hostname originalAddress) := by
  refine Makes.ite inferInstance (Makes.seq ?_)
  rintro (_ | (_ | _))
  · infer_instance
  · infer_instance
  · cases agent.libraries.splitPort originalAddress <;> infer_instance

instance : Makes Routine (agent.runConnectionProbe info stepDefinition) := by
  refine Makes.seq fun _ => Makes.seq fun _ => Makes.ite inferInstance (Makes.seq ?_)
  rintro (_ | connectionValue)
  · infer_instance
  · refine Makes.seq ?_
    rintro (_ | resolvedAddress)
    · infer_instance
    · refine Makes.seq fun dialed => ?_
      cases dialed <;> infer_instance

instance : Makes Routine (agent.runInitStep image info stepDefinition) := by
  unfold Agent.runInitStep
  infer_instance

instance {backoffEntry : InitStepBackoffEntry} : Makes Routine
    (agent.attemptInitStep info stepDefinition image totalSteps backoffEntry) := by
  refine Makes.seq fun _ => Makes.seq fun _ => Makes.seq fun outcome => ?_
  cases outcome <;> infer_instance

instance {backoffEntry : InitStepBackoffEntry} :
    Makes Routine (isInitStepBackingOff backoffEntry) := by
  unfold isInitStepBackingOff
  cases backoffEntry.nextRetryAt <;> infer_instance

instance {backoffKey : Str} : Makes Routine (recallInitStepBackoff backoffKey) := by
  refine Makes.seq fun memory => ?_
  cases memory.initStepBackoffs.lookup backoffKey <;> infer_instance

instance :
    Makes Routine (agent.executeInitStep info stepDefinition image totalSteps) := by
  unfold Agent.executeInitStep
  infer_instance

instance {stepDefinitions : List InitStepDefinition} :
    Makes Routine (agent.executeInitSteps info image totalSteps stepDefinitions) := by
  induction stepDefinitions with
  | nil =>
    unfold Agent.executeInitSteps clearInitProgress
    infer_instance
  | cons first rest ih =>
    unfold Agent.executeInitSteps readInitStepState
    infer_instance

end Init

/-! ## The cycle -/

section Cycle

variable {agent : Agent} {instanceID : Str} {info : PlacedInstance}

instance : Makes Routine (isInstanceMarkedForSkip instanceID) := by
  refine Makes.seq fun found => ?_
  cases found <;> infer_instance

instance : Makes Routine (lookupServiceOfInstance instanceID) := by
  refine Makes.seq fun found => ?_
  cases found <;> infer_instance

instance : Makes Routine (agent.findPlacedInstance instanceID) := by
  unfold Agent.findPlacedInstance
  infer_instance

instance {instanceIDs : List Str} :
    Makes Routine (agent.findPlacedInstances instanceIDs) := by
  induction instanceIDs with
  | nil => exact inferInstanceAs (Makes _ (pure _))
  | cons first rest ih =>
    unfold Agent.findPlacedInstances
    infer_instance

instance : Makes Routine agent.findInstancesPlacedOnThisNode := by
  refine Makes.seq fun placements => ?_
  cases placements <;> infer_instance

instance {service : Str} {secretValues : Map Str} :
    Makes Routine (agent.resolveImagePullCredentials service secretValues) := by
  unfold Agent.resolveImagePullCredentials lookupImagePullSecretFromStore
  refine Makes.seq fun secretName => Makes.ite inferInstance ?_
  cases (secretValues.lookup secretName).bind agent.libraries.registryCredentials <;> infer_instance

instance {hookKey : Str} :
    Makes Routine (Agent.executeLifecycleHook instanceID hookKey) := by
  unfold Agent.executeLifecycleHook
  infer_instance

instance {serviceName : Str} :
    Makes Routine (agent.stopInstanceWithGracePeriod instanceID serviceName) := by
  unfold Agent.stopInstanceWithGracePeriod Agent.lookupGracePeriod
  refine Makes.seq fun found => ?_
  cases found <;> infer_instance

instance : Makes Routine (agent.registerLegacySecretAPIToken info) := by
  unfold Agent.registerLegacySecretAPIToken
  cases agent.secretAPIBaseURL with
  | none => infer_instance
  | some baseURL =>
    refine Makes.seq fun _ => Makes.ite (Makes.seq fun registered => ?_) inferInstance
    cases registered <;> infer_instance

instance : Makes Routine (Agent.revokeInstanceToken instanceID) := by
  unfold Agent.revokeInstanceToken
  infer_instance

instance : Makes Routine (agent.allocateInstanceIP instanceID) := by
  refine Makes.ite (Makes.seq fun allocated => ?_) inferInstance
  cases allocated <;> infer_instance

instance {image : Str} : Makes Routine (agent.buildRuntimeSpecForInstance info image) := by
  unfold Agent.buildRuntimeSpecForInstance resolveServiceConfigEnvVars resolveServiceConfigFiles
    lookupServiceCommandFromStore lookupServiceExposedPortsFromStore
  infer_instance

instance {image startError : Str} :
    Makes Routine (agent.publishFailedStart info image startError) := by
  unfold Agent.publishFailedStart
  infer_instance

instance : Makes Routine (agent.awaitVolumes info) := by
  unfold Agent.awaitVolumes
  cases agent.storageProvider with
  | none => infer_instance
  | some primary =>
    refine Makes.seq fun _ => Makes.seq fun ready => ?_
    cases ready <;> infer_instance

instance {image : Str} {secretAPI : Option (Str × Str)} :
    Makes Routine (agent.awaitInitAndVolumes info image secretAPI) := by
  unfold Agent.awaitInitAndVolumes Agent.awaitInitSteps hasInitSteps
    Agent.executeInitializationSteps loadInitStepDefinitions readCurrentInitPhase
  infer_instance

section Placed

variable {image credentials : Str}

instance :
    Makes Routine (Agent.clearPullBackoff instanceID) := by
  unfold Agent.clearPullBackoff
  infer_instance

instance {errorMessage : Str} :
    Makes Routine (agent.recordImagePullFailure info image errorMessage) := by
  refine Makes.seq fun _ => Makes.seq fun _ => Makes.seq fun _ => Makes.seq fun _ => ?_
  split <;> infer_instance

instance : Makes Routine (agent.pullImage info image credentials) := by
  refine Makes.seq fun _ => Makes.seq fun pulled => ?_
  cases pulled <;> infer_instance

instance : Makes Routine (Agent.isPullBackingOff instanceID) := by
  refine Makes.seq fun memory => ?_
  cases memory.imagePullBackoffs.lookup instanceID <;> infer_instance

instance : Makes Routine (agent.ensureImageAvailable info image credentials) := by
  unfold Agent.ensureImageAvailable lookupServicePullPolicyFromStore Agent.isImageUsable
  infer_instance

instance : Makes Routine (agent.prepareInstance info) := by
  unfold Agent.prepareInstance
  refine Makes.seq fun _ => Makes.ite inferInstance (Makes.seq fun material => ?_)
  cases material <;> infer_instance

end Placed

instance : Makes Routine (agent.detectConfigChange info) := by
  refine Makes.seq fun found => ?_
  cases found <;> infer_instance

instance {effective : AppliedResourceAllocation} :
    Makes Routine (agent.resizeInstance info effective) := by
  refine Makes.seq ?_
  rintro ((_ | _) | _) <;> infer_instance

instance : Makes Routine (agent.reconcileResourceChanges info) := by
  refine Makes.seq fun _ => Makes.ite inferInstance (Makes.seq fun memory => ?_)
  cases memory.appliedInstanceResources.lookup info.id <;> infer_instance

instance {runtimeStatus : Option Status} :
    Makes Routine (Agent.publishPreviousExit instanceID runtimeStatus) := by
  unfold Agent.publishPreviousExit
  cases runtimeStatus <;> infer_instance

instance : Makes Routine (agent.publishRemovedInstance instanceID) := by
  unfold Agent.publishRemovedInstance
  infer_instance

instance {left right : PlacedInstance} : Makes Routine (Agent.startsBefore left right) := by
  unfold Agent.startsBefore hasInitSteps
  infer_instance

instance : Makes Routine (agent.releaseInstance instanceID) := by
  unfold Agent.releaseInstance
  cases agent.storageProvider <;> infer_instance

instance {runningByID : Map Status} :
    Makes Routine (agent.cleanupContainer runningByID instanceID) := by
  unfold Agent.cleanupContainer Agent.cleanupUndesiredInstance Agent.cleanupStoppedStaleInstance
    lookupServiceNameForInstance
  cases runningByID.lookup instanceID <;> infer_instance

variable {desiredIDs : List Str}

instance {running : List Status} :
    Makes Routine (agent.sweepSecretMaterial desiredIDs running) := by
  unfold Agent.sweepSecretMaterial
  infer_instance

instance : Makes Routine (Agent.sweepPullBackoffs desiredIDs) := by
  unfold Agent.sweepPullBackoffs
  infer_instance

instance : Makes Routine (Agent.sweepInitBackoffs desiredIDs) := by
  refine Makes.seq fun _ => Makes.seq fun _ => makes_each fun backoffKey _ => ?_
  cases Str.cut (lit "/") backoffKey <;> infer_instance

end Cycle

/-! ## Starts -/

/-- A routine call, or the start of a container with an allowed specification. -/
abbrev StartsOnly (allowed : Spec → Prop) : AgentCall → Prop
  | .start spec => allowed spec
  | call => Routine call

theorem Routine.startsOnly {allowed : Spec → Prop} (call : AgentCall) (h : Routine call) :
    StartsOnly allowed call := by
  cases call with
  | start spec => exact h.elim
  | _ => exact h

/-- Routine programs start no container. -/
theorem not_started_of_routine {Result : Type} {program : AgentProgram Result}
    [hmakes : Makes Routine program] {mayFail : StoreRequest → Prop} {site : Site}
    {result : Result} {final : Journal}
    (hrun : program.Runs (journaled mayFail) ⟨site, []⟩ result final) {spec : Spec}
    {reply : AgentReply (.start spec)} : ⟨.start spec, reply⟩ ∉ final.history := by
  intro hentry
  rcases hmakes.calls.allowed_of_mem hrun hentry with hinitial | hroutine
  · cases hinitial
  · exact hroutine.elim

section Starts

variable {allowed : Spec → Prop} {agent : Agent} {info : PlacedInstance}

instance (priority := low) {Result : Type} {program : AgentProgram Result}
    [h : Makes Routine program] : Makes (StartsOnly allowed) program :=
  ⟨h.calls.mono Routine.startsOnly⟩

instance {instanceID : Str} : Makes Routine (Agent.lookupRuntimeIP instanceID) := by
  refine Makes.seq fun reply => ?_
  cases reply <;> infer_instance

instance {runtimeIP : Str} : Makes Routine (agent.publishObservedState info runtimeIP) := by
  unfold Agent.publishObservedState observeInstanceState
  refine Makes.seq ?_
  rintro ⟨_, _⟩
  infer_instance

instance {image : Str} {runtimeSpec : Spec} :
    Makes Routine (agent.publishStartedInstance info image runtimeSpec) := by
  unfold Agent.publishStartedInstance Agent.retryBridgeAttachmentIfNeeded
  infer_instance

theorem yields_buildRuntimeSpecForInstance (image : Str) :
    (agent.buildRuntimeSpecForInstance info image).Yields (fun spec => spec.id = info.id) :=
  yields_bind _ fun _ => yields_bind _ fun _ => yields_bind _ fun _ =>
    yields_bind _ fun _ => yields_bind _ fun _ => yields_bind _ fun _ =>
      yields_pure rfl

theorem yields_prepareInstance : (agent.prepareInstance info).Yields (fun prepared =>
      ∀ found, prepared = some found → found.spec.id = info.id) := by
  refine yields_bind _ fun image => ?_
  split
  · exact yields_pure fun _ hnone => nomatch hnone
  · refine yields_bind _ fun material => ?_
    cases material with
    | none => exact yields_pure fun _ hnone => nomatch hnone
    | some secretValues =>
      refine yields_bind _ fun _ => yields_bind _ fun _ => ?_
      split
      · refine yields_bind _ fun _ => yields_bind _ fun _ => ?_
        split
        · refine yields_bind _ fun _ => ?_
          refine (yields_buildRuntimeSpecForInstance image).bind fun spec hspec => ?_
          refine yields_pure fun prepared hprepared => ?_
          cases hprepared
          exact hspec
        · exact yields_pure fun _ hnone => nomatch hnone
      · exact yields_pure fun _ hnone => nomatch hnone

theorem yields_mountVolumes (runtimeSpec : Spec) :
    (agent.mountVolumes info runtimeSpec).Yields (fun spec =>
      spec.id = runtimeSpec.id ∧ spec.secretMounts = runtimeSpec.secretMounts) := by
  unfold Agent.mountVolumes
  split
  · refine yields_bind _ fun _ => yields_bind _ fun _ => yields_bind _ fun _ => ?_
    split <;> exact yields_pure ⟨rfl, rfl⟩
  · exact yields_pure ⟨rfl, rfl⟩

instance {runtimeSpec : Spec} : Makes Routine (agent.mountVolumes info runtimeSpec) := by
  unfold Agent.mountVolumes Agent.resolveVolumeMountsForSpec
  infer_instance

theorem injectSecretAPIIntoSpec_kept (secretAPI : Option (Str × Str)) (spec : Spec) :
    (Agent.injectSecretAPIIntoSpec secretAPI spec).id = spec.id ∧
      (Agent.injectSecretAPIIntoSpec secretAPI spec).secretMounts = spec.secretMounts := by
  cases secretAPI <;> exact ⟨rfl, rfl⟩

variable (agent info)

/-- A launch starts its own instance, with the mounts it is given. -/
theorem startsOnly_launchInstance (prepared : Agent.PreparedInstance) (secretMounts : Map Str) :
    (agent.launchInstance info prepared secretMounts).Calls (StartsOnly (fun spec =>
      spec.id = prepared.spec.id ∧ spec.secretMounts = secretMounts)) := by
  refine Proc.Calls.bind_of_yields Makes.calls (yields_mountVolumes _) fun spec hspec => ?_
  obtain ⟨hid, hmounts⟩ := injectSecretAPIIntoSpec_kept prepared.secretAPI spec
  refine Proc.Calls.bind (Proc.calls_request ?_) fun started => ?_
  · exact ⟨hid.trans hspec.1, hmounts.trans hspec.2⟩
  · cases started <;> exact Makes.calls

theorem startsOnly_reconcileDesiredInstance :
    (agent.reconcileDesiredInstance info).Calls (StartsOnly (fun spec => spec.id = info.id)) := by
  refine Proc.Calls.bind_of_yields Makes.calls yields_prepareInstance fun prepared hprepared => ?_
  cases prepared with
  | none => exact Makes.calls
  | some prepared =>
    refine Proc.Calls.bind Makes.calls fun mounts => ?_
    cases mounts with
    | error message => exact Makes.calls
    | ok secretMounts =>
      refine (startsOnly_launchInstance agent info prepared secretMounts).mono ?_
      intro call hcall
      cases call with
      | start spec => exact hcall.1.trans (hprepared prepared rfl)
      | _ => exact hcall

theorem startsOnly_reconcileInstance (runningByID : Map Status) :
    (agent.reconcileInstance runningByID info).Calls
      (StartsOnly (fun spec => spec.id = info.id)) := by
  have : Makes (StartsOnly fun spec => spec.id = info.id) (agent.reconcileDesiredInstance info) :=
    ⟨startsOnly_reconcileDesiredInstance agent info⟩
  unfold Agent.reconcileInstance Agent.bringUpInstance Agent.observeRunningInstance
  cases runningByID.lookup info.id <;> exact Makes.calls

end Starts

end CCattler.NodeAgent
