import CCattler.Agent.Lookups

/-! # Attaching and detaching volumes

An exclusive volume is attached to one node for one instance, as its observed
facts say; a shared one keeps an attachment fact for each instance. A volume of
a node-local provider belongs to the node recorded as its home.
-/

namespace CCattler.NodeAgent

open Go Store Concurrency CCattler.Types CCattler.Controllers AgentProgram

/-- `types.Volume`, as far as `WriteObservedVolume` is given it by the agent. -/
structure Volume where
  name : Str
  size : Str
  state : VolumeState
  node : Str
  boundInstance : Str
  mountPath : Str
  usedBytes : Int
  capacityBytes : Int

/-- The facts of `WriteObservedVolume`; an empty field is not written. -/
def Volume.facts (volume : Volume) : List (Str × Str) :=
  [(keyObservedVolume volume.name, []), (keyObservedVolumeState volume.name, volume.state),
    (keyObservedVolumeSize volume.name, volume.size)] ++
  (if volume.node = [] then [] else [(keyObservedVolumeNode volume.name, volume.node)]) ++
  (if volume.boundInstance = [] then []
    else [(keyObservedVolumeInstance volume.name, volume.boundInstance)]) ++
  (if volume.mountPath = [] then []
    else [(keyObservedVolumeMountPath volume.name, volume.mountPath)]) ++
  (if volume.usedBytes ≤ 0 then []
    else [(keyObservedVolumeUsedBytes volume.name, itoa volume.usedBytes)]) ++
  (if volume.capacityBytes ≤ 0 then []
    else [(keyObservedVolumeCapacityBytes volume.name, itoa volume.capacityBytes)])

/-- The loop of `WriteObservedVolume`: the first failing write ends it. -/
def writeAll : List (Str × Str) → AgentProgram Unit
  | [] => return ()
  | entry :: rest => do
      match ← put entry.1 entry.2 with
      | .ok _ => writeAll rest
      | .error _ => return ()

def writeObservedVolume (volume : Volume) : AgentProgram Unit := writeAll volume.facts

namespace Agent

variable (agent : Agent)

/-- The type that decides about the provider: the observed one if it can be
read, else the desired one. -/
def lookupVolumeType (volumeName : Str) : AgentProgram (Option Str) := do
  match ← lookup (keyObservedVolumeType volumeName) with
  | some observedType => return some observedType
  | none => lookup (keyDesiredVolumeType volumeName)

def storageProviderForVolume (primary : StorageProvider) (volumeName : Str) :
    AgentProgram StorageProvider := do
  match agent.localStorageProvider with
  | none => return primary
  | some localProvider => do
      let volumeType ← lookupVolumeType volumeName
      if volumeType = some (lit "local") then return localProvider else return primary

def recordVolumeHomeNode (volumeName : Str) : AgentProgram Unit :=
  publishIfAbsent (keyObservedVolumeHomeNode volumeName) agent.nodeID

variable (volumeProvider : StorageProvider)

def recordExclusiveAttachment (volumeName instanceID mountPath : Str) : AgentProgram Unit := do
  match ← lookup (keyObservedVolumeSize volumeName) with
  -- the error is dropped and the missing fact dereferenced
  | none => Proc.request AgentCall.panic
  | some sizeValue => do
      let usage ← (Proc.request (AgentCall.volumeUsage volumeProvider.backend volumeName) :
        AgentProgram _)
      writeObservedVolume ⟨volumeName, sizeValue, volumeAttached, agent.nodeID, instanceID,
        mountPath, usage.1, usage.2⟩
      whenever volumeProvider.nodeLocal (agent.recordVolumeHomeNode volumeName)
      retract (keyObservedVolumeMigrationSource volumeName)

def attachExclusiveVolumeForInstance (volumeName instanceID : Str) :
    AgentProgram (Except Str Unit) := do
  match ← (Proc.request (AgentCall.createVolume volumeProvider.backend volumeName) :
      AgentProgram _) with
  | .error message => return .error (lit "creating volume " ++ volumeName ++ lit ": " ++ message)
  | .ok _ =>
    match ← (Proc.request (AgentCall.attachVolume volumeProvider.backend volumeName agent.nodeID) :
        AgentProgram _) with
    | .error message =>
      return .error (lit "attaching volume " ++ volumeName ++ lit ": " ++ message)
    | .ok mountPath => do
        agent.recordExclusiveAttachment volumeProvider volumeName instanceID mountPath
        return .ok ()

def recordSharedAttachment (volumeName instanceID mountPath : Str) :
    AgentProgram (Except Str Unit) := do
  match ← put (keyObservedVolumeAccess volumeName) volumeAccessShared with
  | .error error =>
    return .error
      (lit "recording shared access for volume " ++ volumeName ++ lit ": " ++ error.message)
  | .ok _ =>
    match ← put (keyObservedVolumeAttachment volumeName agent.nodeID instanceID) mountPath with
    | .error error =>
      return .error
        (lit "recording attachment for volume " ++ volumeName ++ lit ": " ++ error.message)
    | .ok _ => return .ok ()

def attachSharedVolumeForInstance (volumeName instanceID : Str) :
    AgentProgram (Except Str Unit) := do
  match ← (Proc.request (AgentCall.createVolume volumeProvider.backend volumeName) :
      AgentProgram _) with
  | .error message =>
    return .error (lit "creating shared volume " ++ volumeName ++ lit ": " ++ message)
  | .ok _ =>
    match ← (Proc.request (AgentCall.attachVolume volumeProvider.backend volumeName agent.nodeID) :
        AgentProgram _) with
    | .error message =>
      return .error (lit "attaching shared volume " ++ volumeName ++ lit ": " ++ message)
    | .ok mountPath => agent.recordSharedAttachment volumeName instanceID mountPath

/-- A home that cannot be read, unlike one not recorded, keeps the volume away. -/
def isNodeLocalVolumeHomeOrUnset (volumeName : Str) : AgentProgram Bool := do
  if volumeProvider.nodeLocal = false then return true
  else
    match ← get (keyObservedVolumeHomeNode volumeName) with
    | .error .keyNotFound => return true
    | .error (.failed _) => return false
    | .ok homeNodeFact => return homeNodeFact.value = agent.nodeID

def isExclusiveVolumeOnThisNode (volumeName : Str) : AgentProgram Bool := do
  return (← lookup (keyObservedVolumeNode volumeName)) = some agent.nodeID

def ensureExclusiveVolume (volumeName instanceID : Str) (volumeState : VolumeState) :
    AgentProgram (Except Str Bool) := do
  if ← agent.isNodeLocalVolumeHomeOrUnset volumeProvider volumeName then
    if volumeState = volumeAttached then
      return .ok (← agent.isExclusiveVolumeOnThisNode volumeName)
    else if volumeState ≠ volumeAvailable ∧ volumeState ≠ volumeMigrating then return .ok false
    else
      match ← agent.attachExclusiveVolumeForInstance volumeProvider volumeName instanceID with
      | .error message => return .error message
      | .ok _ => return .ok true
  else return .ok false

/-- The loop body of `ensureVolumesAttachedForInstance`. -/
def ensureVolume (primary : StorageProvider) (instanceID volumeName : Str) :
    AgentProgram (Except Str Bool) := do
  match ← lookup (keyObservedVolumeState volumeName) with
  | none => return .ok false
  | some volumeState => do
      let volumeProvider ← agent.storageProviderForVolume primary volumeName
      if volumeProvider.supportsSharedAttach then
        match ← agent.attachSharedVolumeForInstance volumeProvider volumeName instanceID with
        | .error message => return .error message
        | .ok _ => return .ok true
      else agent.ensureExclusiveVolume volumeProvider volumeName instanceID volumeState

def ensureVolumes (primary : StorageProvider) (instanceID : Str) :
    List Str → AgentProgram (Except Str Bool)
  | [] => return .ok true
  | volumeName :: rest => do
      match ← agent.ensureVolume primary instanceID volumeName with
      | .ok true => ensureVolumes primary instanceID rest
      | stopped => return stopped

def ensureVolumesAttachedForInstance (primary : StorageProvider) (info : PlacedInstance) :
    AgentProgram (Except Str Bool) := do
  let volumeMounts ← lookupServiceVolumeMountsFromStore info.service
  agent.ensureVolumes primary info.id (← visit volumeMounts.keys)

/-! ## Mount paths -/

def lookupVolumeHostMountPath (volumeName instanceID : Str) : AgentProgram Str := do
  let attachment := (← lookup
    (keyObservedVolumeAttachment volumeName agent.nodeID instanceID)).getD []
  if attachment ≠ [] then return attachment
  else return (← lookup (keyObservedVolumeMountPath volumeName)).getD []

/-- The loop of `resolveVolumeMountsForSpec`. -/
def resolveVolumeMounts (instanceID : Str) (volumeMounts : Map Str) :
    List Str → Map Str → AgentProgram (Map Str)
  | [], resolvedMounts => return resolvedMounts
  | volumeName :: rest, resolvedMounts => do
      let hostMountPath ← agent.lookupVolumeHostMountPath volumeName instanceID
      if hostMountPath = [] then resolveVolumeMounts instanceID volumeMounts rest resolvedMounts
      else
        resolveVolumeMounts instanceID volumeMounts rest
          (resolvedMounts.set hostMountPath (volumeMounts.get volumeName []))

def resolveVolumeMountsForSpec (info : PlacedInstance) (runtimeSpec : Spec) :
    AgentProgram Spec := do
  let volumeMounts ← lookupServiceVolumeMountsFromStore info.service
  let resolvedMounts ← agent.resolveVolumeMounts info.id volumeMounts (← visit volumeMounts.keys) ∅
  if resolvedMounts.len > 0 then return { runtimeSpec with volumeMounts := resolvedMounts }
  else return runtimeSpec

/-! ## Detaching -/

def detachSharedVolumeForInstance (volumeName instanceID : Str) : AgentProgram Unit := do
  match ← delete (keyObservedVolumeAttachment volumeName agent.nodeID instanceID) with
  | .error _ => return ()
  | .ok _ =>
    match ← scan (scanObservedVolumeNodeAttachments volumeName agent.nodeID) with
    | .ok [] => do
        let _ ← (Proc.request (AgentCall.detachVolume volumeProvider.backend volumeName
          agent.nodeID) : AgentProgram _)
        return ()
    | _ => return ()

def detachExclusiveVolume (volumeName : Str) : AgentProgram Unit := do
  let _ ← (Proc.request (AgentCall.detachVolume volumeProvider.backend volumeName agent.nodeID) :
    AgentProgram _)
  match ← lookup (keyObservedVolumeSize volumeName) with
  | none => Proc.request AgentCall.panic
  | some sizeValue =>
    writeObservedVolume ⟨volumeName, sizeValue, volumeAvailable, [], [], [], 0, 0⟩

/-- The loop body of `detachVolumesForInstance`. -/
def detachVolume (primary : StorageProvider) (instanceID volumeName : Str) : AgentProgram Unit := do
  let volumeProvider ← agent.storageProviderForVolume primary volumeName
  if volumeProvider.supportsSharedAttach then
    agent.detachSharedVolumeForInstance volumeProvider volumeName instanceID
  else agent.detachExclusiveVolume volumeProvider volumeName

def detachVolumesForInstance (primary : StorageProvider) (instanceID : Str) :
    AgentProgram Unit := do
  match ← lookup (keyObservedInstanceService instanceID) with
  | none => return ()
  | some serviceName => do
      let volumeMounts ← lookupServiceVolumeMountsFromStore serviceName
      each (agent.detachVolume primary instanceID) (← visit volumeMounts.keys)

end Agent

end CCattler.NodeAgent
