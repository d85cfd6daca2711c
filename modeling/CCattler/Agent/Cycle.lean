import CCattler.Agent.Init
import CCattler.Agent.Volumes

/-! # The reconciliation cycle

A cycle compares the instances placed on the node with what the runtime lists.
An instance that is placed and does not run is brought up, one that runs is
observed, and a container whose instance is not placed here is removed.
-/

namespace CCattler.NodeAgent

open Go Store Concurrency CCattler.Types CCattler.Controllers AgentProgram
open Proc (request)

def imagePullBaseDelay : Int := 10 * second

def imagePullMaxDelay : Int := 5 * 60 * second

/-! ## Placed instances -/

variable (instanceID : Str)

def isInstanceMarkedForSkip : AgentProgram Bool := do
  match ← lookup (keyDerivedInstanceNodeFailure instanceID) with
  | some _ => return true
  | none => return (← lookup (keyDerivedInstanceControllerStopped instanceID)).isSome

/-- The service in the name of an instance, `<service>-<hash>`. -/
def serviceOfInstanceID : Str := (Str.beforeLast 45 instanceID).getD []

def lookupServiceOfInstance : AgentProgram Str := do
  match ← lookup (keyObservedInstanceService instanceID) with
  | some service => return service
  | none => return serviceOfInstanceID instanceID

namespace Agent

variable (agent : Agent)

/-- The loop body of `findInstancesPlacedOnThisNode`: the instance, unless it is
to be skipped. -/
def findPlacedInstance (instanceID : Str) : AgentProgram (Option PlacedInstance) := do
  if ← isInstanceMarkedForSkip instanceID then return none
  else do
    let instanceState ← lookup (keyObservedInstanceState instanceID)
    if instanceState = some instanceStopped ∨ instanceState = some instanceFailed then return none
    else do
      let eviction ← lookup (keyDerivedNodeDrainEvict agent.nodeID instanceID)
      if eviction.isSome then return none
      else do
        let serviceName ← lookupServiceOfInstance instanceID
        if serviceName = [] then return none else return some ⟨instanceID, serviceName⟩

def findPlacedInstances : List Str → AgentProgram (List PlacedInstance)
  | [] => return []
  | instanceID :: rest => do
      let found ← agent.findPlacedInstance instanceID
      let following ← findPlacedInstances rest
      return found.toList ++ following

def findInstancesPlacedOnThisNode : AgentProgram (Except CallError (List PlacedInstance)) := do
  match ← scan (scanPlacementsForNode agent.nodeID) with
  | .error error => return .error error
  | .ok placements =>
    return .ok (← agent.findPlacedInstances (placements.map (fun fact =>
      fact.key.trimPrefix (scanPlacementsForNode agent.nodeID))))

/-! ## Images -/

def nextPullBackoff (known : Option ImagePullBackoffEntry) (errorMessage : Str) (time : Int) :
    ImagePullBackoffEntry :=
  let attempts := (known.map ImagePullBackoffEntry.attempts).getD 0 + 1
  ⟨attempts, time + min (imagePullBaseDelay * 2 ^ (attempts - 1).toNat) imagePullMaxDelay,
    errorMessage⟩

variable (info : PlacedInstance)

def recordImagePullFailure (image errorMessage : Str) : AgentProgram Unit := do
  let memory ← readMemory
  let backoffEntry := nextPullBackoff (memory.imagePullBackoffs.lookup info.id) errorMessage (← now)
  modify (AgentMemory.setPullBackoff info.id backoffEntry)
  agent.publishInstanceStateToStore info.id info.service instanceImagePullBackoff []
  match agent.libraries.marshalPullStatus ⟨errorMessage, backoffEntry.attempts,
      agent.libraries.rfc3339 backoffEntry.retryAfter, image⟩ with
  | none => return ()
  | some statusJSON => do
      publish (keyObservedInstancePullStatus info.id) statusJSON
      publishStatusReason info.id (lit "pulling image " ++ image ++ lit " (attempt " ++
        itoa backoffEntry.attempts ++ lit "): " ++ errorMessage)

def clearPullBackoff : AgentProgram Unit := do
  modify (AgentMemory.erasePullBackoff instanceID)
  clearPullStatusFromStore instanceID

def isPullBackingOff : AgentProgram Bool := do
  match (← readMemory).imagePullBackoffs.lookup instanceID with
  | none => return false
  | some backoffEntry => return decide ((← now) < backoffEntry.retryAfter)

/-- The pull of `ensureImageAvailable`. -/
def pullImage (image credentials : Str) : AgentProgram Bool := do
  agent.publishInstanceStateToStore info.id info.service instancePulling []
  match ← (request (AgentCall.pullImage image credentials) : AgentProgram _) with
  | .error errorMessage => do
      agent.recordImagePullFailure info image errorMessage
      return false
  | .ok _ => do
      clearPullBackoff info.id
      return true

/-- With the policy `always` the cache is not asked. -/
def isImageUsable (pullPolicy image : Str) : AgentProgram Bool := do
  if pullPolicy = lit "always" then return false
  else request (AgentCall.isImageCached image)

def ensureImageAvailable (image credentials : Str) : AgentProgram Bool := do
  if agent.supportsPull = false then return true
  else do
    let pullPolicy ← lookupServicePullPolicyFromStore info.service
    if pullPolicy = lit "never" then return true
    else do
      if ← isImageUsable pullPolicy image then do
        clearPullBackoff info.id
        return true
      else do
        if ← isPullBackingOff info.id then return false
        else agent.pullImage info image credentials

def resolveImagePullCredentials (service : Str) (secretValues : Map Str) : AgentProgram Str := do
  let secretName ← lookupImagePullSecretFromStore service
  if secretName = [] then return []
  else
    match (secretValues.lookup secretName).bind agent.libraries.registryCredentials with
    | none => return []
    | some (username, password) =>
      if username = [] ∨ password = [] then return [] else return username ++ lit ":" ++ password

/-! ## Hooks and stops -/

def executeLifecycleHook (hookKey : Str) : AgentProgram Unit := do
  let hookCommand := (← lookup hookKey).getD []
  if hookCommand = [] then return ()
  else do
    let _ ← (request (AgentCall.exec instanceID hookCommand) : AgentProgram _)
    return ()

def lookupGracePeriod (serviceName : Str) : AgentProgram (Option Int) := do
  if serviceName = [] ∨ agent.supportsGracefulStop = false then return none
  else do
    let gracePeriod ← lookup (keyDesiredServiceTerminationGracePeriod serviceName)
    return gracePeriod.bind (fun value =>
      if value = [] then none else agent.libraries.parseDuration value)

def stopInstanceWithGracePeriod (instanceID serviceName : Str) : AgentProgram Unit := do
  match ← agent.lookupGracePeriod serviceName with
  | some graceDuration => do
      let _ ← (request (AgentCall.stopWithGracePeriod instanceID graceDuration) : AgentProgram _)
      return ()
  | none => do
      let _ ← (request (AgentCall.stop instanceID) : AgentProgram _)
      return ()

/-! ## Starting -/

/-- The token and the address of the legacy secret API, where the service opted
in and the API runs. -/
def registerLegacySecretAPIToken : AgentProgram (Option (Str × Str)) := do
  match agent.secretAPIBaseURL with
  | none => return none
  | some baseURL => do
      if (← lookup (keyDesiredServiceLegacySecretAPI info.service)) = some (lit "true") then
        match ← (request (AgentCall.registerInstanceToken info.id info.service) :
            AgentProgram _) with
        | .error _ => return none
        | .ok secretAPIToken => return some (secretAPIToken, baseURL)
      else return none

def revokeInstanceToken : AgentProgram Unit :=
  request (AgentCall.revokeInstanceToken instanceID)

def injectSecretAPIIntoSpec (secretAPI : Option (Str × Str)) (runtimeSpec : Spec) : Spec :=
  match secretAPI with
  | none => runtimeSpec
  | some (token, baseURL) =>
    { runtimeSpec with
      env := (runtimeSpec.env.set (lit "CCA_SECRET_URL") baseURL).set (lit "CCA_SECRET_TOKEN") token
      configFiles := runtimeSpec.configFiles.set ccaSecretHelperPath ccaSecretHelperScript }

def allocateInstanceIP (instanceID : Str) : AgentProgram Str := do
  if agent.hasNetworkProvider then
    match ← (request (AgentCall.allocateIP agent.nodeID instanceID) : AgentProgram _) with
    | .error _ => return []
    | .ok networkIP => return networkIP
  else return []

def buildRuntimeSpecForInstance (image : Str) : AgentProgram Spec := do
  let envVars ← resolveServiceConfigEnvVars info.service
  let configFiles ← resolveServiceConfigFiles info.service
  let exposedPorts ← lookupServiceExposedPortsFromStore info.service
  let resources ← lookupServiceResourcesFromStore agent.libraries info.service
  let commandArgs ← lookupServiceCommandFromStore info.service
  let allocatedIP ← agent.allocateInstanceIP info.id
  return {
    id := info.id
    serviceName := info.service
    image := image
    command := commandArgs
    env := envVars
    configFiles := configFiles
    secretMounts := ∅
    ports := exposedPorts
    cpuMillicores := resources.cpuMillicores
    memoryBytes := resources.memoryBytes
    ip := allocatedIP
    volumeMounts := ∅ }

def retryBridgeAttachmentIfNeeded : AgentProgram Unit := do
  if (← readMemory).bridgeRetryAttempted then return ()
  else do
    modify AgentMemory.setBridgeRetryAttempted
    if agent.retriesBridge then do
      let _ ← (request AgentCall.retryBridgeAttachment : AgentProgram _)
      return ()
    else return ()

def publishFailedStart (image startError : Str) : AgentProgram Unit := do
  whenever agent.secretAPIBaseURL.isSome (revokeInstanceToken info.id)
  agent.publishInstanceStateToStore info.id info.service instanceFailed []
  publishStatusReason info.id (lit "start failed: " ++ startError)
  publish (keyObservedInstanceImage info.id) image

def lookupRuntimeIP : AgentProgram Str := do
  match ← (request (AgentCall.status instanceID) : AgentProgram _) with
  | .ok runtimeStatus => return runtimeStatus.ip
  | .error _ => return []

def publishObservedState (runtimeIP : Str) : AgentProgram InstanceState := do
  let (observedState, exitReason) ← observeInstanceState info.id
  agent.publishInstanceStateToStore info.id info.service observedState runtimeIP
  publishExitReasonIfFailed info.id observedState exitReason
  return observedState

section

variable (info : PlacedInstance) (image : Str) (runtimeSpec : Spec)

def publishStartedInstance : AgentProgram Unit := do
  modify (AgentMemory.setApplied info.id ⟨runtimeSpec.cpuMillicores, runtimeSpec.memoryBytes⟩)
  agent.retryBridgeAttachmentIfNeeded
  executeLifecycleHook info.id (keyDesiredServiceLifecyclePostStart info.service)
  agent.republishHostPortIfNeeded info.id
  let runtimeIP ← lookupRuntimeIP info.id
  let observedState ← agent.publishObservedState info runtimeIP
  whenever (observedState = instanceRunning) (publishStatusReason info.id (lit "running"))
  publish (keyObservedInstanceImage info.id) image
  let configHash ← computeServiceConfigHash agent.libraries info.service
  whenever (configHash ≠ []) (publish (keyObservedInstanceConfigHash info.id) configHash)

def startInstanceAndPublishState : AgentProgram Unit := do
  match ← (request (AgentCall.start runtimeSpec) : AgentProgram _) with
  | .error startError => agent.publishFailedStart info image startError
  | .ok _ => agent.publishStartedInstance info image runtimeSpec

end

structure PreparedInstance where
  image : Str
  secretValues : Map Str
  secretAPI : Option (Str × Str)
  spec : Spec

section

variable (info : PlacedInstance)

def awaitInitSteps (image : Str) : AgentProgram Bool := do
  if ← hasInitSteps info.service then agent.executeInitializationSteps info image
  else return true

def awaitVolumes : AgentProgram Bool := do
  match agent.storageProvider with
  | none => return true
  | some primary => do
      publishStatusReason info.id (lit "waiting for volumes")
      match ← agent.ensureVolumesAttachedForInstance primary info with
      | .ok volumesReady => return volumesReady
      | .error _ => return false

def awaitInitAndVolumes (image : Str) (secretAPI : Option (Str × Str)) : AgentProgram Bool := do
  if ← agent.awaitInitSteps info image then do
    if ← agent.awaitVolumes info then return true
    else do
      whenever secretAPI.isSome (revokeInstanceToken info.id)
      return false
  else do
    whenever secretAPI.isSome (revokeInstanceToken info.id)
    return false

/-- The part of `reconcileDesiredInstance` up to the specification of the container. -/
def prepareInstance : AgentProgram (Option PreparedInstance) := do
  let image ← lookupServiceImageFromStore info.service
  if image = [] then return none
  else
    match ← agent.prepareInstanceSecretMaterial info with
    | none => return none
    | some secretValues => do
        let credentials ← agent.resolveImagePullCredentials info.service secretValues
        if ← agent.ensureImageAvailable info image credentials then do
          let secretAPI ← agent.registerLegacySecretAPIToken info
          if ← agent.awaitInitAndVolumes info image secretAPI then do
            publishStatusReason info.id (lit "starting")
            let runtimeSpec ← agent.buildRuntimeSpecForInstance info image
            return some ⟨image, secretValues, secretAPI, runtimeSpec⟩
          else return none
        else return none

end

def PreparedInstance.mountedSpec (prepared : PreparedInstance) (secretMounts : Map Str) : Spec :=
  { prepared.spec with
    secretMounts := secretMounts
    configFiles := addSecretHelperIfMounted secretMounts prepared.spec.configFiles }

def mountVolumes (runtimeSpec : Spec) : AgentProgram Spec :=
  if agent.storageProvider.isSome then agent.resolveVolumeMountsForSpec info runtimeSpec
  else return runtimeSpec

/-- The last part of `reconcileDesiredInstance`: the mounts are known. -/
def launchInstance (prepared : PreparedInstance) (secretMounts : Map Str) : AgentProgram Unit := do
  let runtimeSpec ← agent.mountVolumes info (prepared.mountedSpec secretMounts)
  agent.startInstanceAndPublishState info prepared.image
    (injectSecretAPIIntoSpec prepared.secretAPI runtimeSpec)

def reconcileDesiredInstance : AgentProgram Unit := do
  match ← agent.prepareInstance info with
  | none => return ()
  | some prepared =>
    match ← agent.buildInstanceSecretMounts info prepared.secretValues with
    | .error _ => whenever prepared.secretAPI.isSome (revokeInstanceToken info.id)
    | .ok secretMounts => agent.launchInstance info prepared secretMounts

/-! ## Running instances -/

section

variable (info : PlacedInstance)

def detectConfigChange : AgentProgram Bool := do
  match ← lookup (keyObservedInstanceConfigHash info.id) with
  | none => return false
  | some storedHash => do
      let currentHash ← computeServiceConfigHash agent.libraries info.service
      if currentHash = [] ∨ currentHash = storedHash then return false
      else do
        executeLifecycleHook info.id (keyDesiredServiceLifecyclePreStop info.service)
        agent.stopInstanceWithGracePeriod info.id info.service
        whenever agent.secretMaterialDirectory.isSome
          (request (AgentCall.removeInstanceSecrets info.id))
        return true

def resizeInstance (effective : AppliedResourceAllocation) : AgentProgram Unit := do
  match ← (request (AgentCall.resize info.id effective.cpuMillicores effective.memoryBytes) :
      AgentProgram _) with
  | .ok _ => modify (AgentMemory.setApplied info.id effective)
  | .error .unsupported => do
      executeLifecycleHook info.id (keyDesiredServiceLifecyclePreStop info.service)
      agent.stopInstanceWithGracePeriod info.id info.service
      modify (AgentMemory.eraseApplied info.id)
  | .error (.failed _) => return ()

def reconcileResourceChanges : AgentProgram Unit := do
  let effective ← lookupServiceResourcesFromStore agent.libraries info.service
  if effective.cpuMillicores = 0 ∧ effective.memoryBytes = 0 then return ()
  else
    match (← readMemory).appliedInstanceResources.lookup info.id with
    | none => modify (AgentMemory.setApplied info.id effective)
    | some applied => if applied = effective then return () else agent.resizeInstance info effective

def observeRunningInstance (runtimeStatus : Status) : AgentProgram Unit := do
  if ← agent.detectConfigChange info then return ()
  else do
    agent.reconcileResourceChanges info
    agent.republishHostPortIfNeeded info.id
    let _ ← agent.publishObservedState info runtimeStatus.ip
    return ()

end

def publishPreviousExit : Option Status → AgentProgram Unit
  | some exited => whenever (exited.exitCode ≠ 0) (publishExitReasonFromStatus instanceID exited)
  | none => return ()

def bringUpInstance (runtimeStatus : Option Status) : AgentProgram Unit := do
  publishPreviousExit info.id runtimeStatus
  agent.reconcileDesiredInstance info

def reconcileInstance (runningByID : Map Status) (info : PlacedInstance) : AgentProgram Unit :=
  match runningByID.lookup info.id with
  | none => agent.bringUpInstance info none
  | some runtimeStatus =>
    if runtimeStatus.running then agent.observeRunningInstance info runtimeStatus
    else agent.bringUpInstance info (some runtimeStatus)

/-! ## Removing containers -/

section

variable (instanceID : Str)

def releaseInstance : AgentProgram Unit := do
  modify (AgentMemory.eraseApplied instanceID)
  modify (AgentMemory.erasePullBackoff instanceID)
  clearPullStatusFromStore instanceID
  whenever agent.secretAPIBaseURL.isSome (revokeInstanceToken instanceID)
  match agent.storageProvider with
  | some primary => agent.detachVolumesForInstance primary instanceID
  | none => pure ()

def publishRemovedInstance : AgentProgram Unit := do
  publish (keyObservedInstanceState instanceID) instanceStopped
  (request (AgentCall.cleanupProbes instanceID) : AgentProgram _)
  if agent.hasNetworkProvider then do
    let _ ← (request (AgentCall.releaseIP agent.nodeID instanceID) : AgentProgram _)
    retract (keyNetworkAllocation instanceID)
  else return ()

def cleanupStoppedStaleInstance : AgentProgram Unit := do
  agent.releaseInstance instanceID
  let _ ← (request (AgentCall.stop instanceID) : AgentProgram _)
  agent.publishRemovedInstance instanceID

def cleanupUndesiredInstance : AgentProgram Unit := do
  agent.releaseInstance instanceID
  let serviceName ← lookupServiceNameForInstance instanceID
  whenever (serviceName ≠ [])
    (executeLifecycleHook instanceID (keyDesiredServiceLifecyclePreStop serviceName))
  agent.stopInstanceWithGracePeriod instanceID serviceName
  agent.publishRemovedInstance instanceID

end

def cleanupContainer (runningByID : Map Status) (instanceID : Str) : AgentProgram Unit :=
  match runningByID.lookup instanceID with
  | none => return ()
  | some runtimeStatus =>
    if runtimeStatus.running then agent.cleanupUndesiredInstance instanceID
    else agent.cleanupStoppedStaleInstance instanceID

/-! ## The cycle -/

variable (desiredIDs : List Str)

def sweepSecretMaterial (running : List Status) : AgentProgram Unit := do
  let waiting ← visit (← readMemory).secretDeliveryWaits.keys
  each (fun instanceID => whenever (instanceID ∉ desiredIDs) (clearSecretDeliveryWait instanceID))
    waiting
  if agent.secretMaterialDirectory.isSome then do
    let stored ← (request AgentCall.listInstancesWithSecrets : AgentProgram _)
    each (fun instanceID =>
      whenever (instanceID ∉ desiredIDs ∧
          running.all (fun runtimeStatus =>
            runtimeStatus.id ≠ instanceID || !runtimeStatus.running))
        (request (AgentCall.removeInstanceSecrets instanceID))) stored
  else return ()

def sweepPullBackoffs : AgentProgram Unit := do
  let waiting ← visit (← readMemory).imagePullBackoffs.keys
  each (fun instanceID => whenever (instanceID ∉ desiredIDs) (clearPullBackoff instanceID)) waiting

def sweepInitBackoffs : AgentProgram Unit := do
  let waiting ← visit (← readMemory).initStepBackoffs.keys
  each (fun backoffKey =>
    match Str.cut (lit "/") backoffKey with
    | some (instanceID, _) =>
      whenever (instanceID ∉ desiredIDs) (modify (AgentMemory.eraseInitBackoff backoffKey))
    | none => return ()) waiting

/-- The inner loop of an insertion sort, on a slice given last item first. -/
def insertSorted {α : Type} (less : α → α → AgentProgram Bool) (item : α) :
    List α → AgentProgram (List α)
  | [] => return [item]
  | last :: before => do
      if ← less item last then return last :: (← insertSorted less item before)
      else return item :: last :: before

/-- `sort.SliceStable` by insertion, with a comparison that makes calls. -/
def sliceStable {α : Type} (less : α → α → AgentProgram Bool) :
    List α → List α → AgentProgram (List α)
  | [], sorted => return sorted.reverse
  | item :: rest, sorted => do sliceStable less rest (← insertSorted less item sorted)

def startsBefore (left right : PlacedInstance) : AgentProgram Bool := do
  let leftHasInit ← hasInitSteps left.service
  let rightHasInit ← hasInitSteps right.service
  return leftHasInit ≠ rightHasInit && !leftHasInit

variable (desired : List PlacedInstance)

def reconcileLists (running : List Status) : AgentProgram Unit := do
  let runningByID := Map.ofPairs
    (running.map (fun runtimeStatus => (runtimeStatus.id, runtimeStatus)))
  let desiredIDs := desired.map PlacedInstance.id
  each (agent.reconcileInstance runningByID) (← sliceStable startsBefore desired [])
  let stale ← visit (runningByID.keys.filter (· ∉ desiredIDs))
  each (agent.cleanupContainer runningByID) stale
  agent.sweepSecretMaterial desiredIDs running
  sweepPullBackoffs desiredIDs
  sweepInitBackoffs desiredIDs

def reconcileWithRuntime : AgentProgram (Except Str Unit) := do
  match ← (request AgentCall.list : AgentProgram _) with
  | .error message => return .error message
  | .ok running => do
      agent.reconcileLists desired running
      return .ok ()

def executeReconciliationCycle : AgentProgram (Except Str Unit) := do
  match ← agent.findInstancesPlacedOnThisNode with
  | .error error => return .error error.message
  | .ok desired => agent.reconcileWithRuntime desired

end Agent

end CCattler.NodeAgent
