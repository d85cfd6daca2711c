import CCattler.Tenant.AdmissionLaws

/-! # Deleting a tenant

`TenantLifecycle.DeleteTenant` removes kind by kind, `GarbageCollector` from the leaves
to the root. Both find facts by prefixes and by names cut out of keys.
-/

namespace CCattler.Tenant

open Go Store CCattler.Types Concurrency
open StoreProgram (scan)

/-! ## Keys -/

def prefixObservedTenant : Str := lit "observed/tenant/"

def prefixExport : Str := lit "export/"

def scanIntentAutoscalerServices : Str := lit "intent/autoscaler/service/"

def scanObservedServices : Str := lit "observed/service/"

def infraPrefix (tenantName : Str) : Str := lit "tenant/" ++ tenantName ++ lit "/"

def keyIntentAutoscalerServiceInstances (serviceName : Str) : Str :=
  fieldKey scanIntentAutoscalerServices serviceName (lit "instances")

def keyObservedTenantUsage (tenantName : Str) (resource : String) : Str :=
  fieldKey prefixObservedTenant tenantName (lit "usage/" ++ lit resource)

/-- The list of `extractServiceNameAndField`. -/
def knownSuffixes : List Str :=
  [lit "/resources/cpu", lit "/resources/memory", lit "/scale/horizontal/", lit "/scale/vertical/",
    lit "/placement/architecture", lit "/placement/zone", lit "/update/max_unavailable",
    lit "/update/max_extra", lit "/health/method", lit "/health/path", lit "/health/interval",
    lit "/config/env/", lit "/config/file/", lit "/secret/", lit "/volume/", lit "/expose/",
    lit "/quota/instances", lit "/instances", lit "/image", lit "/owner"]

def beforeSuffix (relativePath suffix : Str) : Option Str :=
  match Str.cut suffix relativePath with
  | some (serviceName, _) => if serviceName = [] then none else some serviceName
  | none => none

def extractServiceNameAndField (relativePath : Str) : Str × Str :=
  match knownSuffixes.findSome? (beforeSuffix relativePath) with
  | some serviceName => (serviceName, relativePath.drop (serviceName.length + 1))
  | none => (relativePath, [])

def serviceNameInKey (key : Str) : Str :=
  (extractServiceNameAndField (key.trimPrefix scanDesiredServices)).1

/-! ## The lifecycle -/

def deleteKeys : List Str → StoreProgram Unit
  | [] => pure ()
  | key :: rest => do
      let _ ← StoreProgram.delete key
      deleteKeys rest

def ownedServiceKeys (tenantName : Str) : List Fact → StoreProgram (List Str)
  | [] => pure []
  | fact :: rest => do
      let owner ← resolveTenantForService (serviceNameInKey fact.key)
      let keys ← ownedServiceKeys tenantName rest
      return if owner = some tenantName then fact.key :: keys else keys

def intentKeys (serviceName : Str) : List Str :=
  [keyEffectiveServiceInstances serviceName, keyIntentUserServiceInstances serviceName,
    keyIntentAutoscalerServiceInstances serviceName]

def deleteOwnedServices (order : IterationOrder) (tenantName : Str) : StoreProgram Nat := do
  match ← scan scanDesiredServices with
  | .error _ => return 0
  | .ok serviceFacts =>
    let keysToDelete ← ownedServiceKeys tenantName serviceFacts
    let serviceNames := (keysToDelete.map serviceNameInKey).dedup
    deleteKeys keysToDelete
    deleteKeys ((order.visit serviceNames).flatMap intentKeys)
    return serviceNames.length

def isTenantVolumePath (tenantName relativePath : Str) : Bool :=
  match Str.cut [Str.slash] relativePath with
  | some (possibleTenant, _) => possibleTenant ≠ [] && possibleTenant = tenantName
  | none => false

def volumeNameInPath (relativePath : Str) : Str :=
  match Str.splitN Str.slash 3 relativePath with
  | [first, second, _] => first ++ Str.slash :: second
  | _ => relativePath

def deleteOwnedVolumes (tenantName : Str) : StoreProgram Nat := do
  match ← scan scanDesiredVolumes with
  | .error _ => return 0
  | .ok volumeFacts =>
    let keysToDelete := (volumeFacts.map Fact.key).filter
      (fun key => isTenantVolumePath tenantName (key.trimPrefix scanDesiredVolumes))
    deleteKeys keysToDelete
    return (keysToDelete.map
      (fun key => volumeNameInPath (key.trimPrefix scanDesiredVolumes))).dedup.length

def exportedService (key : Str) : Str :=
  match Str.cut (lit "/allow/") (key.trimPrefix prefixExport) with
  | some (serviceName, _) => serviceName
  | none => key.trimPrefix prefixExport

def deleteExports (tenantName : Str) : StoreProgram Nat := do
  match ← scan prefixExport with
  | .error _ => return 0
  | .ok exportFacts =>
    deleteKeys ((exportFacts.map Fact.key).filter
      (fun key => extractTenantFromName (exportedService key) = tenantName))
    return exportFacts.countP (fun fact => fact.value = tenantName)

def deleteBelow (scanPrefix : Str) : StoreProgram Unit := do
  match ← scan scanPrefix with
  | .error _ => return ()
  | .ok facts => deleteKeys (facts.map Fact.key)

def deleteTenantInfraFacts (tenantName : Str) : StoreProgram Unit :=
  deleteBelow (infraPrefix tenantName)

/-- `deleteTenantDesiredFacts`. The prefix has no slash at its end, and without a scan
the marker stays. -/
def deleteTenantDesiredFacts (tenantName : Str) : StoreProgram Unit := do
  match ← scan (scanDesiredTenants ++ tenantName) with
  | .error _ => return ()
  | .ok tenantFacts => deleteKeys (tenantFacts.map Fact.key ++ [keyDesiredTenant tenantName])

def deleteObservedUsageFacts (tenantName : Str) : StoreProgram Unit :=
  deleteKeys [keyObservedTenantUsage tenantName "cpu", keyObservedTenantUsage tenantName "memory",
    keyObservedTenantUsage tenantName "instances", keyObservedTenantUsage tenantName "volumes"]

structure DeletionResult where
  tenantName : Str
  servicesDeleted : Nat
  volumesDeleted : Nat
  exportsDeleted : Nat
  deriving DecidableEq

/-- The steps of `DeleteTenant` once the tenant is marked. -/
def deleteOwned (order : IterationOrder) (tenantName : Str) : StoreProgram DeletionResult := do
  let servicesDeleted ← deleteOwnedServices order tenantName
  let volumesDeleted ← deleteOwnedVolumes tenantName
  let exportsDeleted ← deleteExports tenantName
  deleteTenantInfraFacts tenantName
  deleteTenantDesiredFacts tenantName
  deleteObservedUsageFacts tenantName
  return ⟨tenantName, servicesDeleted, volumesDeleted, exportsDeleted⟩

/-- `DeleteTenant`; `none` is the error for a tenant that is not found. -/
def deleteTenant (order : IterationOrder) (tenantName : Str) :
    StoreProgram (Option DeletionResult) := do
  match ← StoreProgram.get (keyDesiredTenant tenantName) with
  | .error _ => return none
  | .ok _ =>
    let _ ← StoreProgram.put (keyDesiredTenantState tenantName) Gate.tenantDeleting
    let result ← deleteOwned order tenantName
    return some result

/-! ## The garbage collector -/

inductive ResourceType where
  | tenant
  | service
  | volume
  | serviceInstance
  | endpoint
  | placement
  deriving DecidableEq, Repr

structure ResourceNode where
  resourceType : ResourceType
  resourceName : Str
  factKeys : List Str
  deriving DecidableEq

def keysBelow (scanPrefix : Str) : StoreProgram (List Str) := do
  match ← scan scanPrefix with
  | .error _ => return []
  | .ok facts => return facts.map Fact.key

def markerKeys (tenantName : Str) : Except CallError Fact → List Str
  | .ok _ => [keyDesiredTenant tenantName]
  | .error _ => []

def scannedFacts : Except CallError (List Fact) → List Fact
  | .ok facts => facts
  | .error _ => []

def discoverTenantRootKeys (tenantName : Str) : StoreProgram (List ResourceNode) := do
  let tenantFacts ← keysBelow (keyDesiredTenant tenantName ++ lit "/")
  if tenantFacts = [] then return []
  else
    let marker ← StoreProgram.get (keyDesiredTenant tenantName)
    let usageKeys ← keysBelow (prefixObservedTenant ++ tenantName ++ lit "/")
    let infraKeys ← keysBelow (infraPrefix tenantName)
    return [⟨.tenant, tenantName,
      markerKeys tenantName marker ++ tenantFacts ++ usageKeys ++ infraKeys⟩]

/-- Where the facts of a service besides the desired ones are looked for. -/
def servicePrefixes (serviceName : Str) : List Str :=
  [scanEffectiveServices ++ serviceName, scanIntentUserServices ++ serviceName,
    scanIntentAutoscalerServices ++ serviceName, scanDerivedServices ++ serviceName,
    scanObservedServices ++ serviceName]

def keysBelowAll : List Str → StoreProgram (List Str)
  | [] => pure []
  | scanPrefix :: rest => do
      let keys ← keysBelow scanPrefix
      let others ← keysBelowAll rest
      return keys ++ others

def serviceNodes (ownedKeys : List Str) : List Str → StoreProgram (List ResourceNode)
  | [] => pure []
  | serviceName :: rest => do
      let otherKeys ← keysBelowAll (servicePrefixes serviceName)
      let nodes ← serviceNodes ownedKeys rest
      return ⟨.service, serviceName,
        ownedKeys.filter (fun key => serviceNameInKey key = serviceName) ++ otherKeys⟩ :: nodes

def firstSegment (relativePath : Str) : Str := relativePath.takeWhile (· != Str.slash)

def discoverDirectChildren (order : IterationOrder) (tenantName : Str) :
    StoreProgram (List ResourceNode) := do
  let serviceFacts ← scan scanDesiredServices
  let ownedKeys ← ownedServiceKeys tenantName (scannedFacts serviceFacts)
  let services ← serviceNodes ownedKeys (order.visit (ownedKeys.map serviceNameInKey).dedup)
  let volumeKeys ← keysBelow scanDesiredVolumes
  let tenantVolumeKeys := volumeKeys.filter
    (fun key => firstSegment (key.trimPrefix scanDesiredVolumes) = tenantName)
  return services ++
    (if tenantVolumeKeys = [] then [] else [⟨.volume, tenantName, tenantVolumeKeys⟩])

/-- The names of the nodes of a type: `extractServiceNames` and `extractInstanceIDs`. -/
def namesOf (resourceType : ResourceType) (nodes : List ResourceNode) : List Str :=
  (nodes.filter (fun node => node.resourceType = resourceType)).map ResourceNode.resourceName

def instanceKeyOf (key : Str) : Option (Str × Str) :=
  match Str.splitN Str.slash 2 (key.trimPrefix scanObservedInstances) with
  | [instanceID, _] => some (instanceID, key)
  | _ => none

def instanceNode (observedKeys derivedKeys : List Str) (instanceID : Str) : ResourceNode :=
  ⟨.serviceInstance, instanceID, (observedKeys.filterMap instanceKeyOf).filterMap
        (fun found => if found.1 = instanceID then some found.2 else none) ++
      derivedKeys.filter (fun key =>
        firstSegment (key.trimPrefix scanDerivedInstances) = instanceID)⟩

def discoverInstances (order : IterationOrder) (serviceNames : List Str) :
    StoreProgram (List ResourceNode) := do
  if serviceNames = [] then return []
  else
    let scanned ← scan scanObservedInstances
    let instanceServices := instanceValues (scannedFacts scanned) (lit "service")
    let derivedKeys ← keysBelow scanDerivedInstances
    return ((order.visit instanceServices.keys).filter
      (fun instanceID => instanceServices.get instanceID [] ∈ serviceNames)).map
        (instanceNode ((scannedFacts scanned).map Fact.key) derivedKeys)

def endpointNodes : List Str → StoreProgram (List ResourceNode)
  | [] => pure []
  | serviceName :: rest => do
      let endpointKeys ← keysBelow (scanEndpoints ++ serviceName ++ lit "/")
      let nodes ← endpointNodes rest
      return (if endpointKeys = [] then [] else [⟨.endpoint, serviceName, endpointKeys⟩]) ++ nodes

def discoverLeafResources (order : IterationOrder) (serviceNames instanceIDs : List Str) :
    StoreProgram (List ResourceNode) := do
  let endpoints ← endpointNodes (order.visit serviceNames)
  let placementKeys ← keysBelow scanPlacements
  return endpoints ++ (placementKeys.filter
    (fun key => firstSegment (key.trimPrefix scanPlacements) ∈ instanceIDs)).map
      (fun key => ⟨.placement, firstSegment (key.trimPrefix scanPlacements), [key]⟩)

/-- `CollectTenantResources`, with the levels that are not empty. -/
def collectTenantResources (order : IterationOrder) (tenantName : Str) :
    StoreProgram (List (List ResourceNode)) := do
  let tenantRoot ← discoverTenantRootKeys tenantName
  if tenantRoot = [] then return []
  else
    let directChildren ← discoverDirectChildren order tenantName
    let serviceNames := namesOf .service directChildren
    let instances ← discoverInstances order serviceNames
    let leafResources ← discoverLeafResources order serviceNames
      (namesOf .serviceInstance instances)
    return [tenantRoot] ++ [directChildren, instances, leafResources].filter (· ≠ [])

/-- `DeleteTenantResources`: the levels and the number of deletions. -/
def deleteTenantResources (order : IterationOrder) (tenantName : Str) :
    StoreProgram (List (List ResourceNode) × Nat) := do
  let resourceLevels ← collectTenantResources order tenantName
  let keys := (resourceLevels.reverse.flatten).flatMap ResourceNode.factKeys
  deleteKeys keys
  return (resourceLevels, keys.length)

end CCattler.Tenant
