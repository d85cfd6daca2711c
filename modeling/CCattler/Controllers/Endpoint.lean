import CCattler.Controllers.Controller
import CCattler.Controllers.Helpers

/-! # The endpoint controller

Keeps one endpoint fact for every exposed port of every running instance that
can be reached, and deletes the others.
-/

namespace CCattler.Controllers

open Go Store CCattler.Types

/-! ## Reading the facts -/

variable (facts : List Fact)

def detectServicesWithReadinessProbe : Map Bool :=
  (factsWithPrefix facts scanDesiredServices).foldl (fun serviceHasReadinessProbe fact =>
    match Str.split Str.slash (fact.key.trimPrefix scanDesiredServices) with
    | [serviceName, probe, probeType, field] =>
      if probe = lit "probe" ∧ probeType = probeReadiness ∧ field = lit "method" then
        serviceHasReadinessProbe.set serviceName true
      else serviceHasReadinessProbe
    | _ => serviceHasReadinessProbe) ∅

def parseNodeAdvertiseAddresses : Map Str :=
  collectStringValuesBySuffix facts scanObservedNodes (lit "address")

/-- The present endpoints by `service/instance/port`. -/
def parseExistingEndpoints : Map Str :=
  (factsWithPrefix facts scanEndpoints).foldl (fun existingEndpoints fact =>
    existingEndpoints.set (fact.key.trimPrefix scanEndpoints) fact.value) ∅

def hasPerPortHostPorts (instanceFields : InstanceFields) : Bool :=
  instanceFields.keys.any (fun fieldName => fieldName.hasPrefix (lit "hostport/"))

/-! ## The desired endpoints -/

structure EndpointInputs where
  servicePorts : Map (List Int)
  serviceHasReadinessProbe : Map Bool
  nodeAddresses : Map Str

def endpointAddress (fields : InstanceFields) (nodeAddress : Str) (exposedPort : Int) :
    Option Str :=
  let instanceIP := fields.field "ip"
  if instanceIP ≠ [] then some (instanceIP ++ lit ":" ++ itoa exposedPort)
  else
    let perPortHostPort := fields.get (lit "hostport/" ++ itoa exposedPort) []
    let hostPort := if perPortHostPort = [] then fields.field "hostport" else perPortHostPort
    if hostPort ≠ [] ∧ nodeAddress ≠ [] then some (nodeAddress ++ lit ":" ++ hostPort) else none

def endpointReady (inputs : EndpointInputs) (fields : InstanceFields) : Bool :=
  let nodeAddress := inputs.nodeAddresses.get (fields.field "node") []
  let hasOverlayAddress := fields.field "ip" ≠ []
  let hasAnyHostAddress :=
    (fields.field "hostport" ≠ [] ∨ hasPerPortHostPorts fields) ∧ nodeAddress ≠ []
  decide (endpointEligibleState fields = instanceRunning ∧ (hasOverlayAddress ∨ hasAnyHostAddress) ∧
    fields.field "drain_readiness" ≠ readinessProbeNotReady ∧
    (inputs.serviceHasReadinessProbe.get (fields.field "service") false = true →
      fields.field "probe/readiness" = readinessProbeReady))

/-- `fmt.Sprintf("%s/%s/%d", serviceName, instanceID, exposedPort)`. -/
def endpointPath (serviceName instanceID : Str) (exposedPort : Int) : Str :=
  serviceName ++ lit "/" ++ instanceID ++ lit "/" ++ itoa exposedPort

section

variable (inputs : EndpointInputs) (instanceFields : Map InstanceFields)

def addInstanceEndpoints (desiredEndpoints : Map Str) (instanceID : Str) : Map Str :=
  let fields := instanceFields.get instanceID ∅
  let serviceName := fields.field "service"
  if endpointReady inputs fields then
    (inputs.servicePorts.get serviceName []).foldl (fun desired exposedPort =>
      match endpointAddress fields (inputs.nodeAddresses.get (fields.field "node") [])
          exposedPort with
      | some address => desired.set (endpointPath serviceName instanceID exposedPort) address
      | none => desired) desiredEndpoints
  else desiredEndpoints

def buildDesiredEndpoints : Map Str :=
  instanceFields.sortedKeys.foldl (addInstanceEndpoints inputs instanceFields) ∅

end

/-! ## The difference -/

def computeEndpointDiffChanges (desiredEndpoints existingEndpoints : Map Str) : List Change :=
  desiredEndpoints.sortedKeys.flatMap (fun endpointKey =>
      let desiredValue := desiredEndpoints.get endpointKey []
      match existingEndpoints.lookup endpointKey with
      | none => [Change.put (scanEndpoints ++ endpointKey) desiredValue]
      | some existingValue =>
        if existingValue ≠ desiredValue then
          [Change.put (scanEndpoints ++ endpointKey) desiredValue]
        else []) ++
    existingEndpoints.sortedKeys.flatMap (fun endpointKey =>
      if desiredEndpoints.has endpointKey then []
      else [Change.delete (scanEndpoints ++ endpointKey)])

namespace EndpointController

def watch : List Str :=
  [scanObservedInstances, scanObservedNodes, scanEndpoints, scanDesiredServices,
    scanDerivedInstances]

/-- What a cycle reads about services and nodes. -/
def inputs : EndpointInputs where
  servicePorts := extractServiceExposedPorts facts
  serviceHasReadinessProbe := detectServicesWithReadinessProbe facts
  nodeAddresses := parseNodeAdvertiseAddresses facts

def reconcile : List Change :=
  computeEndpointDiffChanges
    (buildDesiredEndpoints (inputs facts) (parseInstanceFieldsFromFacts facts))
    (parseExistingEndpoints facts)

end EndpointController

end CCattler.Controllers
