import CCattler.Controllers.Helpers

/-! # What the scheduler reads

Nodes, instances, placements and the placement rules of services, taken out of
the fact slice.
-/

namespace CCattler.Scheduler

open Go Store CCattler.Types Controllers

/-! ## Records -/

structure InstanceInfo where
  service : Str
  state : InstanceState
  startupProbeState : Str
  stillStarting : Bool
  deriving DecidableEq, Repr

def InstanceInfo.zero : InstanceInfo := ⟨[], [], [], false⟩

structure NodeInfo where
  id : Str
  state : NodeState
  availCPU : Int
  availMemory : Int
  architecture : Str
  zone : Str
  labels : Map Str
  restrictions : Map Str

def NodeInfo.new (nodeID : Str) : NodeInfo := ⟨nodeID, [], 0, 0, [], [], ∅, ∅⟩

structure ServiceResourceRequirements where
  cpu : Int
  memory : Int
  deriving DecidableEq, Repr

structure ServicePlacementConstraint where
  mode : Str
  architecture : Str
  zonePolicy : Str
  zoneMaxSkew : Int
  require : Map Str
  prefer : Map Str
  accept : Map Bool
  colocate : List Str
  separate : List Str
  rebalance : Bool
  volumeHomeNodes : Map Bool

def ServicePlacementConstraint.zero : ServicePlacementConstraint :=
  ⟨[], [], [], 0, ∅, ∅, ∅, [], [], false, ∅⟩

/-! ## Nodes and instances -/

def setInstanceField (info : InstanceInfo) (suffix value : Str) : InstanceInfo :=
  if suffix = lit "service" then { info with service := value }
  else if suffix = lit "state" then { info with state := value }
  else if suffix = lit "probe/startup" then { info with startupProbeState := value }
  else info

variable (facts : List Fact)

def extractInstanceInfoFromFacts : Map InstanceInfo :=
  (factsWithPrefix facts scanObservedInstances).foldl (fun instances fact =>
    match splitFactKeyIntoEntityAndSuffix fact.key scanObservedInstances with
    | some (instanceID, suffix) =>
      instances.update instanceID .zero (fun info => setInstanceField info suffix fact.value)
    | none => instances) ∅

def setNodeField (node : NodeInfo) (suffix value : Str) : NodeInfo :=
  if suffix = lit "state" then { node with state := value }
  else if suffix = lit "available/cpu" then
    { node with availCPU := (atoi? value).getD node.availCPU }
  else if suffix = lit "available/memory" then
    { node with availMemory := (atoi? value).getD node.availMemory }
  else if suffix = lit "architecture" then { node with architecture := value }
  else if suffix = lit "zone" then { node with zone := value }
  else if suffix.hasPrefix (lit "label/") then
    { node with labels := node.labels.set (suffix.trimPrefix (lit "label/")) value }
  else if suffix.hasPrefix (lit "restrict/") then
    { node with restrictions := node.restrictions.set (suffix.trimPrefix (lit "restrict/")) value }
  else node

def extractNodeInfoFromFacts : Map NodeInfo :=
  (factsWithPrefix facts scanObservedNodes).foldl (fun nodes fact =>
    match Str.splitN Str.slash 2 (fact.key.trimPrefix scanObservedNodes) with
    | [] => nodes
    | nodeID :: field =>
      nodes.update nodeID (.new nodeID) (fun node =>
        match field with
        | [suffix] => setNodeField node suffix fact.value
        | _ => node)) ∅

def extractPlacementsFromFacts : Map Str :=
  (factsWithPrefix facts scanPlacements).foldl (fun placements fact =>
    let relativePath := fact.key.trimPrefix scanPlacements
    if relativePath ≠ [] ∧ Str.containsByte relativePath Str.slash = false then
      placements.set relativePath fact.value
    else placements) ∅

/-! ## Services -/

def foldServiceFields {ν : Type} (facts : List Fact) (zero : Map ν)
    (step : Map ν → Str → Str → Str → Map ν) : Map ν :=
  (factsWithPrefix facts scanDesiredServices).foldl (fun collected fact =>
    match splitFactKeyIntoEntityAndSuffix fact.key scanDesiredServices with
    | some (serviceName, suffix) => step collected serviceName suffix fact.value
    | none => collected) zero

def extractServicePriorities : Map Int :=
  foldServiceFields facts ∅ (fun priorities serviceName suffix value =>
    if suffix = lit "priority" then
      match atoi? value with
      | some priority => priorities.set serviceName priority
      | none => priorities
    else priorities)

def extractStatefulServices : Map Bool :=
  foldServiceFields facts ∅ (fun stateful serviceName suffix value =>
    if suffix = lit "stateful" ∧ value = lit "true" then stateful.set serviceName true
    else stateful)

def extractServicesWithStartupProbe : Map Bool :=
  foldServiceFields facts ∅ (fun servicesWithStartupProbe serviceName suffix _ =>
    if suffix = lit "probe/startup/method" then servicesWithStartupProbe.set serviceName true
    else servicesWithStartupProbe)

/-- `stillStarting` of every instance. -/
def markInstancesStillStarting (instances : Map InstanceInfo)
    (servicesWithStartupProbe : Map Bool) : Map InstanceInfo :=
  instances.keys.foldl (fun marked instanceID =>
    marked.update instanceID .zero (fun info =>
      let probed := servicesWithStartupProbe.get info.service false
      let succeeded := decide (info.startupProbeState = startupProbeSucceeded)
      { info with stillStarting := probed && !succeeded })) instances

def foldThreeParts {ν : Type} (facts : List Fact) (scan : Str) (zero : Map ν)
    (step : Map ν → Str → Str → Str → Str → Map ν) : Map ν :=
  (factsWithPrefix facts scan).foldl (fun collected fact =>
    match Str.splitN Str.slash 3 (fact.key.trimPrefix scan) with
    | [entity, kind, name] => step collected entity kind name fact.value
    | _ => collected) zero

def extractServiceGroupMemberships : Map Str :=
  foldThreeParts facts scanDesiredGroups ∅ (fun serviceToGroup groupName kind serviceName _ =>
    if kind = lit "process" then serviceToGroup.set serviceName groupName else serviceToGroup)

/-- A number that does not parse counts as what `ParseInt` returns with its error. -/
def extractServiceResourcesFromFacts : Map ServiceResourceRequirements :=
  foldThreeParts facts scanDesiredServices ∅ (fun resources serviceName kind field value =>
    if kind = lit "resources" then
      resources.update serviceName ⟨0, 0⟩ (fun resource =>
        if field = lit "cpu" then { resource with cpu := (parseInt value).1 }
        else if field = lit "memory" then { resource with memory := (parseInt value).1 }
        else resource)
    else resources)

def setConstraintField (constraint : ServicePlacementConstraint) (suffix value : Str) :
    ServicePlacementConstraint :=
  if suffix = lit "placement/mode" then { constraint with mode := value }
  else if suffix = lit "placement/rebalance" then
    { constraint with rebalance := decide (value = lit "true") }
  else if suffix = lit "placement/architecture" then { constraint with architecture := value }
  else if suffix = lit "placement/zone" then { constraint with zonePolicy := value }
  else if suffix = lit "placement/zone/maxSkew" then
    match atoi? value with
    | some maxSkew => if maxSkew ≥ 1 then { constraint with zoneMaxSkew := maxSkew } else constraint
    | none => constraint
  else if suffix.hasPrefix (lit "placement/require/") then
    { constraint with require :=
        constraint.require.set (suffix.trimPrefix (lit "placement/require/")) value }
  else if suffix.hasPrefix (lit "placement/prefer/") then
    { constraint with prefer :=
        constraint.prefer.set (suffix.trimPrefix (lit "placement/prefer/")) value }
  else if suffix.hasPrefix (lit "placement/accept/") then
    { constraint with accept :=
        constraint.accept.set (suffix.trimPrefix (lit "placement/accept/")) true }
  else if suffix.hasPrefix (lit "placement/colocate/") then
    { constraint with colocate :=
        constraint.colocate ++ [suffix.trimPrefix (lit "placement/colocate/")] }
  else if suffix.hasPrefix (lit "placement/separate/") then
    { constraint with separate :=
        constraint.separate ++ [suffix.trimPrefix (lit "placement/separate/")] }
  else constraint

def extractPlacementConstraints : Map ServicePlacementConstraint :=
  foldServiceFields facts ∅ (fun constraints serviceName suffix value =>
    constraints.update serviceName .zero
      (fun constraint => setConstraintField constraint suffix value))

/-! ## Volumes -/

def foldVolumeFields {ν : Type} (facts : List Fact) (field : Str)
    (step : Map ν → Str → Str → Map ν) : Map ν :=
  (factsWithPrefix facts scanObservedVolumes).foldl (fun collected fact =>
    match splitFactKeyIntoEntityAndSuffix fact.key scanObservedVolumes with
    | some (volumeName, suffix) =>
      if suffix = field then step collected volumeName fact.value else collected
    | none => collected) ∅

def extractSharedVolumeNames : Map Bool :=
  foldVolumeFields facts (lit "access") (fun shared volumeName value =>
    if value = volumeAccessShared then shared.set volumeName true else shared)

def volumeHomes : Map Str :=
  foldVolumeFields facts (lit "home_node") (fun homes volumeName value =>
    if value.length > 0 then homes.set volumeName value else homes)

def applyVolumeHomeNodeConstraints (constraints : Map ServicePlacementConstraint)
    (facts : List Fact) : Map ServicePlacementConstraint :=
  let homes := volumeHomes facts
  if homes.len = 0 then constraints
  else foldThreeParts facts scanDesiredServices constraints
    (fun constraints serviceName kind volumeName _ =>
      if kind = lit "volume" then
        match homes.lookup volumeName with
        | some homeNode =>
          constraints.update serviceName .zero (fun constraint =>
            { constraint with volumeHomeNodes := constraint.volumeHomeNodes.set homeNode true })
        | none => constraints
      else constraints)

/-- Stateful services and those that mount a volume not known to be shared. -/
def extractRebalancePinnedServices (statefulServices : Map Bool) : Map Bool :=
  let sharedVolumeNames := extractSharedVolumeNames facts
  let pinned := statefulServices.keys.foldl
    (fun (pinned : Map Bool) serviceName => pinned.set serviceName true) ∅
  foldThreeParts facts scanDesiredServices pinned (fun pinned serviceName kind volumeName _ =>
    if kind = lit "volume" ∧ sharedVolumeNames.get volumeName false = false then
      pinned.set serviceName true
    else pinned)

def extractExistingUnplacedInstanceIDs : List Str :=
  ((factsWithPrefix facts scanDerivedSchedulerUnplaced).foldl (fun (seen : Map Bool) fact =>
    match Str.splitN Str.slash 2 (fact.key.trimPrefix scanDerivedSchedulerUnplaced) with
    | [] => seen
    | instanceID :: _ => if instanceID ≠ [] then seen.set instanceID true else seen) ∅).sortedKeys

end CCattler.Scheduler
