import CCattler.Controllers.Controller
import CCattler.Scheduler.Facts
import CCattler.Scheduler.NodeHeap

/-! # Placing instances

Groups are placed whole onto one node; the other instances are placed service
by service, each onto the best of the nodes that satisfy the service's rules.
-/

namespace CCattler.Scheduler

open Go Store CCattler.Types Controllers

/-! ## Loads and candidates -/

def findUnplacedPendingInstances (instances : Map InstanceInfo) (placements : Map Str) :
    List Str :=
  sortStrings (instances.keys.filter (fun instanceID =>
    decide ((instances.get instanceID .zero).state = instancePending) &&
      decide (placements.get instanceID [] = [])))

def countServiceInstancesPerNode (placements : Map Str) (instances : Map InstanceInfo) :
    Map (Map Int) :=
  placements.keys.foldl (fun counts instanceID =>
    match instances.lookup instanceID with
    | none => counts
    | some info =>
      counts.update info.service ∅ (fun perNode =>
        perNode.update (placements.get instanceID []) 0 (fun count => count + 1))) ∅

structure NodeUsage where
  loadPerNode : Map Int
  usedCPU : Map Int
  usedMemory : Map Int

def computeNodeLoadAndResourceUsage (placements : Map Str) (instances : Map InstanceInfo)
    (serviceResources : Map ServiceResourceRequirements) : NodeUsage :=
  placements.keys.foldl (fun usage instanceID =>
    let nodeID := placements.get instanceID []
    let loadPerNode := usage.loadPerNode.update nodeID 0 (fun load => load + 1)
    match (instances.lookup instanceID).bind
        (fun info => serviceResources.lookup info.service) with
    | none => { usage with loadPerNode := loadPerNode }
    | some resource =>
      { loadPerNode := loadPerNode
        usedCPU := usage.usedCPU.update nodeID 0 (fun cpu => wrap64 (cpu + resource.cpu))
        usedMemory :=
          usage.usedMemory.update nodeID 0 (fun memory => wrap64 (memory + resource.memory)) })
    ⟨∅, ∅, ∅⟩

def buildAliveCandidateNodes (nodes : Map NodeInfo) (usedCPU usedMemory : Map Int) :
    List CandidateNode :=
  (nodes.sortedKeys.map (fun nodeID => nodes.get nodeID (.new nodeID))).filterMap (fun node =>
    if node.state = nodeAlive then some
      { id := node.id
        availCPU := wrap64 (node.availCPU - usedCPU.get node.id 0)
        availMemory := wrap64 (node.availMemory - usedMemory.get node.id 0)
        architecture := node.architecture
        zone := node.zone
        labels := node.labels
        restrictions := node.restrictions }
    else none)

section

variable (placements : Map Str) (instances : Map InstanceInfo)

def computeServiceZonePlacements (alive : List CandidateNode) : Map (Map Int) :=
  placements.keys.foldl (fun counts instanceID =>
    match instances.lookup instanceID with
    | none => counts
    | some info =>
      let zone := ((alive.find? (fun node =>
        decide (node.id = placements.get instanceID []))).map CandidateNode.zone).getD []
      -- a node that is not alive has no zone here
      if info.state = instanceStopped ∨ zone = [] then counts
      else counts.update info.service ∅ (fun perZone =>
        perZone.update zone 0 (fun count => count + 1))) ∅

def buildNodeServicesMap : Map (Map Bool) :=
  placements.keys.foldl (fun nodeServices instanceID =>
    match instances.lookup instanceID with
    | none => nodeServices
    | some info =>
      if info.state = instanceRunning ∨ info.state = instancePending then
        nodeServices.update (placements.get instanceID []) ∅
          (fun services => services.set info.service true)
      else nodeServices) ∅

end

/-! ## Rules -/

def isHomeOfAllVolumes (nodeID : Str) (volumeHomeNodes : Map Bool) : Bool :=
  decide (volumeHomeNodes.len = 1) && volumeHomeNodes.get nodeID false

def satisfiesRequireLabels (labels requireLabels : Map Str) : Bool :=
  requireLabels.keys.all (fun label =>
    decide (labels.lookup label = some (requireLabels.get label [])))

def toleratesRestrictions (restrictions : Map Str) (acceptLabels : Map Bool) : Bool :=
  restrictions.keys.all (fun restrictLabel => acceptLabels.get restrictLabel false)

def filterOrAll (keep : CandidateNode → Bool) (candidates : List CandidateNode) :
    List CandidateNode :=
  if candidates.filter keep = [] then candidates else candidates.filter keep

variable (candidates : List CandidateNode)

def filterByRestrictions (acceptLabels : Map Bool) : List CandidateNode :=
  filterOrAll (fun candidate => toleratesRestrictions candidate.restrictions acceptLabels)
    candidates

def filterByVolumeHomeNodes (volumeHomeNodes : Map Bool) : List CandidateNode :=
  candidates.filter (fun candidate => isHomeOfAllVolumes candidate.id volumeHomeNodes)

/-- The conditions of the loop of `filterByConstraints`. -/
def satisfiesConstraint (constraint : ServicePlacementConstraint) (candidate : CandidateNode) :
    Bool :=
  !decide (constraint.architecture ≠ [] ∧ candidate.architecture ≠ [] ∧
      candidate.architecture ≠ constraint.architecture) &&
    !decide (constraint.zonePolicy ≠ [] ∧ constraint.zonePolicy ≠ lit "spread" ∧
      candidate.zone ≠ [] ∧ candidate.zone ≠ constraint.zonePolicy) &&
    satisfiesRequireLabels candidate.labels constraint.require &&
    toleratesRestrictions candidate.restrictions constraint.accept

section

variable (candidates : List CandidateNode)

/-- Home nodes of volumes are binding; if the other rules leave no candidate they
are ignored. -/
def filterByConstraints (serviceName : Str)
    (constraints : Map ServicePlacementConstraint) : List CandidateNode :=
  match constraints.lookup serviceName with
  | none => filterByRestrictions candidates ∅
  | some constraint =>
    let homes := if constraint.volumeHomeNodes.len > 0 then
      filterByVolumeHomeNodes candidates constraint.volumeHomeNodes else candidates
    filterOrAll (satisfiesConstraint constraint) homes

def filterOutNodesAlreadyHostingService (serviceName : Str)
    (placements : Map Str) (instances : Map InstanceInfo) : List CandidateNode :=
  let occupiedNodes := placements.keys.filterMap (fun instanceID =>
    match instances.lookup instanceID with
    | some info => if info.service = serviceName then placements.lookup instanceID else none
    | none => none)
  candidates.filter (fun candidate => decide (candidate.id ∉ occupiedNodes))

def rankByPreferences (preferLabels : Map Str) :
    List CandidateNode :=
  let score := fun (candidate : CandidateNode) => preferLabels.keys.countP (fun label =>
    decide (candidate.labels.get label [] = preferLabels.get label []))
  sliceStable (fun first second => decide (score first > score second)) candidates

def rankByAffinityHints
    (colocateTargets separateTargets : List Str) (nodeServicesMap : Map (Map Bool)) :
    List CandidateNode :=
  let hosts := fun (candidate : CandidateNode) target =>
    (nodeServicesMap.get candidate.id ∅).get target false
  let score := fun (candidate : CandidateNode) =>
    (colocateTargets.countP (hosts candidate) : Int) - separateTargets.countP (hosts candidate)
  sliceStable (fun first second => decide (score first > score second)) candidates

end

/-! ## The state of a placement round -/

structure PlacementInputs where
  serviceResources : Map ServiceResourceRequirements
  placementConstraints : Map ServicePlacementConstraint
  instances : Map InstanceInfo
  placements : Map Str
  serviceToGroup : Map Str
  nodeServicesMap : Map (Map Bool)

structure PlacementState where
  alive : List CandidateNode
  loadPerNode : Map Int
  serviceZoneCounts : Map (Map Int)
  serviceInstancesPerNode : Map (Map Int)

structure Placement where
  instanceID : Str
  nodeID : Str
  deriving DecidableEq, Repr

def Placement.changes (placement : Placement) : List Change :=
  groupedChanges (lit "placement/" ++ placement.instanceID)
    [.put (keyPlacementInstance placement.instanceID) placement.nodeID,
      .put (keyPlacementNodeInstance placement.nodeID placement.instanceID) []]

def updateNodeResourcesAfterPlacement (state : PlacementState) (selectedNodeID : Str)
    (requiredCPU requiredMemory : Int) (serviceName : Str) : PlacementState :=
  match state.alive.find? (fun node => decide (node.id = selectedNodeID)) with
  | none => state
  | some selected =>
    { state with
      alive := state.alive.map (fun node =>
        if node.id = selectedNodeID then
          { node with
            availCPU := wrap64 (node.availCPU - requiredCPU)
            availMemory := wrap64 (node.availMemory - requiredMemory) }
        else node)
      serviceZoneCounts :=
        if selected.zone ≠ [] ∧ serviceName ≠ [] then
          state.serviceZoneCounts.update serviceName ∅ (fun perZone =>
            perZone.update selected.zone 0 (fun count => count + 1))
        else state.serviceZoneCounts }

/-! ## Batches -/

def findMinZones (zoneCounts : Map Int) (maxSkew : Int) : Map Bool :=
  let countOf := fun (candidate : CandidateNode) =>
    zoneCounts.get (NodeCapacityCache.zoneOf candidate) 0
  let minCount := candidates.foldl (fun least candidate => min least (countOf candidate)) maxInt64
  let threshold := wrap64 (minCount + max maxSkew 1)
  candidates.foldl (fun (zones : Map Bool) candidate =>
    if countOf candidate < threshold then zones.set (NodeCapacityCache.zoneOf candidate) true
    else zones) ∅

structure Batch where
  serviceName : Str
  requiredCPU : Int
  requiredMemory : Int
  candidates : List CandidateNode
  perNode : Bool
  useZoneSpread : Bool
  zoneMaxSkew : Int

variable (inputs : PlacementInputs)

def prepareBatch (state : PlacementState) (serviceName : Str) : Batch :=
  let resource := inputs.serviceResources.get serviceName ⟨0, 0⟩
  let constraint := inputs.placementConstraints.get serviceName .zero
  let filtered := filterByConstraints state.alive serviceName inputs.placementConstraints
  let perNode := decide (constraint.mode = lit "per-node")
  let unoccupied := if perNode then
    filterOutNodesAlreadyHostingService filtered serviceName inputs.placements inputs.instances
    else filtered
  let preferred := if constraint.prefer.len > 0 then rankByPreferences unoccupied constraint.prefer
    else unoccupied
  let ranked := if constraint.colocate ≠ [] ∨ constraint.separate ≠ [] then
    rankByAffinityHints preferred constraint.colocate constraint.separate inputs.nodeServicesMap
    else preferred
  { serviceName := serviceName
    requiredCPU := resource.cpu
    requiredMemory := resource.memory
    candidates := ranked
    perNode := perNode
    useZoneSpread := decide (constraint.zonePolicy = lit "spread")
    zoneMaxSkew := if constraint.zoneMaxSkew > 0 then constraint.zoneMaxSkew else 1 }

def Batch.selectNode (batch : Batch) (state : PlacementState) (cache : NodeCapacityCache) : Str :=
  if batch.useZoneSpread then
    cache.bestNodeInZones (findMinZones batch.candidates
      (state.serviceZoneCounts.get batch.serviceName ∅) batch.zoneMaxSkew)
  else cache.bestNode

def Batch.place (batch : Batch) (state : PlacementState) (nodeID : Str) : PlacementState :=
  updateNodeResourcesAfterPlacement
    { state with
      loadPerNode := state.loadPerNode.update nodeID 0 (fun load => load + 1)
      serviceInstancesPerNode := state.serviceInstancesPerNode.update batch.serviceName ∅
        (fun perNode => perNode.update nodeID 0 (fun count => count + 1)) }
    nodeID batch.requiredCPU batch.requiredMemory batch.serviceName

def placeBatch (batch : Batch) :
    List Str → NodeCapacityCache → PlacementState → List Placement × PlacementState
  | [], _, state => ([], state)
  | instanceID :: rest, cache, state =>
    let bestNode := batch.selectNode state cache
    if cache.heapData = [] ∨ bestNode = [] then ([], state)
    else
      -- a node takes one instance of a per-node service
      let recorded := cache.recordPlacement bestNode batch.requiredCPU batch.requiredMemory
      let nextCache := if batch.perNode then recorded.removeNode bestNode else recorded
      let (placed, state) := placeBatch batch rest nextCache (batch.place state bestNode)
      (⟨instanceID, bestNode⟩ :: placed, state)

def placeBatchedInstances (serviceName : Str) (instanceIDs : List Str) (state : PlacementState) :
    List Placement × PlacementState :=
  let batch := prepareBatch inputs state serviceName
  let cache := NodeCapacityCache.new batch.candidates state.loadPerNode
    (state.serviceInstancesPerNode.get serviceName ∅) batch.requiredCPU batch.requiredMemory
  placeBatch batch instanceIDs cache state

def groupInstancesByService (instanceIDs : List Str) (instances : Map InstanceInfo) :
    Map (List Str) :=
  instanceIDs.foldl (fun batches instanceID =>
    batches.update (instances.get instanceID .zero).service []
      (fun members => members ++ [instanceID])) ∅

def placeEach (step : Str → PlacementState → List Placement × PlacementState) :
    List Str → PlacementState → List Placement × PlacementState
  | [], state => ([], state)
  | key :: rest, state =>
    let (placed, state) := step key state
    let (others, state) := placeEach step rest state
    (placed ++ others, state)

def placeUngroupedInstances (unplaced : List Str) (state : PlacementState) :
    List Placement × PlacementState :=
  let serviceBatches := groupInstancesByService unplaced inputs.instances
  placeEach (fun serviceName =>
    placeBatchedInstances inputs serviceName (serviceBatches.get serviceName []))
    serviceBatches.sortedKeys state

/-! ## Groups -/

def findExistingGroupNode (groupName : Str) : Str :=
  let candidateNodeIDs := inputs.placements.keys.filterMap (fun instanceID =>
    match inputs.instances.lookup instanceID with
    | some info =>
      if inputs.serviceToGroup.get info.service [] = groupName then
        inputs.placements.lookup instanceID
      else none
    | none => none)
  (sortStrings candidateNodeIDs).headD []

def collectGroupVolumeHomeNodes (instanceIDs : List Str) : Map Bool :=
  instanceIDs.foldl (fun homes instanceID =>
    match (inputs.instances.lookup instanceID).bind
        (fun info => inputs.placementConstraints.lookup info.service) with
    | none => homes
    | some constraint =>
      constraint.volumeHomeNodes.keys.foldl
        (fun (homes : Map Bool) homeNode => homes.set homeNode true) homes) ∅

def selectGroupVolumeHomeNode (groupHomeNodes : Map Bool) (alive : List CandidateNode) : Str :=
  (groupHomeNodes.keys.find? (fun homeNode =>
    alive.any (fun node => decide (node.id = homeNode)) &&
      isHomeOfAllVolumes homeNode groupHomeNodes)).getD []

def resolveInstanceResourceNeeds (info : Option InstanceInfo)
    (serviceResources : Map ServiceResourceRequirements) : ServiceResourceRequirements :=
  match info with
  | none => ⟨0, 0⟩
  | some info => serviceResources.get info.service ⟨0, 0⟩

section

variable (inputs : PlacementInputs)

def computeGroupResourceTotal (instanceIDs : List Str) :
    ServiceResourceRequirements :=
  instanceIDs.foldl (fun total instanceID =>
    let needs := resolveInstanceResourceNeeds (inputs.instances.lookup instanceID)
      inputs.serviceResources
    ⟨wrap64 (total.cpu + needs.cpu), wrap64 (total.memory + needs.memory)⟩) ⟨0, 0⟩

/-- Where the group already is, else the home of its volumes, else the least loaded node. -/
def selectGroupNode (state : PlacementState) (groupName : Str)
    (instanceIDs : List Str) (groupHomeNodes : Map Bool) : Str :=
  let existing := findExistingGroupNode inputs groupName
  let home := if existing = [] ∧ groupHomeNodes.len > 0 then
    selectGroupVolumeHomeNode groupHomeNodes state.alive else existing
  if home = [] then
    let total := computeGroupResourceTotal inputs instanceIDs
    selectLeastLoadedNode state.alive state.loadPerNode total.cpu total.memory
  else home

def placeGroupOn (targetNode : Str) (instanceIDs : List Str)
    (state : PlacementState) : List Placement × PlacementState :=
  (instanceIDs.map (fun instanceID => ⟨instanceID, targetNode⟩),
    instanceIDs.foldl (fun state instanceID =>
      let info := inputs.instances.lookup instanceID
      let needs := resolveInstanceResourceNeeds info inputs.serviceResources
      updateNodeResourcesAfterPlacement
        { state with
          loadPerNode := state.loadPerNode.update targetNode 0 (fun load => load + 1) }
        targetNode needs.cpu needs.memory ((info.map InstanceInfo.service).getD [])) state)

def placeOneGroup (groupName : Str) (instanceIDs : List Str)
    (state : PlacementState) : List Placement × PlacementState :=
  -- a node that is not the home of all volumes is refused even if members run on it
  let groupHomeNodes := collectGroupVolumeHomeNodes inputs instanceIDs
  let targetNode := selectGroupNode inputs state groupName instanceIDs groupHomeNodes
  if targetNode = [] ∨
      (groupHomeNodes.len > 0 ∧ isHomeOfAllVolumes targetNode groupHomeNodes = false) then
    ([], state)
  else placeGroupOn inputs targetNode instanceIDs state

def placeGroupedInstances (groupedUnplaced : Map (List Str))
    (state : PlacementState) : List Placement × PlacementState :=
  placeEach (fun groupName => placeOneGroup inputs groupName (groupedUnplaced.get groupName []))
    groupedUnplaced.sortedKeys state

end

def partitionUnplacedByGroup (unplaced : List Str) (instances : Map InstanceInfo)
    (serviceToGroup : Map Str) : Map (List Str) × List Str :=
  unplaced.foldl (fun (parts : Map (List Str) × List Str) instanceID =>
    match (instances.lookup instanceID).bind
        (fun info => serviceToGroup.lookup info.service) with
    | some groupName =>
      (parts.1.update groupName [] (fun members => members ++ [instanceID]), parts.2)
    | none => (parts.1, parts.2 ++ [instanceID])) (∅, [])

/-! ## The whole round -/

structure ClusterView where
  nodes : Map NodeInfo
  instances : Map InstanceInfo
  placements : Map Str
  serviceResources : Map ServiceResourceRequirements
  placementConstraints : Map ServicePlacementConstraint
  serviceToGroup : Map Str
  servicePriorities : Map Int
  statefulServices : Map Bool

def attemptPlacements (view : ClusterView) (unplaced : List Str) : List Placement :=
  let usage := computeNodeLoadAndResourceUsage view.placements view.instances
    view.serviceResources
  let alive := buildAliveCandidateNodes view.nodes usage.usedCPU usage.usedMemory
  if alive = [] then []
  else
    let inputs : PlacementInputs :=
      { serviceResources := view.serviceResources
        placementConstraints := view.placementConstraints
        instances := view.instances
        placements := view.placements
        serviceToGroup := view.serviceToGroup
        nodeServicesMap := buildNodeServicesMap view.placements view.instances }
    let state : PlacementState :=
      { alive := alive
        loadPerNode := usage.loadPerNode
        serviceZoneCounts := computeServiceZonePlacements view.placements view.instances alive
        serviceInstancesPerNode := countServiceInstancesPerNode view.placements view.instances }
    let (grouped, ungrouped) := partitionUnplacedByGroup unplaced view.instances
      view.serviceToGroup
    let (first, state) := placeGroupedInstances inputs grouped state
    let (second, _) := placeUngroupedInstances inputs ungrouped state
    first ++ second

end CCattler.Scheduler
