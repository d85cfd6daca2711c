import CCattler.Scheduler.Placement

/-! # Preemption, rebalancing and unplaced demand -/

namespace CCattler.Scheduler

open Go Store CCattler.Types Controllers

/-! ## Preemption -/

def maxPreemptionsPerCycle : Nat := 3

def isPreemptable (view : ClusterView) (requesterService : Str) (requesterPriority : Int)
    (alreadyPreempted : List Str) (instanceID : Str) : Bool :=
  match view.instances.lookup instanceID, view.nodes.lookup (view.placements.get instanceID []) with
  | some info, some node =>
    decide (instanceID ∉ alreadyPreempted ∧ info.state = instanceRunning ∧
      node.state = nodeAlive ∧ info.service ≠ requesterService ∧
      view.servicePriorities.get info.service 0 < requesterPriority ∧
      (view.placementConstraints.get info.service .zero).mode ≠ lit "per-node" ∧
      view.statefulServices.get info.service false = false)
  | _, _ => false

def ClusterView.priorityOf (view : ClusterView) (instanceID : Str) : Int :=
  view.servicePriorities.get (view.instances.get instanceID .zero).service 0

def findPreemptionVictim (view : ClusterView) (requesterService : Str) (requesterPriority : Int)
    (alreadyPreempted : List Str) : Option Str :=
  (sliceStable (fun first second =>
    if view.priorityOf first ≠ view.priorityOf second then
      decide (view.priorityOf first < view.priorityOf second)
    else decide (first < second))
    (view.placements.keys.filter
      (isPreemptable view requesterService requesterPriority alreadyPreempted))).head?

/-- The loop over the unplaced instances, with the room left and the victims so far. -/
def preemptFor (view : ClusterView) : Nat → List Str → List Str → List Str
  | 0, _, _ => []
  | _ + 1, _, [] => []
  | room + 1, preempted, instanceID :: rest =>
    let requesterPriority := view.priorityOf instanceID
    -- priority zero, which is also that of a service without one, preempts nobody
    if requesterPriority = 0 then preemptFor view (room + 1) preempted rest
    else match findPreemptionVictim view (view.instances.get instanceID .zero).service
        requesterPriority preempted with
      | none => preemptFor view (room + 1) preempted rest
      | some victimID => victimID :: preemptFor view room (victimID :: preempted) rest

def attemptPreemptions (view : ClusterView) (unplaced : List Str)
    (placedInThisCycle : Map Bool) : List Str :=
  let stillUnplaced :=
    unplaced.filter (fun instanceID => !(placedInThisCycle.get instanceID false))
  preemptFor view maxPreemptionsPerCycle [] (sliceStable (fun first second =>
      if view.priorityOf first ≠ view.priorityOf second then
        decide (view.priorityOf first > view.priorityOf second)
      else decide (first < second)) stillUnplaced)

def preemptionChange (victimID : Str) : Change :=
  .put (keyDerivedInstanceControllerStopped victimID) (lit "true")

/-! ## Unplaced demand -/

structure UnplacedDemandRequirements where
  service : Str
  cpu : Int
  memory : Int
  architecture : Str
  deriving DecidableEq, Repr

variable (nodes : Map NodeInfo)

def countAliveNodes : Nat :=
  nodes.keys.countP (fun nodeID => decide ((nodes.get nodeID (.new nodeID)).state = nodeAlive))

def countConstraintMatchingNodes (constraint : ServicePlacementConstraint) : Nat :=
  nodes.keys.countP (fun nodeID =>
    let node := nodes.get nodeID (.new nodeID)
    decide (node.state = nodeAlive) &&
      !decide (constraint.architecture ≠ [] ∧ node.architecture ≠ [] ∧
        node.architecture ≠ constraint.architecture) &&
      satisfiesRequireLabels node.labels constraint.require &&
      toleratesRestrictions node.restrictions constraint.accept &&
      (decide (constraint.volumeHomeNodes.len = 0) ||
        isHomeOfAllVolumes node.id constraint.volumeHomeNodes))

def classifyUnplacedReason (view : ClusterView) (info : InstanceInfo) : UnplacedReason :=
  if countAliveNodes view.nodes = 0 then unplacedNoNodes
  else match view.placementConstraints.lookup info.service with
    | none => unplacedInsufficientCapacity
    | some constraint =>
      let matchCount := countConstraintMatchingNodes view.nodes constraint
      if matchCount = 0 ∧ constraint.volumeHomeNodes.len > 0 then
        unplacedVolumeHomeNodeUnavailable
      else if matchCount = 0 then unplacedUnsatisfiableConstraint
      else unplacedInsufficientCapacity

def buildUnplacedRequirements (view : ClusterView) (info : InstanceInfo) :
    UnplacedDemandRequirements :=
  let resource := view.serviceResources.get info.service ⟨0, 0⟩
  ⟨info.service, resource.cpu, resource.memory,
    (view.placementConstraints.get info.service .zero).architecture⟩

section

variable (codec : JSONCodec UnplacedDemandRequirements) (view : ClusterView)

def buildUnplacedFactChanges (instanceID : Str) : List Change :=
  let info := view.instances.get instanceID .zero
  [.put (keyDerivedSchedulerUnplacedReason instanceID) (classifyUnplacedReason view info),
    .put (keyDerivedSchedulerUnplacedRequirements instanceID)
      ((codec.marshal (buildUnplacedRequirements view info)).getD (lit "\x7b\x7d"))]

def emitUnplacedDemandFacts (unplaced : List Str) (placedInThisCycle : Map Bool) : List Change :=
  (unplaced.filter (fun instanceID => !(placedInThisCycle.get instanceID false))).flatMap
    (buildUnplacedFactChanges codec view)

end

def cleanupStaleUnplacedFacts (facts : List Fact) (existingPlacements : Map Str)
    (placedInThisCycle : Map Bool) : List Change :=
  (extractExistingUnplacedInstanceIDs facts).flatMap (fun instanceID =>
    if existingPlacements.get instanceID [] ≠ [] ∨
        placedInThisCycle.get instanceID false = true then
      [.delete (keyDerivedSchedulerUnplacedReason instanceID),
        .delete (keyDerivedSchedulerUnplacedRequirements instanceID)]
    else [])

/-! ## Rebalancing -/

def maxRebalanceMovesPerCycle : Nat := 2

def rebalanceLoadImbalanceThreshold : Int := 2

structure RebalanceMove where
  instanceID : Str
  sourceNodeID : Str
  targetNodeID : Str
  deriving DecidableEq, Repr

/-- `buildRebalanceMoveChanges`. -/
def RebalanceMove.changes (move : RebalanceMove) : List Change :=
  groupedChanges (lit "rebalance/" ++ move.instanceID)
    [.put (keyPlacementInstance move.instanceID) move.targetNodeID,
      .delete (keyPlacementNodeInstance move.sourceNodeID move.instanceID),
      .put (keyPlacementNodeInstance move.targetNodeID move.instanceID) []]

def collectAliveNodeIDs : List Str :=
  nodes.sortedKeys.filter
    (fun nodeID => decide ((nodes.get nodeID (.new nodeID)).state = nodeAlive))

def computeRunningLoadPerNode (placements : Map Str) (instances : Map InstanceInfo)
    (aliveNodeIDs : List Str) : Map Int :=
  placements.keys.foldl (fun nodeLoad instanceID =>
    match instances.lookup instanceID with
    | none => nodeLoad
    | some info =>
      if info.state = instanceRunning ∨ info.state = instancePending then
        nodeLoad.update (placements.get instanceID []) 0 (fun load => load + 1)
      else nodeLoad)
    (aliveNodeIDs.foldl (fun (nodeLoad : Map Int) nodeID => nodeLoad.set nodeID 0) ∅)

variable (nodeLoad : Map Int)

def computeMaxMinLoad (aliveNodeIDs : List Str) : Int × Int :=
  aliveNodeIDs.foldl (fun bounds nodeID =>
    let load := nodeLoad.get nodeID 0
    (max bounds.1 load, min bounds.2 load)) (0, maxInt64)

def sumNodeLoad : Int :=
  (nodeLoad.keys.map (fun nodeID => nodeLoad.get nodeID 0)).sum

def overloadLess (first second : Str) : Bool :=
  decide (nodeLoad.get first 0 > nodeLoad.get second 0)

def findOverloadedNodes (order : (nodeLoad : Map Int) → SliceSort (overloadLess nodeLoad))
    (nodeLoad : Map Int) (aliveNodeIDs : List Str) (idealLoad : Int) : List Str :=
  (order nodeLoad).sort
    (aliveNodeIDs.filter (fun nodeID => decide (nodeLoad.get nodeID 0 > idealLoad + 1)))

def findMovableInstances (view : ClusterView) (sourceNodeID : Str)
    (placedInThisCycle pinnedServices : Map Bool) : List Str :=
  sortStrings (view.placements.keys.filter (fun instanceID =>
    match view.instances.lookup instanceID with
    | none => false
    | some info =>
      match view.placementConstraints.lookup info.service with
      | none => false
      | some constraint =>
        decide (view.placements.get instanceID [] = sourceNodeID ∧
          placedInThisCycle.get instanceID false = false ∧
          info.state = instanceRunning ∧
          view.serviceToGroup.has info.service = false ∧
          pinnedServices.get info.service false = false ∧
          info.stillStarting = false ∧ constraint.rebalance = true ∧
          constraint.mode ≠ lit "per-node" ∧ constraint.colocate = [] ∧
          constraint.separate = [])))

/-- The least loaded node that meets the service's rules and has fewer of its
instances than the source. -/
def selectRebalanceTarget (view : ClusterView) (serviceName sourceNodeID : Str)
    (aliveCandidates : List CandidateNode) (nodeLoad serviceInstancesOnNode : Map Int) : Str :=
  ((filterByConstraints aliveCandidates serviceName view.placementConstraints).foldl
    (fun (best : Str × Int) candidate =>
      if candidate.id = sourceNodeID then best
      else if serviceInstancesOnNode.get candidate.id 0 ≥ serviceInstancesOnNode.get sourceNodeID 0
      then best
      else if nodeLoad.get candidate.id 0 < best.2 then
        (candidate.id, nodeLoad.get candidate.id 0)
      else best) ([], maxInt64)).1

structure RebalanceState where
  nodeLoad : Map Int
  serviceInstancesPerNode : Map (Map Int)

def RebalanceState.move (state : RebalanceState) (serviceName sourceNodeID targetNodeID : Str) :
    RebalanceState where
  nodeLoad := (state.nodeLoad.update sourceNodeID 0 (fun load => load - 1)).update targetNodeID 0
    (fun load => load + 1)
  serviceInstancesPerNode := state.serviceInstancesPerNode.update serviceName ∅ (fun perNode =>
    (perNode.update sourceNodeID 0 (fun count => count - 1)).update targetNodeID 0
      (fun count => count + 1))

/-- The loop over the movable instances, with the number of moves left. -/
def executeMoves (view : ClusterView) (aliveCandidates : List CandidateNode) :
    Nat → List (Str × Str) → RebalanceState → List RebalanceMove
  | 0, _, _ => []
  | _ + 1, [], _ => []
  | room + 1, (sourceNodeID, instanceID) :: rest, state =>
    let serviceName := (view.instances.get instanceID .zero).service
    let targetNodeID := selectRebalanceTarget view serviceName sourceNodeID aliveCandidates
      state.nodeLoad (state.serviceInstancesPerNode.get serviceName ∅)
    -- a move may not leave the target with more than the source
    if targetNodeID = [] ∨
        state.nodeLoad.get targetNodeID 0 ≥ state.nodeLoad.get sourceNodeID 0 - 1 then
      executeMoves view aliveCandidates (room + 1) rest state
    else ⟨instanceID, sourceNodeID, targetNodeID⟩ :: executeMoves view aliveCandidates room rest
        (state.move serviceName sourceNodeID targetNodeID)

def executeRebalanceMoves (view : ClusterView) (overloadedNodes : List Str)
    (nodeLoad : Map Int) (aliveCandidates : List CandidateNode)
    (placedInThisCycle pinnedServices : Map Bool) : List RebalanceMove :=
  executeMoves view aliveCandidates maxRebalanceMovesPerCycle
    (overloadedNodes.flatMap (fun sourceNodeID =>
      (findMovableInstances view sourceNodeID placedInThisCycle pinnedServices).map
        (fun instanceID => (sourceNodeID, instanceID))))
    ⟨nodeLoad, countServiceInstancesPerNode view.placements view.instances⟩

def rebalancePlacedInstances (order : (nodeLoad : Map Int) → SliceSort (overloadLess nodeLoad))
    (view : ClusterView) (placedInThisCycle pinnedServices : Map Bool) : List RebalanceMove :=
  let aliveNodeIDs := collectAliveNodeIDs view.nodes
  let nodeLoad := computeRunningLoadPerNode view.placements view.instances aliveNodeIDs
  let (maxLoad, minLoad) := computeMaxMinLoad nodeLoad aliveNodeIDs
  if aliveNodeIDs.length < 2 ∨ maxLoad - minLoad ≤ rebalanceLoadImbalanceThreshold then []
  else
    let idealLoad := (sumNodeLoad nodeLoad).tdiv aliveNodeIDs.length
    let usage := computeNodeLoadAndResourceUsage view.placements view.instances
      view.serviceResources
    executeRebalanceMoves view (findOverloadedNodes order nodeLoad aliveNodeIDs idealLoad)
      nodeLoad (buildAliveCandidateNodes view.nodes usage.usedCPU usage.usedMemory)
      placedInThisCycle pinnedServices

end CCattler.Scheduler
