import CCattler.Controllers.Controller
import CCattler.Controllers.Helpers

/-! # The cluster autoscaler

Turns unplaced demand into capacity requests and idle nodes into removal
requests, within the bounds configured for the cluster, and deletes requests
that are done.
-/

namespace CCattler.Controllers

open Go Store CCattler.Types

def defaultMaxClusterNodes : Int := 100

structure CapacityRequestInfo where
  state : CapacityRequestState
  requirements : CapacityRequestRequirements
  reason : Str
  nodeID : Str

def CapacityRequestInfo.zero : CapacityRequestInfo := ⟨[], .zero, [], []⟩

structure UnplacedDemandEntry where
  reason : UnplacedReason
  requirements : CapacityRequestRequirements

def UnplacedDemandEntry.zero : UnplacedDemandEntry := ⟨[], .zero⟩

structure ClusterAutoscaleConfig where
  minNodes : Int
  maxNodes : Int
  deriving DecidableEq, Repr

variable (codec : JSONCodec CapacityRequestRequirements)

/-! ## Reading the facts -/

def parseCapacityRequestField (request : CapacityRequestInfo) (suffix factValue : Str) :
    CapacityRequestInfo :=
  if suffix = lit "state" then { request with state := factValue }
  else if suffix = lit "requirements" then
    { request with requirements := (codec.unmarshal factValue).getD request.requirements }
  else if suffix = lit "reason" then { request with reason := factValue }
  else if suffix = lit "node_id" then { request with nodeID := factValue }
  else request

section

variable (facts : List Fact)

def extractCapacityRequests : Map CapacityRequestInfo :=
  (factsWithPrefix facts scanDerivedCapacityRequests).foldl (fun requests fact =>
    match splitFactKeyIntoEntityAndSuffix fact.key scanDerivedCapacityRequests with
    | some (requestID, suffix) =>
      requests.update requestID .zero
        (fun request => parseCapacityRequestField codec request suffix fact.value)
    | none => requests) ∅

def extractUnplacedDemand : Map UnplacedDemandEntry :=
  (factsWithPrefix facts scanDerivedSchedulerUnplaced).foldl (fun demand fact =>
    match splitFactKeyIntoEntityAndSuffix fact.key scanDerivedSchedulerUnplaced with
    | some (instanceID, suffix) =>
      demand.update instanceID .zero (fun entry =>
        if suffix = lit "reason" then { entry with reason := fact.value }
        else if suffix = lit "requirements" then
          { entry with requirements := (codec.unmarshal fact.value).getD entry.requirements }
        else entry)
    | none => demand) ∅

def extractClusterAutoscaleConfig : ClusterAutoscaleConfig :=
  (factsWithPrefix facts clusterAutoscalePrefix).foldl (fun config fact =>
    if fact.key = keyDesiredClusterAutoscaleMinNodes then
      { config with minNodes := (atoi? fact.value).getD config.minNodes }
    else if fact.key = keyDesiredClusterAutoscaleMaxNodes then
      { config with maxNodes := (atoi? fact.value).getD config.maxNodes }
    else config) ⟨0, 0⟩

def extractClusterNodeStates : Map NodeState :=
  collectStringValuesBySuffix facts scanObservedNodes (lit "state")

def countInstancesPerNode : Map Int :=
  let instanceFields := parseInstanceFieldsFromFacts facts
  (factsWithPrefix facts scanPlacements).foldl (fun counts fact =>
    let instanceID := fact.key.trimPrefix scanPlacements
    if instanceID.containsByte Str.slash then counts
    else match instanceFields.lookup instanceID with
      | none => counts
      | some fields =>
        let state := effectiveInstanceState fields
        if state ≠ instanceStopped ∧ state ≠ [] then
          counts.update fact.value 0 (fun count => count + 1)
        else counts) ∅

end

/-! ## Counting -/

def countInFlightCapacityRequests (requests : Map CapacityRequestInfo) : Nat :=
  requests.keys.countP (fun requestID =>
    let state := (requests.get requestID .zero).state
    decide (state = capacityRequestPending ∨ state = capacityRequestLaunching))

variable (nodeStates : Map NodeState)

def countAliveAutoNodes : Nat :=
  nodeStates.keys.countP (fun nodeID =>
    decide (nodeStates.get nodeID [] = nodeAlive) && nodeID.hasPrefix (lit "auto-node-"))

/-! ## Scaling up -/

def filterInsufficientCapacityDemand (demand : Map UnplacedDemandEntry) : Map UnplacedDemandEntry :=
  demand.keys.foldl (fun filtered instanceID =>
    let entry := demand.get instanceID .zero
    if entry.reason = unplacedInsufficientCapacity ∨ entry.reason = unplacedNoNodes then
      filtered.set instanceID entry
    else filtered) ∅

variable (existingRequests : Map CapacityRequestInfo)

def collectCoveredInstances : Map Bool :=
  existingRequests.keys.foldl (fun covered requestID => covered.set requestID true) ∅

def buildCapacityRequestChanges (requestID : Str) (requirements : CapacityRequestRequirements) :
    List Change :=
  groupedChanges (lit "cap-req-" ++ requestID)
    [.put (keyDerivedCapacityRequestState requestID) capacityRequestPending,
      .put (keyDerivedCapacityRequestRequirements requestID)
        ((codec.marshal requirements).getD (lit "\x7b\x7d")),
      .put (keyDerivedCapacityRequestReason requestID)
        (lit "insufficient capacity for instance " ++ requestID)]

/-- The loop of `buildNewCapacityRequests` over the sorted instance IDs. -/
def newCapacityRequests (demand : Map UnplacedDemandEntry) (alreadyCovered : Map Bool) :
    Nat → List Str → List Change
  | 0, _ => []
  | _ + 1, [] => []
  | maxNew + 1, instanceID :: rest =>
    if alreadyCovered.get instanceID false then
      newCapacityRequests demand alreadyCovered (maxNew + 1) rest
    else
      buildCapacityRequestChanges codec instanceID (demand.get instanceID .zero).requirements ++
        newCapacityRequests demand alreadyCovered maxNew rest

/-- One request for each uncovered instance, up to the limit, which is positive
where this is called. -/
def buildNewCapacityRequests (demand : Map UnplacedDemandEntry) (alreadyCovered : Map Bool)
    (maxNew : Int) : List Change :=
  newCapacityRequests codec demand alreadyCovered maxNew.toNat demand.sortedKeys

variable (facts : List Fact)

def emitScaleUpRequests (existingRequests : Map CapacityRequestInfo)
    (clusterConfig : ClusterAutoscaleConfig) (currentAliveCount inFlightCount : Nat) :
    List Change :=
  let insufficientCapacityDemand :=
    filterInsufficientCapacityDemand (extractUnplacedDemand codec facts)
  let effectiveNodeCount := currentAliveCount + inFlightCount
  let availableSlots := wrap64 (clusterConfig.maxNodes - effectiveNodeCount)
  if insufficientCapacityDemand.len = 0 then []
  else if availableSlots ≤ 0 then []
  else buildNewCapacityRequests codec insufficientCapacityDemand
    (collectCoveredInstances existingRequests) availableSlots

/-! ## Scaling down -/

def findIdleAutoNodes (instancesPerNode : Map Int) : List Str :=
  sortStrings (nodeStates.keys.filter (fun nodeID =>
    decide (nodeStates.get nodeID [] = nodeAlive) && nodeID.hasPrefix (lit "auto-node-") &&
      decide (instancesPerNode.get nodeID 0 = 0)))

def buildRemovalRequestChanges (nodeID : Str) : List Change :=
  let requestID := lit "remove-" ++ nodeID
  groupedChanges (lit "cap-rm-" ++ nodeID)
    [.put (keyDerivedCapacityRequestState requestID) capacityRequestRemoving,
      .put (keyDerivedCapacityRequestNodeID requestID) nodeID,
      .put (keyDerivedCapacityRequestReason requestID) (lit "idle auto-node removal: " ++ nodeID)]

def pendingRemovals : Map Bool :=
  existingRequests.keys.foldl (fun pending requestID =>
    let request := existingRequests.get requestID .zero
    if request.state = capacityRequestRemoving ∧ request.nodeID ≠ [] then
      pending.set request.nodeID true
    else pending) ∅

def countAliveNodes : Nat :=
  nodeStates.keys.countP (fun nodeID => decide (nodeStates.get nodeID [] = nodeAlive))

/-- The loop of `emitScaleDownRequests` over the idle nodes. -/
def removalRequests (pending : Map Bool) (minNodes : Int) : Int → List Str → List Change
  | _, [] => []
  | aliveCount, nodeID :: rest =>
    if aliveCount ≤ minNodes then []
    else if pending.get nodeID false then removalRequests pending minNodes aliveCount rest
    else buildRemovalRequestChanges nodeID ++ removalRequests pending minNodes (aliveCount - 1) rest

def emitScaleDownRequests (nodeStates : Map NodeState) (existingRequests : Map CapacityRequestInfo)
    (clusterConfig : ClusterAutoscaleConfig) : List Change :=
  if clusterConfig.minNodes ≤ 0 then []
  else removalRequests (pendingRemovals existingRequests) clusterConfig.minNodes
    (countAliveNodes nodeStates) (findIdleAutoNodes nodeStates (countInstancesPerNode facts))

/-! ## Cleaning up -/

def deleteCapacityRequest (requestID : Str) : List Change :=
  groupedChanges (lit "cap-del-" ++ requestID) [.delete (keyDerivedCapacityRequestState requestID),
      .delete (keyDerivedCapacityRequestRequirements requestID),
      .delete (keyDerivedCapacityRequestReason requestID),
      .delete (keyDerivedCapacityRequestNodeID requestID)]

def cleanupReadyCapacityRequests : List Change :=
  existingRequests.sortedKeys.flatMap (fun requestID =>
    let request := existingRequests.get requestID .zero
    if request.state = capacityRequestReady ∨ request.state = capacityRequestFailed then
      deleteCapacityRequest requestID
    else [])

namespace ClusterAutoscaleController

def watch : List Str :=
  [scanObservedInstances, scanDerivedInstances, scanObservedNodes, scanPlacements,
    scanDesiredServices, scanDerivedSchedulerUnplaced, scanDerivedCapacityRequests]

def clusterConfig : ClusterAutoscaleConfig :=
  let config := extractClusterAutoscaleConfig facts
  if config.maxNodes = 0 then { config with maxNodes := defaultMaxClusterNodes } else config

def reconcile : List Change :=
  let config := clusterConfig facts
  let existingRequests := extractCapacityRequests codec facts
  let nodeStates := extractClusterNodeStates facts
  emitScaleUpRequests codec facts existingRequests config (countAliveAutoNodes nodeStates)
      (countInFlightCapacityRequests existingRequests) ++
    emitScaleDownRequests facts nodeStates existingRequests config ++
    cleanupReadyCapacityRequests existingRequests

end ClusterAutoscaleController

end CCattler.Controllers
