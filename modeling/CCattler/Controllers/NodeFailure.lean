import CCattler.Controllers.Drain
import CCattler.Go.Time

/-! # The node failure controller

Marks nodes unreachable whose heartbeat is too old and alive again when it is
fresh, marks the instances on unreachable nodes, and clears the marks of the
others.
-/

namespace CCattler.Controllers

open Go Store CCattler.Types

/-- The settings; a negative cap on node state changes makes the source panic. -/
structure NodeFailureSettings where
  leaseTimeout : Int
  maxTotalChangesPerCycle : Int
  maxNodeStateChangesPerCycle : Nat
  deriving DecidableEq, Repr

/-- The settings of `NewNodeFailureController`. -/
def NodeFailureSettings.new : NodeFailureSettings := ⟨30 * second, 58, 12⟩

/-! ## Reading the facts -/

def parseNodeLeaseTimestamps (facts : List Fact) : Map Int :=
  (factsWithPrefix facts scanLeaseNodes).foldl (fun lastHeartbeatMillisByNode fact =>
    match atoi? fact.value with
    | some milliTimestamp =>
      lastHeartbeatMillisByNode.set (fact.key.trimPrefix scanLeaseNodes) milliTimestamp
    | none => lastHeartbeatMillisByNode) ∅

def parseCurrentNodeStates (facts : List Fact) : Map Str :=
  collectStringValuesBySuffix facts scanObservedNodes (lit "state")

/-! ## Nodes -/

structure NodeVerdicts where
  recoveredNodeIDs : List Str
  unreachableNodeSet : Map Bool

section

variable (settings : NodeFailureSettings) (currentTime : Time) (lastHeartbeatMillisByNode : Map Int)
  (currentNodeStates : Map Str)

def judgeNode (verdicts : NodeVerdicts) (nodeID : Str) : NodeVerdicts :=
  let nodeState := currentNodeStates.get nodeID []
  let timeSinceLastHeartbeat := currentTime.subMilli (lastHeartbeatMillisByNode.get nodeID 0)
  let heartbeatIsFresh := decide (timeSinceLastHeartbeat ≤ settings.leaseTimeout)
  let unreachable :=
    { verdicts with unreachableNodeSet := verdicts.unreachableNodeSet.set nodeID true }
  if nodeState = nodeUnreachable ∧ heartbeatIsFresh = true then
    { verdicts with recoveredNodeIDs := verdicts.recoveredNodeIDs ++ [nodeID] }
  else if nodeState = nodeUnreachable then unreachable
  else if nodeState ≠ nodeAlive then verdicts
  else if heartbeatIsFresh = false then unreachable
  else verdicts

def identifyUnreachableNodes : Map Bool × List Change :=
  let verdicts := lastHeartbeatMillisByNode.keys.foldl
    (judgeNode settings currentTime lastHeartbeatMillisByNode currentNodeStates) ⟨[], ∅⟩
  let recovered := (sortStrings verdicts.recoveredNodeIDs).map
    (fun nodeID => Change.put (keyObservedNodeState nodeID) nodeAlive)
  let newlyUnreachable := (verdicts.unreachableNodeSet.sortedKeys.filter
    (fun nodeID => decide (currentNodeStates.get nodeID [] ≠ nodeUnreachable))).map
      (fun nodeID => Change.put (keyObservedNodeState nodeID) nodeUnreachable)
  (verdicts.unreachableNodeSet, recovered ++ newlyUnreachable)

end

/-! ## Instances -/

section

variable (facts : List Fact) (unreachableNodeSet : Map Bool) (maxChanges : Nat)

def markInstancesOnUnreachableNodesAsFailed : List Change :=
  let instancePlacementNode := parsePlacementsByNode facts
  let instanceFields := parseInstanceFieldsFromFacts facts
  let affectedInstanceIDs := sortStrings (instancePlacementNode.keys.filter (fun instanceID =>
    unreachableNodeSet.get (instancePlacementNode.get instanceID []) false &&
      match instanceFields.lookup instanceID with
      | none => false
      | some fields => isActiveInstanceState (effectiveInstanceState fields)))
  (affectedInstanceIDs.take maxChanges).map (fun instanceID =>
    Change.put (keyDerivedInstanceNodeFailure instanceID) (lit "true"))

def cleanupStaleNodeFailureMarkers : List Change :=
  let instancePlacementNode := parsePlacementsByNode facts
  let staleInstanceIDs := sortStrings
    ((factsWithPrefix facts scanDerivedInstances).filterMap (fun fact =>
      match splitFactKeyIntoEntityAndSuffix fact.key scanDerivedInstances with
      | some (instanceID, suffix) =>
        let placedNode := instancePlacementNode.get instanceID []
        if suffix = lit "node_failure" ∧ placedNode ≠ [] ∧
            unreachableNodeSet.get placedNode false = false then some instanceID
        else none
      | none => none))
  (staleInstanceIDs.take maxChanges).map (fun instanceID =>
    Change.delete (keyDerivedInstanceNodeFailure instanceID))

end

namespace NodeFailureController

def watch : List Str :=
  [scanLeaseNodes, scanObservedNodes, scanObservedInstances, scanDerivedInstances, scanPlacements]

def reconcile (settings : NodeFailureSettings) (currentTime : Time) (facts : List Fact) :
    List Change :=
  let (unreachableNodeSet, allNodeStateChanges) := identifyUnreachableNodes settings currentTime
    (parseNodeLeaseTimestamps facts) (parseCurrentNodeStates facts)
  let nodeStateChanges := allNodeStateChanges.take settings.maxNodeStateChangesPerCycle
  -- a budget below zero counts as zero
  let remainingBudget := (settings.maxTotalChangesPerCycle - nodeStateChanges.length).toNat
  let instanceFailureChanges := markInstancesOnUnreachableNodesAsFailed facts unreachableNodeSet
    remainingBudget
  let cleanupBudget := remainingBudget - instanceFailureChanges.length
  nodeStateChanges ++ instanceFailureChanges ++
    cleanupStaleNodeFailureMarkers facts unreachableNodeSet cleanupBudget

end NodeFailureController

end CCattler.Controllers
