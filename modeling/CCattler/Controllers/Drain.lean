import CCattler.Controllers.Controller
import CCattler.Controllers.Helpers

/-! # The drain controller

Marks the instances on draining nodes for eviction within the disruption budgets, and
a node without active instances as drained.
-/

namespace CCattler.Controllers

open Go Store CCattler.Types

structure DisruptionBudget where
  minAvailable : Int
  maxUnavailable : Int
  deriving DecidableEq, Repr

/-! ## Reading the facts -/

section

variable (facts : List Fact)

def parseDrainingNodes : Map Bool :=
  (factsWithPrefix facts scanObservedNodes).foldl (fun drainingNodeSet fact =>
    match splitFactKeyIntoEntityAndSuffix fact.key scanObservedNodes with
    | some (nodeID, suffix) =>
      if suffix = lit "state" ∧ fact.value = nodeDraining then drainingNodeSet.set nodeID true
      else drainingNodeSet
    | none => drainingNodeSet) ∅

def parsePlacementsByNode : Map Str :=
  (factsWithPrefix facts scanPlacements).foldl (fun instancePlacementNode fact =>
    instancePlacementNode.set (fact.key.trimPrefix scanPlacements) fact.value) ∅

def parseInstanceStates : Map Str :=
  let instanceFields := parseInstanceFieldsFromFacts facts
  instanceFields.keys.foldl (fun statesByID instanceID =>
    statesByID.set instanceID (effectiveInstanceState (instanceFields.get instanceID ∅))) ∅

def parseInstanceServices : Map Str :=
  collectStringValuesBySuffix facts scanObservedInstances (lit "service")

def parseDrainCompleteMarkers : Map Bool :=
  (factsWithPrefix facts scanDerivedNodes).foldl (fun completeMarkers fact =>
    match Str.splitN Str.slash 3 (fact.key.trimPrefix scanDerivedNodes) with
    | [nodeID, drain, complete] =>
      if drain = lit "drain" ∧ complete = lit "complete" then completeMarkers.set nodeID true
      else completeMarkers
    | _ => completeMarkers) ∅

def parseDrainEvictionMarkers : Map Bool :=
  (factsWithPrefix facts scanDerivedNodes).foldl (fun evictedInstances fact =>
    match Str.splitN Str.slash 4 (fact.key.trimPrefix scanDerivedNodes) with
    | [_, drain, evict, instanceID] =>
      if drain = lit "drain" ∧ evict = lit "evict" then evictedInstances.set instanceID true
      else evictedInstances
    | _ => evictedInstances) ∅

/-- The budgets by service. A number that does not parse counts as what `Atoi`
returns with its error. -/
def parseDisruptionBudgets : Map DisruptionBudget :=
  (factsWithPrefix facts scanDesiredServices).foldl (fun budgetsByService fact =>
    match splitFactKeyIntoEntityAndSuffix fact.key scanDesiredServices with
    | some (serviceName, suffix) =>
      if suffix = lit "disruption/min_available" then
        budgetsByService.update serviceName ⟨0, 0⟩
          (fun budget => { budget with minAvailable := (parseInt fact.value).1 })
      else if suffix = lit "disruption/max_unavailable" then
        budgetsByService.update serviceName ⟨0, 0⟩
          (fun budget => { budget with maxUnavailable := (parseInt fact.value).1 })
      else budgetsByService
    | none => budgetsByService) ∅

def parseDesiredInstanceCounts : Map Int :=
  collectIntValuesBySuffix facts scanDesiredServices (lit "instances")

end

/-! ## Deciding -/

def isActiveInstanceState (instanceState : InstanceState) : Bool :=
  decide (instanceState = instanceRunning ∨ instanceState = instancePending ∨
    instanceState = instanceStarting)

def countGlobalActiveInstancesByService (instanceStates instanceServices : Map Str)
    (evictedInstances : Map Bool) : Map Int :=
  instanceStates.keys.foldl (fun activeCountByService instanceID =>
    let serviceName := instanceServices.get instanceID []
    if evictedInstances.get instanceID false then activeCountByService
    else if isActiveInstanceState (instanceStates.get instanceID []) && decide (serviceName ≠ [])
    then activeCountByService.update serviceName 0 (fun count => count + 1)
    else activeCountByService) ∅

def canEvictUnderDisruptionBudget (serviceName : Str) (disruptionBudgets : Map DisruptionBudget)
    (desiredInstanceCounts globalActiveCountByService : Map Int) : Bool :=
  match disruptionBudgets.lookup serviceName with
  | none => true
  | some budget =>
    let currentActiveCount := globalActiveCountByService.get serviceName 0
    if budget.minAvailable > 0 then decide (currentActiveCount - 1 ≥ budget.minAvailable)
    else if budget.maxUnavailable > 0 then
      let desiredCount := desiredInstanceCounts.get serviceName 0
      if desiredCount = 0 then true
      else
        let currentlyUnavailable := wrap64 (desiredCount - currentActiveCount)
        decide (wrap64 (currentlyUnavailable + 1) ≤ budget.maxUnavailable)
    else true

structure DrainInputs where
  instancePlacementNode : Map Str
  instanceStates : Map Str
  instanceServices : Map Str
  disruptionBudgets : Map DisruptionBudget
  desiredInstanceCounts : Map Int
  existingEvictions : Map Bool
  drainCompleteMarkers : Map Bool

section

variable (inputs : DrainInputs)

variable (drainingNodeID : Str)

def activeInstancesOnNode : List Str :=
  inputs.instancePlacementNode.sortedKeys.filter (fun instanceID =>
    decide (inputs.instancePlacementNode.get instanceID [] = drainingNodeID) &&
      !(inputs.existingEvictions.get instanceID false) &&
      isActiveInstanceState (inputs.instanceStates.get instanceID []))

def activeInstancesByService (activeInstances : List Str) : Map (List Str) :=
  activeInstances.foldl (fun byService instanceID =>
    byService.update (inputs.instanceServices.get instanceID []) []
      (fun instanceIDs => instanceIDs ++ [instanceID])) ∅

def evictOneOfService (drainingNodeID : Str)
    (byService : Map (List Str)) (acc : List Change × Map Int) (serviceName : Str) :
    List Change × Map Int :=
  match byService.get serviceName [] with
  | [] => acc
  | instanceID :: _ =>
    if canEvictUnderDisruptionBudget serviceName inputs.disruptionBudgets
        inputs.desiredInstanceCounts acc.2 then
      (acc.1 ++ [Change.put (keyDerivedNodeDrainEvict drainingNodeID instanceID) (lit "true")],
        acc.2.update serviceName 0 (fun count => count - 1))
    else acc

/-- The evictions on one node, the number of active instances found on it, and
the counts after it. -/
def evictInstancesFromNode (globalActiveCountByService : Map Int) : List Change × Nat × Map Int :=
  let activeInstances := activeInstancesOnNode inputs drainingNodeID
  let byService := activeInstancesByService inputs activeInstances
  let evictions := byService.sortedKeys.foldl (evictOneOfService inputs drainingNodeID byService)
    ([], globalActiveCountByService)
  (evictions.1, activeInstances.length, evictions.2)

def drainNode (acc : List Change × Map Int) (drainingNodeID : Str) : List Change × Map Int :=
  let (evictions, activeCount, counts) := evictInstancesFromNode inputs drainingNodeID acc.2
  let complete :=
    if activeCount = 0 ∧ inputs.drainCompleteMarkers.get drainingNodeID false = false then
      [Change.put (keyDerivedNodeDrainComplete drainingNodeID) (lit "true")]
    else []
  (acc.1 ++ evictions ++ complete, counts)

end

namespace DrainController

def watch : List Str :=
  [scanObservedNodes, scanPlacements, scanObservedInstances, scanDerivedInstances,
    scanDesiredServices, scanDerivedNodes]

def inputs (facts : List Fact) : DrainInputs where
  instancePlacementNode := parsePlacementsByNode facts
  instanceStates := parseInstanceStates facts
  instanceServices := parseInstanceServices facts
  disruptionBudgets := parseDisruptionBudgets facts
  desiredInstanceCounts := parseDesiredInstanceCounts facts
  existingEvictions := parseDrainEvictionMarkers facts
  drainCompleteMarkers := parseDrainCompleteMarkers facts

/-- Without draining nodes the loop has nothing to do, which is the early return
of the source. -/
def reconcile (facts : List Fact) : List Change :=
  let inputs := inputs facts
  ((parseDrainingNodes facts).sortedKeys.foldl (drainNode inputs)
    ([], countGlobalActiveInstancesByService inputs.instanceStates inputs.instanceServices
      inputs.existingEvictions)).1

end DrainController

end CCattler.Controllers
