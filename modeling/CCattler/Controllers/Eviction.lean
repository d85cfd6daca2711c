import CCattler.Controllers.Controller
import CCattler.Controllers.Helpers

/-! # The eviction controller

Stops instances on nodes whose memory use is above a hard threshold, lowest
quality of service first, and keeps a pressure marker on such nodes.
-/

namespace CCattler.Controllers

open Go Store CCattler.Types List

def hardEvictionMemoryThresholdPercent : Int := 90

def softEvictionMemoryThresholdPercent : Int := 80

def maxEvictionsPerCycle : Nat := 10

/-- `qosPriority`, where an unknown class counts as `BestEffort`. -/
def qosPriority (qosClass : Str) : Int :=
  if qosClass = lit "Burstable" then 1
  else if qosClass = lit "Guaranteed" then 2
  else 0

structure EvictionCandidate where
  instanceID : Str
  serviceName : Str
  qosPriorityValue : Int
  servicePriority : Int
  memoryRequestBytes : Int
  deriving DecidableEq, Repr

/-! ## Reading the facts -/

/-- The part of a key between a prefix and a suffix, or nothing if there is none
or it has a slash. -/
def extractMiddleSegment (key pre suffix : Str) : Str :=
  if key.length ≤ pre.length + suffix.length then []
  else
    let middle := (key.take (key.length - suffix.length)).drop pre.length
    if Str.containsByte middle Str.slash then [] else middle

/-- The values of the keys between a prefix and a suffix, by the segment in the middle. -/
def collectByMiddleSegment {ν : Type} (parse : Str → Option ν) (pre suffix : Str)
    (facts : List Fact) : Map ν :=
  facts.foldl (fun collected fact =>
    if fact.key.hasPrefix pre && fact.key.hasSuffix suffix then
      let segment := extractMiddleSegment fact.key pre suffix
      if segment = [] then collected
      else match parse fact.value with
        | some value => collected.set segment value
        | none => collected
    else collected) ∅

section

variable (facts : List Fact)

def extractNodeMemoryCapacity : Map Int :=
  collectByMiddleSegment (fun value => some (parseResourceQuantity value))
    (lit "observed/node/") (lit "/capacity/memory") facts

def extractNodeMemoryAvailable : Map Int :=
  collectByMiddleSegment (fun value => some (parseResourceQuantity value))
    (lit "observed/node/") (lit "/available/memory") facts

def extractInstanceNodeMapping : Map Str :=
  collectByMiddleSegment some (lit "observed/instance/") (lit "/node") facts

def extractInstanceServiceMapping : Map Str :=
  collectByMiddleSegment some (lit "observed/instance/") (lit "/service") facts

def extractInstanceStates : Map Str :=
  facts.foldl (fun states fact =>
    if fact.key.hasPrefix (lit "observed/instance/") && fact.key.hasSuffix (lit "/state") then
      let instanceID := extractMiddleSegment fact.key (lit "observed/instance/") (lit "/state")
      if instanceID = [] then states
      else if fact.key.hasSuffix (lit "/node") then states
      else states.set instanceID fact.value
    else states) ∅

def extractServiceQoSClasses : Map Str :=
  collectByMiddleSegment some (lit "derived/service/") (lit "/qos_class") facts

def extractServiceMemoryRequests : Map Int :=
  collectByMiddleSegment (fun value => some (parseResourceQuantity value))
    (lit "desired/service/") (lit "/resources/memory") facts

def extractExistingNodePressure : Map Bool :=
  collectByMiddleSegment (fun _ => some true) (lit "derived/node/") (lit "/pressure") facts

def extractServicePrioritiesFromFacts : Map Int :=
  collectByMiddleSegment atoi? (lit "effective/service/") (lit "/priority") facts

end

variable (facts : List Fact)

theorem extractInstanceStates_eq : extractInstanceStates facts =
      collectByMiddleSegment some (lit "observed/instance/") (lit "/state") facts := by
  unfold extractInstanceStates collectByMiddleSegment
  congr 1
  funext states fact
  split
  next hmatch =>
    have hstate : lit "/state" <:+ fact.key := by
      simp only [Bool.and_eq_true, Str.hasSuffix, isSuffixOf_iff_suffix] at hmatch
      exact hmatch.2
    have hnode : fact.key.hasSuffix (lit "/node") = false := by
      by_contra hsuffix
      simp only [Bool.not_eq_false, Str.hasSuffix, isSuffixOf_iff_suffix] at hsuffix
      exact absurd (suffix_of_suffix_length_le hsuffix hstate (by decide)) (by decide)
    simp [hnode]
  next => rfl

/-! ## Deciding -/

def sortedNodeIDs (capacityMap availableMap : Map Int) : List Str :=
  ((capacityMap.keys ++ availableMap.keys).foldl
    (fun (seen : Map Bool) nodeID => seen.set nodeID true) ∅).sortedKeys

/-- The memory in use in percent of the capacity, in `int` arithmetic. -/
def calculateMemoryUtilizationPercent (capacityBytes availableBytes : Int) : Int :=
  let usedBytes := wrap64 (capacityBytes - availableBytes)
  if usedBytes < 0 then 0 else wrap64 ((wrap64 (usedBytes * 100)).tdiv capacityBytes)

/-- What one cycle knows about instances and services. -/
structure EvictionInputs where
  instanceNodes : Map Str
  instanceServices : Map Str
  instanceStates : Map Str
  serviceQoSClasses : Map Str
  serviceMemoryRequests : Map Int
  servicePriorities : Map Int

def buildEvictionCandidates (nodeID : Str) (inputs : EvictionInputs) : List EvictionCandidate :=
  inputs.instanceNodes.keys.filterMap (fun instanceID =>
    let serviceName := inputs.instanceServices.get instanceID []
    if inputs.instanceNodes.get instanceID [] ≠ nodeID then none
    else if inputs.instanceStates.get instanceID [] ≠ lit "running" then none
    else if serviceName = [] then none
    else some
      { instanceID := instanceID
        serviceName := serviceName
        qosPriorityValue := qosPriority (inputs.serviceQoSClasses.get serviceName [])
        servicePriority := inputs.servicePriorities.get serviceName 0
        memoryRequestBytes := inputs.serviceMemoryRequests.get serviceName 0 })

/-- The eviction order. Instance IDs are distinct, so it leaves no ties. -/
def candidateLess (first second : EvictionCandidate) : Bool :=
  if first.qosPriorityValue ≠ second.qosPriorityValue then
    decide (first.qosPriorityValue < second.qosPriorityValue)
  else if first.servicePriority ≠ second.servicePriority then
    decide (first.servicePriority < second.servicePriority)
  else decide (first.instanceID < second.instanceID)

/-- The candidates evicted until the projected utilization is below the soft threshold. -/
def evicted (capacityBytes : Int) : Nat → Int → List EvictionCandidate → List EvictionCandidate
  | 0, _, _ => []
  | _ + 1, _, [] => []
  | budget + 1, projectedAvailable, candidate :: rest =>
    if calculateMemoryUtilizationPercent capacityBytes projectedAvailable <
        softEvictionMemoryThresholdPercent then []
    else candidate :: evicted capacityBytes budget
      (wrap64 (projectedAvailable + candidate.memoryRequestBytes)) rest

def buildEvictionChanges (candidates : List EvictionCandidate)
    (capacityBytes availableBytes : Int) : List Change :=
  (evicted capacityBytes maxEvictionsPerCycle availableBytes candidates).map
    (fun candidate =>
      Change.put (keyDerivedInstanceControllerStopped candidate.instanceID) (lit "true"))

/-- The candidates on a node in eviction order. -/
def sortedEvictionCandidates (nodeID : Str) (inputs : EvictionInputs) : List EvictionCandidate :=
  sliceStable candidateLess (buildEvictionCandidates nodeID inputs)

def reconcileNodePressure (nodeID : Str)
    (utilizationPercent capacityBytes availableBytes : Int) (inputs : EvictionInputs)
    (existingPressure : Map Bool) : List Change :=
  let alreadyUnderPressure := existingPressure.has nodeID
  if utilizationPercent < softEvictionMemoryThresholdPercent then
    if alreadyUnderPressure then [Change.delete (keyDerivedNodePressure nodeID)] else []
  else if utilizationPercent < hardEvictionMemoryThresholdPercent then []
  else
    let changes := buildEvictionChanges (sortedEvictionCandidates nodeID inputs) capacityBytes
      availableBytes
    if alreadyUnderPressure then changes
    else changes ++ [Change.put (keyDerivedNodePressure nodeID) (lit "memory")]

/-- The inputs of a cycle, read from the facts. -/
def evictionInputs : EvictionInputs where
  instanceNodes := extractInstanceNodeMapping facts
  instanceServices := extractInstanceServiceMapping facts
  instanceStates := extractInstanceStates facts
  serviceQoSClasses := extractServiceQoSClasses facts
  serviceMemoryRequests := extractServiceMemoryRequests facts
  servicePriorities := extractServicePrioritiesFromFacts facts

/-- The changes for one node; without both quantities, or with a capacity of
zero, there are none. -/
def evictionNodeChanges (nodeCapacity nodeAvailable : Map Int) (inputs : EvictionInputs)
    (existingPressure : Map Bool) (nodeID : Str) : List Change :=
  match nodeCapacity.lookup nodeID, nodeAvailable.lookup nodeID with
  | some capacityBytes, some availableBytes =>
    if capacityBytes = 0 then []
    else reconcileNodePressure nodeID
      (calculateMemoryUtilizationPercent capacityBytes availableBytes)
      capacityBytes availableBytes inputs existingPressure
  | _, _ => []

variable {nodeID : Str} {existingPressure : Map Bool} {inputs : EvictionInputs}

/-- Below the soft threshold the marker goes, from the hard one on instances are evicted. -/
theorem mem_reconcileNodePressure {utilizationPercent capacityBytes availableBytes : Int}
    {change : Change} :
    change ∈ reconcileNodePressure nodeID utilizationPercent capacityBytes availableBytes inputs
        existingPressure ↔
      (utilizationPercent < softEvictionMemoryThresholdPercent ∧
          existingPressure.has nodeID = true ∧
          change = Change.delete (keyDerivedNodePressure nodeID)) ∨
        (hardEvictionMemoryThresholdPercent ≤ utilizationPercent ∧
          (change ∈ buildEvictionChanges (sortedEvictionCandidates nodeID inputs) capacityBytes
              availableBytes ∨
            (existingPressure.has nodeID = false ∧
              change = Change.put (keyDerivedNodePressure nodeID) (lit "memory")))) := by
  simp only [reconcileNodePressure, softEvictionMemoryThresholdPercent,
    hardEvictionMemoryThresholdPercent]
  cases existingPressure.has nodeID <;>
    rcases lt_or_ge utilizationPercent 80 with hsoft | hsoft <;>
    rcases lt_or_ge utilizationPercent 90 with hhard | hhard <;>
    simp [hsoft, hhard, not_lt.mpr] <;> omega

theorem mem_sortedNodeIDs {capacityMap availableMap : Map Int} :
    nodeID ∈ sortedNodeIDs capacityMap availableMap ↔
      nodeID ∈ capacityMap.keys ∨ nodeID ∈ availableMap.keys := by
  rw [sortedNodeIDs, Map.mem_sortedKeys, Map.mem_keys_foldl_set]
  simp

namespace EvictionController

def watch : List Str :=
  [scanObservedNodes, scanObservedInstances, scanDesiredServices, scanDerivedServices,
    scanEffectiveServices]

def reconcile : List Change :=
  let nodeCapacity := extractNodeMemoryCapacity facts
  let nodeAvailable := extractNodeMemoryAvailable facts
  (sortedNodeIDs nodeCapacity nodeAvailable).flatMap
    (evictionNodeChanges nodeCapacity nodeAvailable (evictionInputs facts)
      (extractExistingNodePressure facts))

end EvictionController

def evictionController : Controller Unit where
  name := lit "eviction"
  watch := EvictionController.watch
  reconcile := fun state facts => (.ok (EvictionController.reconcile facts), state)
  reconcileDelta := none
  executePostCommitOperations := none

end CCattler.Controllers
