import CCattler.Go.Time
import CCattler.Scheduler.Rebalance

/-! # The scheduler

One cycle places pending instances, preempts instances of lower priority for
those it could not place, keeps the facts about unplaced demand, and moves
instances off overloaded nodes.
-/

namespace CCattler.Scheduler

open Go Store CCattler.Types Controllers

structure SchedulerState where
  firstPendingSeenAt : Option Time

structure SchedulerEnvironment where
  placementGracePeriod : Int
  now : Time
  codec : JSONCodec UnplacedDemandRequirements
  overloadedOrder : (nodeLoad : Map Int) → SliceSort (overloadLess nodeLoad)

def watch : List Str :=
  [scanPlacements, scanObservedNodes, scanObservedInstances, scanDesiredServices,
    scanDesiredGroups, scanDerivedSchedulerUnplaced, scanObservedVolumes]

def clusterView (facts : List Fact) : ClusterView where
  nodes := extractNodeInfoFromFacts facts
  instances := markInstancesStillStarting (extractInstanceInfoFromFacts facts)
    (extractServicesWithStartupProbe facts)
  placements := extractPlacementsFromFacts facts
  serviceResources := extractServiceResourcesFromFacts facts
  placementConstraints := applyVolumeHomeNodeConstraints (extractPlacementConstraints facts) facts
  serviceToGroup := extractServiceGroupMemberships facts
  servicePriorities := extractServicePriorities facts
  statefulServices := extractStatefulServices facts

def shouldDeferInitialPlacement (environment : SchedulerEnvironment) (state : SchedulerState)
    (existingPlacements : Map Str) (unplaced : List Str) : Bool × SchedulerState :=
  -- one placement anywhere is enough to leave the grace period and to forget its start
  if existingPlacements.len > 0 ∨ unplaced = [] then (false, ⟨none⟩)
  else if environment.placementGracePeriod ≤ 0 then (false, state)
  else match state.firstPendingSeenAt with
    | none => (true, ⟨some environment.now⟩)
    | some seenAt =>
      if environment.now.sub seenAt < environment.placementGracePeriod then (true, state)
      else (false, ⟨none⟩)

def collectPlacedInstanceIDs (changes : List Change) : Map Bool :=
  changes.foldl (fun placed change =>
    let instanceID := change.key.trimPrefix scanPlacements
    if change.type = .put ∧ change.key.hasPrefix scanPlacements = true ∧
        Str.containsByte instanceID Str.slash = false then placed.set instanceID true
    else placed) ∅

structure Decisions where
  placed : List Placement
  preempted : List Str
  moved : List RebalanceMove

section

variable (environment : SchedulerEnvironment) (state : SchedulerState) (facts : List Fact)

def decisions : Decisions × SchedulerState :=
  let view := clusterView facts
  let unplaced := findUnplacedPendingInstances view.instances view.placements
  let (deferred, next) := shouldDeferInitialPlacement environment state view.placements unplaced
  let placed := if deferred then [] else attemptPlacements view unplaced
  let placedInThisCycle := collectPlacedInstanceIDs (placed.flatMap Placement.changes)
  ({ placed := placed
     preempted := attemptPreemptions view unplaced placedInThisCycle
     moved := rebalancePlacedInstances environment.overloadedOrder view placedInThisCycle
       (extractRebalancePinnedServices facts view.statefulServices) }, next)

def reconcile : List Change × SchedulerState :=
  let view := clusterView facts
  let unplaced := findUnplacedPendingInstances view.instances view.placements
  let (decided, next) := decisions environment state facts
  let placementChanges := decided.placed.flatMap Placement.changes
  let placedInThisCycle := collectPlacedInstanceIDs placementChanges
  (placementChanges ++ decided.preempted.map preemptionChange ++
      emitUnplacedDemandFacts environment.codec view unplaced placedInThisCycle ++
      cleanupStaleUnplacedFacts facts view.placements placedInThisCycle ++
      decided.moved.flatMap RebalanceMove.changes, next)

end

def scheduler (environment : SchedulerEnvironment) : Controller SchedulerState where
  name := lit "scheduler"
  watch := watch
  reconcile := fun state facts =>
    let (changes, next) := reconcile environment state facts
    (.ok changes, next)
  reconcileDelta := none
  executePostCommitOperations := none

end CCattler.Scheduler
