import CCattler.Controllers.Helpers
import CCattler.Controllers.Runner
import CCattler.Go.Time

/-! # The failure controller

Replaces failed instances, drains running ones that are no longer live and
replaces them after a grace period, and counts the failures of each service so
that replacements back off.
-/

namespace CCattler.Controllers

open Go Store CCattler.Types

structure CrashLoopCounter where
  count : Int
  since : Int
  deriving DecidableEq, Repr

def crashLoopBaseDelaySeconds : Int := 10

def crashLoopMaxDelaySeconds : Int := 300

def maxFailureControllerChangesPerCycle : Nat := 58

/-- The settings of a `FailureController`. -/
structure FailureSettings where
  drainGracePeriod : Int
  maxReplacementsPerCycle : Int
  maxDrainsPerCycle : Int
  maxRecoveriesPerCycle : Int
  circuitBreakerThreshold : Int
  circuitBreakerCooldown : Int
  deriving DecidableEq, Repr

/-- The settings of `NewFailureController`. -/
def FailureSettings.new : FailureSettings where
  drainGracePeriod := 5 * second
  maxReplacementsPerCycle := 14
  maxDrainsPerCycle := 10
  maxRecoveriesPerCycle := 10
  circuitBreakerThreshold := 10
  circuitBreakerCooldown := 600 * second

/-- IDs, the time, the codec of the counters, and the order of two unsorted maps. -/
structure FailureEnvironment (Source : Type) where
  newID : IDFunc Source
  now : Time
  codec : JSONCodec CrashLoopCounter
  replacedOrder : IterationOrder
  counterOrder : IterationOrder

structure FailureCycle (Source : Type) where
  replacements : Int
  drains : Int
  recoveries : Int
  replacedServices : Map Int
  source : Source

/-- The delay in nanoseconds; the product is exact up to the maximum. -/
def calculateCrashLoopBackoff (crashCount : Int) : Int :=
  let exponent := wrap64 (crashCount - 1)
  let delaySeconds :=
    if exponent ≥ 5 then crashLoopMaxDelaySeconds
    else if exponent ≥ 0 then crashLoopBaseDelaySeconds * 2 ^ exponent.toNat
    else if exponent ≥ -3 then crashLoopBaseDelaySeconds / 2 ^ (-exponent).toNat
    else 0
  delaySeconds * second

def parseCrashLoopCounters (codec : JSONCodec CrashLoopCounter) (facts : List Fact) :
    Map CrashLoopCounter :=
  (factsWithPrefix facts scanDerivedCrashLoops).foldl (fun counters fact =>
    match codec.unmarshal fact.value with
    | some counter => counters.set (fact.key.trimPrefix scanDerivedCrashLoops) counter
    | none => counters) ∅

/-! ## The changes of one instance -/

def beginDrain (instanceID : Str) (now : Time) : List Change :=
  groupedChanges (lit "drain/" ++ instanceID)
    [.put (keyDerivedInstanceDrainReadiness instanceID) readinessProbeNotReady,
      .put (keyDerivedInstanceDrainSince instanceID) (itoa now.unixMilli)]

def clearDrainState (instanceID : Str) : List Change :=
  groupedChanges (lit "drain-clear/" ++ instanceID)
    [.delete (keyDerivedInstanceDrainReadiness instanceID),
      .delete (keyDerivedInstanceDrainSince instanceID)]

/-- The changes of `stopAndReplace` for a generated ID. -/
def replacementChanges (instanceID replacementID serviceName : Str) : List Change :=
  groupedChanges (lit "replace/" ++ instanceID)
    [.put (keyDerivedInstanceControllerStopped instanceID) (lit "true"),
      .put (keyObservedInstance replacementID) [],
      .put (keyObservedInstanceService replacementID) serviceName,
      .put (keyObservedInstanceState replacementID) instancePending]

section

variable {Source : Type} (settings : FailureSettings) (environment : FailureEnvironment Source)

/-- Replace an instance if the cycle may replace another one. -/
def stopAndReplace (countsAsCrash : Bool) (instanceID serviceName : Str)
    (cycle : FailureCycle Source) : List Change × FailureCycle Source :=
  if cycle.replacements ≥ settings.maxReplacementsPerCycle then ([], cycle)
  else
    let (replacementID, source) := environment.newID cycle.source
    (replacementChanges instanceID replacementID serviceName, { cycle with
        replacements := cycle.replacements + 1
        replacedServices :=
          if countsAsCrash then cycle.replacedServices.update serviceName 0 (fun n => n + 1)
          else cycle.replacedServices
        source := source })

def replacementDelayed (crashLoopCounters : Map CrashLoopCounter) (serviceName : Str) : Bool :=
  match crashLoopCounters.lookup serviceName with
  | none => false
  | some counter =>
    let retryDelay :=
      if counter.count ≥ settings.circuitBreakerThreshold then settings.circuitBreakerCooldown
      else calculateCrashLoopBackoff counter.count
    environment.now.beforeMilli counter.since retryDelay

def handleUnhealthyLiveness (instanceID serviceName drainSince : Str)
    (cycle : FailureCycle Source) : List Change × FailureCycle Source :=
  if drainSince = [] then
    if cycle.drains ≥ settings.maxDrainsPerCycle then ([], cycle)
    else (beginDrain instanceID environment.now, { cycle with drains := cycle.drains + 1 })
  else
    match atoi? drainSince with
    -- an unreadable start of the drain does not delay the replacement
    | none => stopAndReplace settings environment false instanceID serviceName cycle
    | some drainStartMillis =>
      if environment.now.subMilli drainStartMillis ≥ settings.drainGracePeriod then
        stopAndReplace settings environment false instanceID serviceName cycle
      else ([], cycle)

def processInstanceForRecovery (crashLoopCounters : Map CrashLoopCounter) (instanceID : Str)
    (fields : InstanceFields) (cycle : FailureCycle Source) :
    List Change × FailureCycle Source :=
  let instanceState := effectiveInstanceState fields
  let serviceName := fields.field "service"
  let drainSince := fields.field "drain_since"
  if serviceName = [] then ([], cycle)
  else if instanceState = instanceFailed then
    if replacementDelayed settings environment crashLoopCounters serviceName then ([], cycle)
    else stopAndReplace settings environment true instanceID serviceName cycle
  else if instanceState ≠ instanceRunning then ([], cycle)
  else if fields.field "probe/startup" = startupProbeFailed then
    stopAndReplace settings environment true instanceID serviceName cycle
  -- draining, but not reported unhealthy any more: the drain is taken back
  else if drainSince ≠ [] ∧ fields.field "probe/liveness" ≠ livenessProbeUnhealthy then
    if cycle.recoveries ≥ settings.maxRecoveriesPerCycle then ([], cycle)
    else (clearDrainState instanceID, { cycle with recoveries := cycle.recoveries + 1 })
  else if fields.field "probe/liveness" = livenessProbeUnhealthy then
    handleUnhealthyLiveness settings environment instanceID serviceName drainSince cycle
  else ([], cycle)

def processInstances (crashLoopCounters : Map CrashLoopCounter)
    (instanceFields : Map InstanceFields) :
    List Str → FailureCycle Source → List Change × FailureCycle Source
  | [], cycle => ([], cycle)
  | instanceID :: rest, cycle =>
    let fields := instanceFields.get instanceID ∅
    if fields.field "job_owner" ≠ [] then
      processInstances crashLoopCounters instanceFields rest cycle
    else
      let (changes, cycle) := processInstanceForRecovery settings environment crashLoopCounters
        instanceID fields cycle
      let (others, cycle) := processInstances crashLoopCounters instanceFields rest cycle
      (changes ++ others, cycle)

def emitCrashLoopCounters (crashLoopCounters : Map CrashLoopCounter)
    (replacedServices : Map Int) : List Change :=
  (environment.replacedOrder.visit replacedServices.keys).map (fun serviceName =>
    let existingCount := (crashLoopCounters.get serviceName ⟨0, 0⟩).count
    Change.put (keyDerivedCrashLoopCounter serviceName) ((environment.codec.marshal
        ⟨wrap64 (existingCount + replacedServices.get serviceName 0),
          environment.now.unixMilli⟩).getD []))

def failedServiceNames (instanceFields : Map InstanceFields) : Map Bool :=
  instanceFields.sortedKeys.foldl (fun failed instanceID =>
    let fields := instanceFields.get instanceID ∅
    if fields.field "job_owner" = [] ∧ effectiveInstanceState fields = instanceFailed then
      failed.set (fields.field "service") true
    else failed) ∅

def resetCrashLoopCounters (crashLoopCounters : Map CrashLoopCounter)
    (failed : Map Bool) : List Change :=
  ((environment.counterOrder.visit crashLoopCounters.keys).filter
    (fun serviceName => !(failed.get serviceName false))).map
      (fun serviceName => Change.delete (keyDerivedCrashLoopCounter serviceName))

namespace FailureController

def watch : List Str := [scanObservedInstances, scanDerivedInstances, scanDerivedCrashLoops]

def proposedChanges (source : Source) (facts : List Fact) : List Change × Source :=
  let instanceFields := parseInstanceFieldsFromFacts facts
  let crashLoopCounters := parseCrashLoopCounters environment.codec facts
  let (changes, cycle) := processInstances settings environment crashLoopCounters instanceFields
    instanceFields.sortedKeys ⟨0, 0, 0, ∅, source⟩
  (changes ++ emitCrashLoopCounters environment crashLoopCounters cycle.replacedServices ++
      resetCrashLoopCounters environment crashLoopCounters (failedServiceNames instanceFields),
    cycle.source)

def reconcile (source : Source) (facts : List Fact) : Except GroupTooLarge (List Change) × Source :=
  let (changes, source) := proposedChanges settings environment source facts
  (capOutputChanges maxFailureControllerChangesPerCycle changes, source)

end FailureController

/-- The failure controller; its state is that of the ID generator. -/
def failureController (describe : GroupTooLarge → Str) : Controller Source where
  name := lit "failure"
  watch := FailureController.watch
  reconcile := fun source facts =>
    let (result, source) := FailureController.reconcile settings environment source facts
    (result.mapError describe, source)
  reconcileDelta := none
  executePostCommitOperations := none

/-! ## What the loop does -/

/-- What happens to one instance: a drain begins or ends, or it is replaced, as long as the
cycle may replace another one. -/
inductive Handled (instanceID : Str) (cycle : FailureCycle Source) :
    List Change × FailureCycle Source → Prop
  | nothing : Handled instanceID cycle ([], cycle)
  | drained (now : Time) (after : FailureCycle Source) :
    Handled instanceID cycle (beginDrain instanceID now, after)
  | recovered (after : FailureCycle Source) :
    Handled instanceID cycle (clearDrainState instanceID, after)
  | replaced (replacementID serviceName : Str) (after : FailureCycle Source)
    (h : cycle.replacements < settings.maxReplacementsPerCycle) :
    Handled instanceID cycle (replacementChanges instanceID replacementID serviceName, after)

end

variable {Source : Type} {settings : FailureSettings} {environment : FailureEnvironment Source}
  {crashLoopCounters : Map CrashLoopCounter} {instanceID : Str} {cycle : FailureCycle Source}

theorem stopAndReplace_handled (countsAsCrash : Bool) (serviceName : Str) :
    Handled settings instanceID cycle
      (stopAndReplace settings environment countsAsCrash instanceID serviceName cycle) := by
  unfold stopAndReplace
  split
  next => exact .nothing
  next hroom => exact .replaced _ _ _ (not_le.mp hroom)

theorem processInstanceForRecovery_handled (fields : InstanceFields) :
    Handled settings instanceID cycle (processInstanceForRecovery settings environment
      crashLoopCounters instanceID fields cycle) := by
  simp only [processInstanceForRecovery, handleUnhealthyLiveness]
  split_ifs
  any_goals first
    | exact .nothing
    | exact stopAndReplace_handled _ _
    | exact .recovered _
    | exact .drained _ _
  split
  · exact stopAndReplace_handled _ _
  · split_ifs
    · exact stopAndReplace_handled _ _
    · exact .nothing

theorem exists_of_mem_processInstances {instanceFields : Map InstanceFields} {change : Change}
    {instanceIDs : List Str} (h : change ∈ (processInstances settings environment
      crashLoopCounters instanceFields instanceIDs cycle).1) :
    ∃ instanceID cycle, change ∈ (processInstanceForRecovery settings environment
      crashLoopCounters instanceID (instanceFields.get instanceID ∅) cycle).1 := by
  induction instanceIDs generalizing cycle with
  | nil => cases h
  | cons first rest ih =>
    simp only [processInstances] at h
    split at h
    · exact ih h
    · exact (List.mem_append.mp h).elim (fun hfirst => ⟨first, cycle, hfirst⟩) ih

end CCattler.Controllers
