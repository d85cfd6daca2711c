import CCattler.Controllers.Helpers
import CCattler.Controllers.Runner

/-! # The instance controller

Creates and stops instances until each service has its number. Stateful services go by
their ordinals; creations are shared fairly within a budget.
-/

namespace CCattler.Controllers

open Go Store CCattler.Types

def maxInstanceControllerChangesPerCycle : Nat := 58

/-! ## Reading the facts -/

structure EffectiveServices where
  desiredCounts : Map Int
  statefulServices : Map Bool
  perNodeServices : Map Bool

def parseEffectiveServiceFacts (facts : List Fact) : EffectiveServices :=
  (factsWithPrefix facts scanEffectiveServices).foldl (fun services fact =>
    match splitFactKeyIntoEntityAndSuffix fact.key scanEffectiveServices with
    | some (serviceName, suffix) =>
      if suffix = lit "instances" then
        match atoi? fact.value with
        | some count =>
          { services with desiredCounts := services.desiredCounts.set serviceName count }
        | none => services
      else if suffix = lit "stateful" then
        { services with statefulServices :=
            services.statefulServices.set serviceName (fact.value = lit "true") }
      else if suffix = lit "placement_mode" then
        { services with perNodeServices :=
            services.perNodeServices.set serviceName (fact.value = lit "per-node") }
      else services
    | none => services) ⟨∅, ∅, ∅⟩

def extractSurgeAllowances (facts : List Fact) : Map Int :=
  (factsWithPrefix facts scanDerivedServices).foldl (fun allowances fact =>
    match splitFactKeyIntoEntityAndSuffix fact.key scanDerivedServices with
    | some (serviceName, suffix) =>
      if suffix = lit "rollout/surge_allowance" then
        match atoi? fact.value with
        | some allowance => allowances.set serviceName allowance
        | none => allowances
      else allowances
    | none => allowances) ∅

def addSurgeAllowances (desiredCounts surgeAllowances : Map Int) : Map Int :=
  surgeAllowances.keys.foldl (fun counts serviceName =>
    counts.update serviceName 0
      (fun count => wrap64 (count + surgeAllowances.get serviceName 0))) desiredCounts

def buildInstanceMapsFromFields (fieldsByInstanceID : Map InstanceFields) :
    Map InstanceState × Map Str :=
  fieldsByInstanceID.keys.foldl (fun (maps : Map InstanceState × Map Str) instanceID =>
    let fields := fieldsByInstanceID.get instanceID ∅
    let serviceName := fields.field "service"
    (maps.1.set instanceID (effectiveInstanceState fields),
      if serviceName ≠ [] then maps.2.set instanceID serviceName else maps.2)) (∅, ∅)

def buildActiveInstanceIDsByService (serviceByInstanceID : Map Str)
    (stateByInstanceID : Map InstanceState) : Map (List Str) :=
  serviceByInstanceID.sortedKeys.foldl (fun activeInstanceIDs instanceID =>
    if stateByInstanceID.get instanceID [] = instanceStopped then activeInstanceIDs
    else activeInstanceIDs.update (serviceByInstanceID.get instanceID []) []
      (fun instanceIDs => instanceIDs ++ [instanceID])) ∅

/-! ## Ordinals -/

def parseExistingOrdinals (serviceName : Str) (activeIDs : List Str) : List Int :=
  (activeIDs.filterMap (fun instanceID =>
    let namePart := serviceName ++ lit "-"
    if instanceID.hasPrefix namePart then atoi? (instanceID.trimPrefix namePart)
    else none)).insertionSort (· ≤ ·)

/-- `fmt.Sprintf("%s-%d", serviceName, ordinal)`. -/
def ordinalInstanceID (serviceName : Str) (ordinal : Int) : Str :=
  serviceName ++ lit "-" ++ itoa ordinal

def createStatefulInstance (serviceName : Str) (ordinal : Int)
    (fieldsByInstanceID : Map InstanceFields) : List Change :=
  let instanceID := ordinalInstanceID serviceName ordinal
  let previousFields := fieldsByInstanceID.get instanceID ∅
  groupedChanges (lit "instance-create/" ++ instanceID) ([.put (keyObservedInstance instanceID) [],
        .put (keyObservedInstanceService instanceID) serviceName,
        .put (keyObservedInstanceState instanceID) instancePending,
        .put (keyObservedInstanceOrdinal instanceID) (itoa ordinal)] ++
      (if previousFields.field "controller_stopped" = lit "true" then
        [.delete (keyDerivedInstanceControllerStopped instanceID)] else []) ++
      (if previousFields.field "node_failure" = lit "true" then
        [.delete (keyDerivedInstanceNodeFailure instanceID)] else []))

/-- The first missing ordinal is created, unless one below it does not run. -/
def createNextStatefulInstanceFrom (serviceName : Str) (ordinals : List Int)
    (stateByInstanceID : Map InstanceState) (fieldsByInstanceID : Map InstanceFields) :
    Nat → Int → List Change
  | 0, _ => []
  | remaining + 1, ordinal =>
    if ordinal ∈ ordinals then
      if stateByInstanceID.get (ordinalInstanceID serviceName ordinal) [] ≠ instanceRunning
      then []
      else createNextStatefulInstanceFrom serviceName ordinals stateByInstanceID
        fieldsByInstanceID remaining (ordinal + 1)
    else createStatefulInstance serviceName ordinal fieldsByInstanceID

def createNextStatefulInstance (serviceName : Str) (wantCount : Int)
    (existingOrdinals : List Int) (stateByInstanceID : Map InstanceState)
    (fieldsByInstanceID : Map InstanceFields) : List Change :=
  createNextStatefulInstanceFrom serviceName existingOrdinals stateByInstanceID
    fieldsByInstanceID wantCount.toNat 0

/-! ## Stopping -/

def stopMarkers (instanceIDs : List Str) : List Change :=
  instanceIDs.map (fun instanceID =>
    Change.put (keyDerivedInstanceControllerStopped instanceID) (lit "true"))

def stopHighestOrdinalInstances (serviceName : Str) (existingOrdinals : List Int)
    (count : Int) : List Change :=
  stopMarkers ((existingOrdinals.reverse.take count.toNat).map (ordinalInstanceID serviceName))

def selectInstancesForRemoval (pendingIDs runningIDs : List Str) (count : Int) : List Str :=
  (pendingIDs ++ runningIDs).take count.toNat

def markExcessStatelessInstancesAsStopped (instanceIDs : List Str) (states : Map InstanceState)
    (count : Int) : List Change :=
  let isPending := fun instanceID => decide (states.get instanceID [] = instancePending)
  stopMarkers (selectInstancesForRemoval (instanceIDs.filter isPending)
    (instanceIDs.filter (fun instanceID => !isPending instanceID)) count)

def markPerNodeExcessInstancesAsStopped (activeIDs : List Str)
    (fieldsByInstanceID : Map InstanceFields) (count : Int) : List Change :=
  let nodeFailed := fun instanceID =>
    decide ((fieldsByInstanceID.get instanceID ∅).field "node_failure" = lit "true")
  let isPending := fun instanceID =>
    decide ((fieldsByInstanceID.get instanceID ∅).field "state" = instancePending)
  stopMarkers ((activeIDs.filter nodeFailed ++
    activeIDs.filter (fun instanceID => !nodeFailed instanceID && isPending instanceID) ++
    activeIDs.filter (fun instanceID => !nodeFailed instanceID && !isPending instanceID)).take
      count.toNat)

structure InstanceInputs where
  desiredCounts : Map Int
  statefulServices : Map Bool
  perNodeServices : Map Bool
  fieldsByInstanceID : Map InstanceFields
  stateByInstanceID : Map InstanceState
  activeInstanceIDs : Map (List Str)

def scaleDownService (inputs : InstanceInputs) (serviceName : Str) : List Change :=
  let wantCount := inputs.desiredCounts.get serviceName 0
  let activeIDs := inputs.activeInstanceIDs.get serviceName []
  if (activeIDs.length : Int) > wantCount then
    let excessCount := wrap64 (activeIDs.length - wantCount)
    if inputs.perNodeServices.get serviceName false then
      markPerNodeExcessInstancesAsStopped activeIDs inputs.fieldsByInstanceID excessCount
    else if inputs.statefulServices.get serviceName false then
      stopHighestOrdinalInstances serviceName (parseExistingOrdinals serviceName activeIDs)
        excessCount
    else markExcessStatelessInstancesAsStopped activeIDs inputs.stateByInstanceID excessCount
  else []

def reconcileScaleDowns (inputs : InstanceInputs) : List Change :=
  inputs.desiredCounts.sortedKeys.flatMap (scaleDownService inputs)

/-! ## Creating -/

structure ServiceDeficit where
  serviceName : Str
  deficit : Int
  deriving DecidableEq, Repr

def computeServiceDeficits (inputs : InstanceInputs) : List ServiceDeficit :=
  inputs.desiredCounts.sortedKeys.filterMap (fun serviceName =>
    let wantCount := inputs.desiredCounts.get serviceName 0
    let activeIDs := inputs.activeInstanceIDs.get serviceName []
    if (activeIDs.length : Int) ≥ wantCount then none
    else if inputs.statefulServices.get serviceName false then
      -- no deficit while an existing ordinal below the next one is not running
      if createNextStatefulInstance serviceName wantCount
          (parseExistingOrdinals serviceName activeIDs) inputs.stateByInstanceID
          inputs.fieldsByInstanceID = [] then none
      else some ⟨serviceName, 1⟩
    else some ⟨serviceName, wantCount - activeIDs.length⟩)

def largestUnmetDemand (deficits : List ServiceDeficit) (allocated : List Int) : Option Nat × Int :=
  ((deficits.zip allocated).zipIdx).foldl (fun best entry =>
    let unmetDemand := entry.1.1.deficit - entry.1.2
    if unmetDemand > best.2 ∨ (unmetDemand = best.2 ∧ unmetDemand > 0) then
      (some entry.2, unmetDemand)
    else best) (none, 0)

def allocateRemainder (deficits : List ServiceDeficit) : Nat → List Int → List Int
  | 0, allocated => allocated
  | remainingBudget + 1, allocated =>
    match (largestUnmetDemand deficits allocated).1 with
    | none => allocated
    | some bestIndex =>
      allocateRemainder deficits remainingBudget
        (allocated.modify bestIndex (fun count => count + 1))

def allocateBudget (deficits : List ServiceDeficit) (budget : Int) : List Int :=
  let baseShare := budget.tdiv deficits.length
  let allocated := deficits.map (fun entry => min baseShare entry.deficit)
  allocateRemainder deficits (budget - allocated.sum).toNat allocated

def buildActiveIDsFromFields (serviceName : Str) (fieldsByInstanceID : Map InstanceFields)
    (stateByInstanceID : Map InstanceState) : List Str :=
  sortStrings (fieldsByInstanceID.keys.filter (fun instanceID =>
    decide ((fieldsByInstanceID.get instanceID ∅).field "service" = serviceName) &&
      decide (stateByInstanceID.get instanceID [] ≠ instanceStopped)))

section

variable {Source : Type} (newID : IDFunc Source)

def createPendingInstances (service : Str) : Nat → Source → List Change × Source
  | 0, source => ([], source)
  | count + 1, source =>
    let (instanceID, source) := newID source
    let created := groupedChanges (lit "instance-create/" ++ instanceID)
      [.put (keyObservedInstance instanceID) [],
        .put (keyObservedInstanceService instanceID) service,
        .put (keyObservedInstanceState instanceID) instancePending]
    let (rest, source) := createPendingInstances service count source
    (created ++ rest, source)

def createForDeficit (inputs : InstanceInputs) (entry : ServiceDeficit) (count : Int)
    (source : Source) : List Change × Source :=
  if count ≤ 0 then ([], source)
  else if inputs.statefulServices.get entry.serviceName false then
    let existingOrdinals := parseExistingOrdinals entry.serviceName
      (buildActiveIDsFromFields entry.serviceName inputs.fieldsByInstanceID
        inputs.stateByInstanceID)
    (createNextStatefulInstance entry.serviceName (existingOrdinals.length + count)
      existingOrdinals inputs.stateByInstanceID inputs.fieldsByInstanceID, source)
  else createPendingInstances newID entry.serviceName count.toNat source

def allocateCreationsFairly (inputs : InstanceInputs) (deficits : List ServiceDeficit)
    (budget : Int) (source : Source) : List Change × Source :=
  if deficits = [] ∨ budget ≤ 0 then ([], source)
  else (deficits.zip (allocateBudget deficits budget)).foldl (fun acc entry =>
    let (created, source) := createForDeficit newID inputs entry.1 entry.2 acc.2
    (acc.1 ++ created, source)) ([], source)

end

namespace InstanceController

def watch : List Str :=
  [scanEffectiveServices, scanObservedInstances, scanDerivedInstances, scanDerivedServices]

def inputs (facts : List Fact) : InstanceInputs :=
  let services := parseEffectiveServiceFacts facts
  let fieldsByInstanceID := parseInstanceFieldsFromFacts facts
  let (stateByInstanceID, serviceByInstanceID) := buildInstanceMapsFromFields fieldsByInstanceID
  { desiredCounts := addSurgeAllowances services.desiredCounts (extractSurgeAllowances facts)
    statefulServices := services.statefulServices
    perNodeServices := services.perNodeServices
    fieldsByInstanceID := fieldsByInstanceID
    stateByInstanceID := stateByInstanceID
    activeInstanceIDs := buildActiveInstanceIDsByService serviceByInstanceID stateByInstanceID }

def reconcile {Source : Type} (newID : IDFunc Source) (maxCreationsPerCycle : Int)
    (source : Source) (facts : List Fact) : Except GroupTooLarge (List Change) × Source :=
  let inputs := inputs facts
  let (created, source) := allocateCreationsFairly newID inputs (computeServiceDeficits inputs)
    maxCreationsPerCycle source
  (capOutputChanges maxInstanceControllerChangesPerCycle (reconcileScaleDowns inputs ++ created),
    source)

end InstanceController

end CCattler.Controllers
