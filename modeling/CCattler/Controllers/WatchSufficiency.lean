import CCattler.Controllers.CapacityRequests
import CCattler.Controllers.Endpoint
import CCattler.Controllers.Failure
import CCattler.Controllers.Instance
import CCattler.Controllers.NodeFailure
import CCattler.Controllers.WatchedFacts

/-! # Are the watch lists sufficient?

Five of seven controllers read only below their watched prefixes. The eviction
controller and the cluster autoscaler also read facts that they do not watch.
-/

namespace CCattler.Controllers

open Go Store CCattler.Types List

/-! ## Footprints -/

/-- Two fact slices that agree below every prefix of a watch list. -/
def SameBelow (watch : List Str) (facts others : List Fact) : Prop :=
  ∀ pre ∈ watch, factsWithPrefix facts pre = factsWithPrefix others pre

theorem sameBelow_visible {watch : List Str} (hwatch : NonOverlapping watch) {facts : List Fact}
    (hsorted : KeySorted facts) : SameBelow watch (visible watch facts) facts := by
  intro pre hmem
  apply factsWithPrefix_visible hsorted hmem
  rintro rfl
  exact hwatch.1 hmem

section

variable {facts others : List Fact}

theorem collectValuesBySuffix_congr {ν : Type} (parse : Str → ν) {pre : Str}
    (h : factsWithPrefix facts pre = factsWithPrefix others pre) (matchSuffix : Str) :
    collectValuesBySuffix parse facts pre matchSuffix =
      collectValuesBySuffix parse others pre matchSuffix := by
  rw [collectValuesBySuffix, h, collectValuesBySuffix]

/-- The fields read the two instance scans only. -/
theorem parseInstanceFieldsFromFacts_congr
    (hobserved : factsWithPrefix facts scanObservedInstances =
      factsWithPrefix others scanObservedInstances)
    (hderived : factsWithPrefix facts scanDerivedInstances =
      factsWithPrefix others scanDerivedInstances) :
    parseInstanceFieldsFromFacts facts = parseInstanceFieldsFromFacts others := by
  simp only [parseInstanceFieldsFromFacts, foldl_cons, foldl_nil, addInstanceFields,
    hobserved, hderived]

variable (h : SameBelow watch facts others)
include h

theorem EndpointController.reconcile_congr : reconcile facts = reconcile others := by
  simp only [SameBelow, watch, forall_mem_cons] at h
  obtain ⟨hinstances, hnodes, hendpoints, hservices, hderived, -⟩ := h
  simp only [reconcile, inputs, extractServiceExposedPorts, detectServicesWithReadinessProbe,
    parseNodeAdvertiseAddresses, collectStringValuesBySuffix, parseExistingEndpoints,
    parseInstanceFieldsFromFacts_congr hinstances hderived,
    collectValuesBySuffix_congr _ hnodes, hendpoints, hservices]

theorem DrainController.reconcile_congr : reconcile facts = reconcile others := by
  simp only [SameBelow, watch, forall_mem_cons] at h
  obtain ⟨hnodes, hplacements, hinstances, hderived, hservices, hmarkers, -⟩ := h
  simp only [reconcile, inputs, parseDrainingNodes, parsePlacementsByNode, parseInstanceStates,
    parseInstanceServices, parseDisruptionBudgets, parseDesiredInstanceCounts,
    parseDrainEvictionMarkers, parseDrainCompleteMarkers, collectStringValuesBySuffix,
    collectIntValuesBySuffix, parseInstanceFieldsFromFacts_congr hinstances hderived,
    collectValuesBySuffix_congr _ hinstances, collectValuesBySuffix_congr _ hservices,
    hnodes, hplacements, hservices, hmarkers]

theorem InstanceController.reconcile_congr {Source : Type} (newID : IDFunc Source)
    (maxCreationsPerCycle : Int) (source : Source) :
    reconcile newID maxCreationsPerCycle source facts =
      reconcile newID maxCreationsPerCycle source others := by
  simp only [SameBelow, watch, forall_mem_cons] at h
  obtain ⟨heffective, hinstances, hderived, hservices, -⟩ := h
  have hinputs : inputs facts = inputs others := by
    simp only [inputs, parseEffectiveServiceFacts, extractSurgeAllowances,
      parseInstanceFieldsFromFacts_congr hinstances hderived, heffective, hservices]
  rw [reconcile, hinputs, reconcile]

theorem FailureController.reconcile_congr {Source : Type} (settings : FailureSettings)
    (environment : FailureEnvironment Source) (source : Source) :
    reconcile settings environment source facts = reconcile settings environment source others := by
  simp only [SameBelow, watch, forall_mem_cons] at h
  obtain ⟨hinstances, hderived, hcounters, -⟩ := h
  simp only [reconcile, proposedChanges, parseCrashLoopCounters,
    parseInstanceFieldsFromFacts_congr hinstances hderived, hcounters]

theorem NodeFailureController.reconcile_congr (settings : NodeFailureSettings)
    (currentTime : Time) :
    reconcile settings currentTime facts = reconcile settings currentTime others := by
  simp only [SameBelow, watch, forall_mem_cons] at h
  obtain ⟨hleases, hnodes, hinstances, hderived, hplacements, -⟩ := h
  have hplaced : parsePlacementsByNode facts = parsePlacementsByNode others := by
    rw [parsePlacementsByNode, hplacements, parsePlacementsByNode]
  have hmark : markInstancesOnUnreachableNodesAsFailed facts =
      markInstancesOnUnreachableNodesAsFailed others := by
    funext unreachableNodeSet maxChanges
    unfold markInstancesOnUnreachableNodesAsFailed
    rw [hplaced, parseInstanceFieldsFromFacts_congr hinstances hderived]
  have hcleanup : cleanupStaleNodeFailureMarkers facts =
      cleanupStaleNodeFailureMarkers others := by
    funext unreachableNodeSet maxChanges
    unfold cleanupStaleNodeFailureMarkers
    rw [hplaced, hderived]
  simp only [reconcile, parseNodeLeaseTimestamps, parseCurrentNodeStates,
    collectStringValuesBySuffix, collectValuesBySuffix_congr _ hnodes, hleases, hmark, hcleanup]

end

/-! ## Eviction -/

namespace EvictionController

variable {facts : List Fact}

/-- Every node with a pressure marker and known memory is between the thresholds. -/
def WatchSuffices (facts : List Fact) : Prop :=
  ∀ nodeID capacityBytes availableBytes,
    (extractExistingNodePressure facts).has nodeID = true →
    (extractNodeMemoryCapacity facts).lookup nodeID = some capacityBytes →
    (extractNodeMemoryAvailable facts).lookup nodeID = some availableBytes →
    capacityBytes ≠ 0 →
    softEvictionMemoryThresholdPercent ≤
        calculateMemoryUtilizationPercent capacityBytes availableBytes ∧
      calculateMemoryUtilizationPercent capacityBytes availableBytes <
        hardEvictionMemoryThresholdPercent

end EvictionController

variable {change : Change} {existingPressure : Map Bool}

theorem node_of_mem_reconcileNodePressure {inputs : EvictionInputs} {nodeID other : Str}
    {utilizationPercent capacityBytes availableBytes : Int}
    (h : change ∈ reconcileNodePressure nodeID utilizationPercent capacityBytes availableBytes
      inputs existingPressure) (hkey : change.key = keyDerivedNodePressure other) :
    nodeID = other := by
  have hapart : Apart scanDerivedInstances scanDerivedNodes := by decide
  rcases mem_reconcileNodePressure.mp h with ⟨-, -, rfl⟩ | ⟨-, hevict | ⟨-, rfl⟩⟩
  · exact fieldKey_entity_injective hkey
  · obtain ⟨candidate, -, rfl⟩ := mem_map.mp hevict
    exact absurd hkey (hapart.fieldKey_ne _ _ _ _)
  · exact fieldKey_entity_injective hkey

namespace EvictionController

variable {facts : List Fact}

theorem mem_changesUnder_pressure {nodeID : Str} {capacityBytes availableBytes : Int}
    (hcapacity : (extractNodeMemoryCapacity facts).lookup nodeID = some capacityBytes)
    (havailable : (extractNodeMemoryAvailable facts).lookup nodeID = some availableBytes)
    (hnonzero : capacityBytes ≠ 0) (hkey : change.key = keyDerivedNodePressure nodeID) :
    change ∈ changesUnder facts existingPressure ↔
      change ∈ reconcileNodePressure nodeID
        (calculateMemoryUtilizationPercent capacityBytes availableBytes) capacityBytes
        availableBytes (evictionInputs facts) existingPressure := by
  rw [mem_changesUnder]
  constructor
  · rintro ⟨_, _, _, hcapacity', havailable', -, hmem⟩
    obtain rfl := node_of_mem_reconcileNodePressure hmem hkey
    obtain rfl := Option.some.inj (hcapacity'.symm.trans hcapacity)
    obtain rfl := Option.some.inj (havailable'.symm.trans havailable)
    exact hmem
  · exact fun hmem => ⟨nodeID, _, _, hcapacity, havailable, hnonzero, hmem⟩

/-- A node without a marker, or between the thresholds, is treated alike with
and without the markers. -/
theorem evictionNodeChanges_eq_of_suffices (h : WatchSuffices facts) (nodeID : Str) :
    evictionNodeChanges (extractNodeMemoryCapacity facts) (extractNodeMemoryAvailable facts)
        (evictionInputs facts) ∅ nodeID =
      evictionNodeChanges (extractNodeMemoryCapacity facts) (extractNodeMemoryAvailable facts)
        (evictionInputs facts) (extractExistingNodePressure facts) nodeID := by
  unfold evictionNodeChanges
  split
  next capacityBytes availableBytes hcapacity havailable =>
    split
    next => rfl
    next hnonzero =>
      cases hmarker : (extractExistingNodePressure facts).has nodeID with
      | false => simp only [reconcileNodePressure, Map.has_empty, hmarker]
      | true =>
        obtain ⟨hsoft, hhard⟩ := h nodeID _ _ hmarker hcapacity havailable hnonzero
        simp only [reconcileNodePressure, if_neg (not_lt.mpr hsoft), if_pos hhard]
  next => rfl

theorem reconcile_visible_iff :
    reconcile (visible watch facts) = reconcile facts ↔ WatchSuffices facts := by
  rw [reconcile_visible, show reconcile facts =
    changesUnder facts (extractExistingNodePressure facts) from rfl]
  constructor
  · intro heq nodeID capacityBytes availableBytes hmarker hcapacity havailable hnonzero
    have hempty : (∅ : Map Bool).has nodeID = false := Map.has_empty nodeID
    have hiff : ∀ change : Change, change.key = keyDerivedNodePressure nodeID →
        (change ∈ reconcileNodePressure nodeID
            (calculateMemoryUtilizationPercent capacityBytes availableBytes) capacityBytes
            availableBytes (evictionInputs facts) ∅ ↔
          change ∈ reconcileNodePressure nodeID
            (calculateMemoryUtilizationPercent capacityBytes availableBytes) capacityBytes
            availableBytes (evictionInputs facts) (extractExistingNodePressure facts)) := by
      intro change hkey
      rw [← mem_changesUnder_pressure hcapacity havailable hnonzero hkey, heq,
        mem_changesUnder_pressure hcapacity havailable hnonzero hkey]
    constructor
    · -- below the soft threshold only the whole store makes the cycle drop the marker
      by_contra hlow
      have hdelete := (hiff (Change.delete (keyDerivedNodePressure nodeID)) rfl).mpr
        (mem_reconcileNodePressure.mpr (Or.inl ⟨not_le.mp hlow, hmarker, rfl⟩))
      rcases mem_reconcileNodePressure.mp hdelete with ⟨-, hhas, -⟩ | ⟨hhard, -⟩
      · exact absurd (hhas.symm.trans hempty) (by simp)
      · exact hlow (le_trans (by decide) hhard)
    · -- from the hard threshold on only the runner's view makes it set the marker again
      by_contra hhigh
      have hput := (hiff (Change.put (keyDerivedNodePressure nodeID) (lit "memory")) rfl).mp
        (mem_reconcileNodePressure.mpr (Or.inr ⟨not_lt.mp hhigh, Or.inr ⟨hempty, rfl⟩⟩))
      rcases mem_reconcileNodePressure.mp hput with
        ⟨-, -, hdelete⟩ | ⟨-, hevict | ⟨hhas, -⟩⟩
      · exact absurd hdelete (by simp [Change.put, Change.delete])
      · obtain ⟨candidate, -, hchange⟩ := mem_map.mp hevict
        have hapart : Apart scanDerivedInstances scanDerivedNodes := by decide
        exact hapart.fieldKey_ne _ _ _ _ (congrArg Change.key hchange)
      · exact absurd (hhas.symm.trans hmarker) (by simp)
  · intro h
    exact flatMap_congr fun nodeID _ => evictionNodeChanges_eq_of_suffices h nodeID

end EvictionController

/-! ## Cluster autoscaling -/

/-- Requests followed by no further request are equal only if nothing follows. -/
theorem take_flatMap_append_eq_iff {α β : Type} {output : α → List β} {items : List α}
    {first second : Nat} {tail : List β} (hne : ∀ item, output item ≠ [])
    (hhead : ∀ item, ∀ start ∈ tail.head?, (output item).head? ≠ some start) :
    (items.take first).flatMap output ++ tail = (items.take second).flatMap output ↔
      items.take first = items.take second ∧ tail = [] := by
  refine ⟨fun heq => ?_, fun ⟨htake, htail⟩ => by rw [htake, htail, append_nil]⟩
  -- one of the two selections is the beginning of the other
  rcases prefix_or_prefix_of_prefix ( take_prefix first items)
    ( take_prefix second items) with ⟨rest, hrest⟩ | ⟨rest, hrest⟩
  · rw [← hrest, flatMap_append, append_cancel_left_eq] at heq
    cases rest with
    | nil => exact ⟨by rw [← hrest, append_nil], heq⟩
    | cons item others =>
      obtain ⟨start, more, hstart⟩ := exists_cons_of_ne_nil (hne item)
      exfalso
      rw [flatMap_cons, hstart, cons_append] at heq
      exact hhead item start (by rw [heq]; rfl) (by rw [hstart]; rfl)
  · rw [← hrest, flatMap_append, append_assoc, append_right_eq_self,
      append_eq_nil_iff] at heq
    refine ⟨?_, heq.2⟩
    cases rest with
    | nil => rw [← hrest, append_nil]
    | cons item others =>
      rw [flatMap_cons, append_eq_nil_iff] at heq
      exact absurd heq.1.1 (hne item)

section

variable (codec : JSONCodec CapacityRequestRequirements)

namespace ClusterAutoscaleController

section

variable {pending : Map Bool} {minNodes aliveCount : Int} {idleNodes : List Str}

theorem removalRequests_eq_nil_iff :
    removalRequests pending minNodes aliveCount idleNodes = [] ↔
      aliveCount ≤ minNodes ∨ ∀ nodeID ∈ idleNodes, pending.get nodeID false = true := by
  have hne : ∀ nodeID, buildRemovalRequestChanges nodeID ≠ [] := by
    simp [buildRemovalRequestChanges, groupedChanges]
  rw [removalRequests_eq, flatMap_eq_nil_iff]
  simp only [hne, imp_false, ← eq_nil_iff_forall_not_mem, take_eq_nil_iff, filter_eq_nil_iff]
  simp

/-- The first removal, if there is one, puts its request into the removing state. -/
theorem head_removalRequests
    (h : change ∈ (removalRequests pending minNodes aliveCount idleNodes).head?) :
    change.value = capacityRequestRemoving := by
  rw [removalRequests_eq] at h
  cases hnodes : (idleNodes.filter (fun nodeID => !pending.get nodeID false)).take
      (aliveCount - minNodes).toNat with
  | nil => simp [hnodes] at h
  | cons first rest =>
    obtain rfl : _ = change := by
      simpa [hnodes, buildRemovalRequestChanges, groupedChanges] using h
    rfl

end

variable (facts : List Fact)

/-- The instances that a cycle may request capacity for. -/
def uncoveredDemand : List Str :=
  (filterInsufficientCapacityDemand (extractUnplacedDemand codec facts)).sortedKeys.filter
    (fun instanceID => !((collectCoveredInstances (extractCapacityRequests codec facts)).get
      instanceID false))

/-- How many nodes a maximum leaves room for. -/
def openSlots (maxNodes : Int) : Nat :=
  (wrap64 (maxNodes - (countAliveAutoNodes (extractClusterNodeStates facts) +
    countInFlightCapacityRequests (extractCapacityRequests codec facts) : Nat))).toNat

/-- The request for one instance. -/
def requestFor (instanceID : Str) : List Change :=
  buildCapacityRequestChanges codec instanceID
    ((filterInsufficientCapacityDemand (extractUnplacedDemand codec facts)).get instanceID
      .zero).requirements

/-- The removals under a minimum. -/
def removals (minNodes : Int) : List Change :=
  removalRequests (pendingRemovals (extractCapacityRequests codec facts)) minNodes
    (countAliveNodes (extractClusterNodeStates facts))
    (findIdleAutoNodes (extractClusterNodeStates facts) (countInstancesPerNode facts))

/-- The changes of a cycle under given bounds. -/
def changesUnder (config : ClusterAutoscaleConfig) : List Change :=
  ((uncoveredDemand codec facts).take (openSlots codec facts config.maxNodes)).flatMap
      (requestFor codec facts) ++
    (if config.minNodes ≤ 0 then [] else removals codec facts config.minNodes) ++
    cleanupReadyCapacityRequests (extractCapacityRequests codec facts)

theorem reconcile_eq : reconcile codec facts = changesUnder codec facts (clusterConfig facts) := by
  rw [reconcile_requests]
  refine congrArg₂ (· ++ ·) (congrArg₂ (· ++ ·) ?_ ?_) (flatMap_ite _ _ _).symm
  · simp only [uncoveredDemand, get_collectCoveredInstances]
    rfl
  · rw [removals, removalRequests_eq, removedNodes, minNodes]
    split_ifs <;> rfl

theorem reconcile_visible {facts : List Fact} (hsorted : KeySorted facts) :
    reconcile codec (visible watch facts) =
      changesUnder codec facts ⟨0, defaultMaxClusterNodes⟩ := by
  have hsame : SameBelow watch (visible watch facts) facts :=
    sameBelow_visible (by decide) hsorted
  have hconfig : clusterConfig (visible watch facts) = ⟨0, defaultMaxClusterNodes⟩ := by
    rw [clusterConfig, extractClusterAutoscaleConfig,
      factsWithPrefix_visible_eq_nil hsorted (by decide) (by decide)]
    rfl
  rw [reconcile_eq, hconfig]
  generalize visible watch facts = view at hsame
  simp only [SameBelow, watch, forall_mem_cons] at hsame
  obtain ⟨hinstances, hderived, hnodes, hplacements, -, hunplaced, hrequests, -⟩ := hsame
  have hdemand : extractUnplacedDemand codec view = extractUnplacedDemand codec facts := by
    rw [extractUnplacedDemand, hunplaced, extractUnplacedDemand]
  have hexisting : extractCapacityRequests codec view = extractCapacityRequests codec facts := by
    rw [extractCapacityRequests, hrequests, extractCapacityRequests]
  have hstates : extractClusterNodeStates view = extractClusterNodeStates facts :=
    collectValuesBySuffix_congr _ hnodes _
  have hcounts : countInstancesPerNode view = countInstancesPerNode facts := by
    rw [countInstancesPerNode, hplacements, parseInstanceFieldsFromFacts_congr hinstances hderived,
      countInstancesPerNode]
  have hrequest : requestFor codec view = requestFor codec facts := by
    funext instanceID
    rw [requestFor, hdemand, requestFor]
  simp only [changesUnder, uncoveredDemand, openSlots, removals, hdemand, hexisting, hstates,
    hcounts, hrequest]

/-- The bounds let through as many requests as the default maximum, and no removal. -/
def WatchSuffices : Prop :=
  min (openSlots codec facts (clusterConfig facts).maxNodes) (uncoveredDemand codec facts).length =
      min (openSlots codec facts defaultMaxClusterNodes) (uncoveredDemand codec facts).length ∧
    ((clusterConfig facts).minNodes ≤ 0 ∨
      (countAliveNodes (extractClusterNodeStates facts) : Int) ≤ (clusterConfig facts).minNodes ∨
      ∀ nodeID ∈ findIdleAutoNodes (extractClusterNodeStates facts) (countInstancesPerNode facts),
        (pendingRemovals (extractCapacityRequests codec facts)).get nodeID false = true)

theorem reconcile_visible_iff {facts : List Fact} (hsorted : KeySorted facts) :
    reconcile codec (visible watch facts) = reconcile codec facts ↔
      WatchSuffices codec facts := by
  set config := clusterConfig facts with hconfig
  rw [reconcile_visible codec hsorted, reconcile_eq, ← hconfig, eq_comm, changesUnder,
    changesUnder, append_cancel_right_eq, if_pos (le_refl (0 : Int)), append_nil,
    take_flatMap_append_eq_iff, take_eq_take_iff, WatchSuffices, ← hconfig]
  · refine and_congr_right fun _ => ?_
    by_cases hmin : config.minNodes ≤ 0
    · simp [hmin]
    · rw [if_neg hmin, removals, removalRequests_eq_nil_iff]
      simp [hmin]
  · intro instanceID
    simp [requestFor, buildCapacityRequestChanges, groupedChanges]
  · -- a request starts out pending, a removal removing
    intro instanceID start hstart hrequest
    have hremoving : start.value = capacityRequestRemoving := by
      split at hstart
      next => exact absurd hstart (by simp)
      next => exact head_removalRequests hstart
    have hpending : start.value = capacityRequestPending := by
      obtain rfl := Option.some.inj hrequest
      rfl
    exact absurd (hremoving.symm.trans hpending) (by decide)

end ClusterAutoscaleController

end

/-! ## All seven controllers -/

/-- What the controllers take from outside the store. -/
structure ControllerRuntime (Source : Type) where
  requirementsCodec : JSONCodec CapacityRequestRequirements
  newID : IDFunc Source
  maxCreationsPerCycle : Int
  failureSettings : FailureSettings
  failureEnvironment : FailureEnvironment Source
  nodeFailureSettings : NodeFailureSettings
  currentTime : Time
  source : Source

/-- Each controller proposes the same on the facts scanned for it as on all facts. -/
structure WatchSufficient {Source : Type} (runtime : ControllerRuntime Source)
    (scannedFor : List Str → List Fact) (all : List Fact) : Prop where
  eviction : EvictionController.reconcile (scannedFor EvictionController.watch) =
    EvictionController.reconcile all
  clusterAutoscale : ClusterAutoscaleController.reconcile runtime.requirementsCodec
      (scannedFor ClusterAutoscaleController.watch) =
    ClusterAutoscaleController.reconcile runtime.requirementsCodec all
  endpoint : EndpointController.reconcile (scannedFor EndpointController.watch) =
    EndpointController.reconcile all
  drain : DrainController.reconcile (scannedFor DrainController.watch) =
    DrainController.reconcile all
  instances : InstanceController.reconcile runtime.newID runtime.maxCreationsPerCycle
      runtime.source (scannedFor InstanceController.watch) =
    InstanceController.reconcile runtime.newID runtime.maxCreationsPerCycle runtime.source all
  failure : FailureController.reconcile runtime.failureSettings runtime.failureEnvironment
      runtime.source (scannedFor FailureController.watch) =
    FailureController.reconcile runtime.failureSettings runtime.failureEnvironment
      runtime.source all
  nodeFailure : NodeFailureController.reconcile runtime.nodeFailureSettings runtime.currentTime
      (scannedFor NodeFailureController.watch) =
    NodeFailureController.reconcile runtime.nodeFailureSettings runtime.currentTime all

/-- The watch lists suffice exactly if the pressure markers and the bounds of the cluster
make no difference. -/
theorem watch_sufficient_iff {Source : Type} (runtime : ControllerRuntime Source)
    (order : SliceSort factLess) (history : List Operation) :
    let store := MemoryStore.new.run history
    WatchSufficient runtime (scannedFacts order store) store.table.allFacts ↔
      EvictionController.WatchSuffices store.table.allFacts ∧
        ClusterAutoscaleController.WatchSuffices runtime.requirementsCodec
          store.table.allFacts := by
  intro store
  have hopen : store.isClosed = false := (MemoryStore.run_new_table history).2
  have hvalid : store.table.Valid := MemoryStore.valid_run_new history
  have hsorted := hvalid.keySorted_allFacts
  have hscan : ∀ {watch : List Str}, NonOverlapping watch →
      scannedFacts order store watch = visible watch store.table.allFacts :=
    fun hwatch => scannedFacts_eq_visible hopen hvalid order hwatch
  have hsame : ∀ {watch : List Str}, NonOverlapping watch →
      SameBelow watch (scannedFacts order store watch) store.table.allFacts := by
    intro watch hwatch
    rw [hscan hwatch]
    exact sameBelow_visible hwatch hsorted
  rw [← EvictionController.reconcile_visible_iff,
    ← ClusterAutoscaleController.reconcile_visible_iff _ hsorted, ← hscan (by decide),
    ← hscan (by decide)]
  constructor
  · exact fun h => ⟨h.eviction, h.clusterAutoscale⟩
  · rintro ⟨heviction, hautoscale⟩
    exact
      { eviction := heviction
        clusterAutoscale := hautoscale
        endpoint := EndpointController.reconcile_congr (hsame (by decide))
        drain := DrainController.reconcile_congr (hsame (by decide))
        instances := InstanceController.reconcile_congr (hsame (by decide)) _ _ _
        failure := FailureController.reconcile_congr (hsame (by decide)) _ _ _
        nodeFailure := NodeFailureController.reconcile_congr (hsame (by decide)) _ _ }

/-- A marked node at half of its memory, and a cluster that may not grow. -/
def unwatchedState : List Operation :=
  [.put (lit "observed/node/n1/capacity/memory") (lit "100"),
    .put (lit "observed/node/n1/available/memory") (lit "50"),
    .put (keyDerivedNodePressure (lit "n1")) (lit "memory"),
    .put (keyDerivedSchedulerUnplacedReason (lit "i1")) unplacedNoNodes,
    .put keyDesiredClusterAutoscaleMaxNodes (lit "-1")]

/-- The runner never lets the marker be removed, and requests the node that the
operator does not allow. -/
theorem unwatchedState_differs :
    let store := MemoryStore.new.run unwatchedState
    let scanned := scannedFacts Interference.none.sortFacts store
    let codec : JSONCodec CapacityRequestRequirements := ⟨fun _ => none, fun _ => none⟩
    EvictionController.reconcile (scanned EvictionController.watch) = [] ∧
      EvictionController.reconcile store.table.allFacts =
        [Change.delete (keyDerivedNodePressure (lit "n1"))] ∧
      ClusterAutoscaleController.reconcile codec (scanned ClusterAutoscaleController.watch) =
        buildCapacityRequestChanges codec (lit "i1") .zero ∧
      ClusterAutoscaleController.reconcile codec store.table.allFacts = [] := by
  intro store scanned codec
  have hall : store.table.allFacts = FactTable.factsAfter unwatchedState := by
    rw [(MemoryStore.run_new_table unwatchedState).1, FactTable.run_allFacts]
  have hopen : store.isClosed = false := (MemoryStore.run_new_table unwatchedState).2
  have hvalid : store.table.Valid := MemoryStore.valid_run_new unwatchedState
  have hscan : ∀ {watch : List Str}, NonOverlapping watch →
      scanned watch = visible watch (FactTable.factsAfter unwatchedState) := by
    intro watch hwatch
    rw [← hall]
    exact scannedFacts_eq_visible hopen hvalid _ hwatch
  rw [hall, hscan (by decide), hscan (by decide)]
  decide +kernel

end CCattler.Controllers
