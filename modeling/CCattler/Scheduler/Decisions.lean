import CCattler.Scheduler.Reconcile

/-! # The instances a cycle decides about

Placing reaches pending instances without a placement, and moving reaches running ones
on overloaded nodes.
-/

namespace CCattler.Scheduler

open Go Store CCattler.Types Controllers List

/-! ## Placements of pending instances -/

section

variable {instanceIDs unplaced : List Str} {state : PlacementState} {placement : Placement}

/-- The placement gives one of the instances a node. -/
def Places (instanceIDs : List Str) (placement : Placement) : Prop :=
  placement.instanceID ∈ instanceIDs ∧ placement.nodeID ≠ []

theorem places_of_mem_placeEach {step : Str → PlacementState → List Placement × PlacementState}
    (hstep : ∀ key state, ∀ placement ∈ (step key state).1, Places unplaced placement)
    {keys : List Str} (h : placement ∈ (placeEach step keys state).1) :
    Places unplaced placement := by
  induction keys generalizing state with
  | nil => cases h
  | cons key rest ih =>
    rcases mem_append.mp h with hfirst | hrest
    · exact hstep key state placement hfirst
    · exact ih hrest

theorem places_of_mem_placeBatch {batch : Batch} {cache : NodeCapacityCache}
    (h : placement ∈ (placeBatch batch instanceIDs cache state).1) :
    Places instanceIDs placement := by
  induction instanceIDs generalizing cache state with
  | nil => cases h
  | cons instanceID rest ih =>
    simp only [placeBatch] at h
    split at h
    next => cases h
    next hbest =>
      rcases mem_cons.mp h with rfl | hrest
      · exact ⟨mem_cons_self, fun hnone => hbest (Or.inr hnone)⟩
      · exact (ih hrest).imp_left (mem_cons_of_mem _)

theorem places_of_mem_placeOneGroup {inputs : PlacementInputs} {groupName : Str}
    (h : placement ∈ (placeOneGroup inputs groupName instanceIDs state).1) :
    Places instanceIDs placement := by
  simp only [placeOneGroup] at h
  split at h
  next => cases h
  next htarget =>
    obtain ⟨instanceID, hmem, rfl⟩ := mem_map.mp h
    exact ⟨hmem, fun hnone => htarget (Or.inl hnone)⟩

theorem mem_of_mem_groupInstancesByService {instances : Map InstanceInfo}
    {serviceName instanceID : Str}
    (h : instanceID ∈ (groupInstancesByService unplaced instances).get serviceName []) :
    instanceID ∈ unplaced := by
  have hgather : groupInstancesByService unplaced instances = Map.gather (unplaced.map
      fun instanceID => ((instances.get instanceID .zero).service, instanceID)) := by
    rw [Map.gather, foldl_map]
    rfl
  rw [hgather, Map.mem_gather] at h
  obtain ⟨_, hmem, hpair⟩ := mem_map.mp h
  exact (Prod.mk.inj hpair).2 ▸ hmem

theorem partitionUnplacedByGroup_subset (unplaced : List Str) (instances : Map InstanceInfo)
    (serviceToGroup : Map Str) :
    let parts := partitionUnplacedByGroup unplaced instances serviceToGroup
    (∀ groupName, parts.1.get groupName [] ⊆ unplaced) ∧ parts.2 ⊆ unplaced := by
  apply List.foldlRecOn (motive := fun parts : Map (List Str) × List Str =>
    (∀ groupName, parts.1.get groupName [] ⊆ unplaced) ∧ parts.2 ⊆ unplaced)
  · exact ⟨fun _ => nil_subset _, nil_subset _⟩
  rintro parts ⟨hgrouped, hungrouped⟩ instanceID hmem
  have hmem := cons_subset.mpr ⟨hmem, nil_subset _⟩
  split
  next groupName _ =>
    refine ⟨fun other => ?_, hungrouped⟩
    rw [Map.get, Map.lookup_update]
    split
    · exact append_subset.mpr ⟨hgrouped groupName, hmem⟩
    · exact hgrouped other
  next => exact ⟨hgrouped, append_subset.mpr ⟨hungrouped, hmem⟩⟩

theorem alive_of_mem_buildAliveCandidateNodes {nodes : Map NodeInfo} {usedCPU usedMemory : Map Int}
    (h : buildAliveCandidateNodes nodes usedCPU usedMemory ≠ []) :
    collectAliveNodeIDs nodes ≠ [] := by
  obtain ⟨candidate, hcandidate⟩ := exists_mem_of_ne_nil _ h
  obtain ⟨_, hnode, halive⟩ := mem_filterMap.mp hcandidate
  obtain ⟨nodeID, hkey, rfl⟩ := mem_map.mp hnode
  refine ne_nil_of_mem (mem_filter.mpr ⟨hkey, decide_eq_true ?_⟩)
  by_contra hstate
  rw [if_neg hstate] at halive
  cases halive

theorem places_of_mem_attemptPlacements {view : ClusterView}
    (h : placement ∈ attemptPlacements view unplaced) :
    Places unplaced placement ∧ collectAliveNodeIDs view.nodes ≠ [] := by
  obtain ⟨hgrouped, hungrouped⟩ :=
    partitionUnplacedByGroup_subset unplaced view.instances view.serviceToGroup
  simp only [attemptPlacements] at h
  split at h
  next => cases h
  next halive =>
    refine ⟨?_, alive_of_mem_buildAliveCandidateNodes halive⟩
    rcases mem_append.mp h with hfirst | hsecond
    · refine places_of_mem_placeEach (fun groupName _ placement hplaced => ?_) hfirst
      exact (places_of_mem_placeOneGroup hplaced).imp_left fun hmem => hgrouped groupName hmem
    · refine places_of_mem_placeEach (fun _ _ placement hplaced => ?_) hsecond
      exact (places_of_mem_placeBatch hplaced).imp_left fun hmem =>
        hungrouped (mem_of_mem_groupInstancesByService hmem)

end

/-! ## Moves of running instances -/

section

variable {view : ClusterView} {move : RebalanceMove}

theorem selectRebalanceTarget_cases (view : ClusterView) (serviceName sourceNodeID : Str)
    (aliveCandidates : List CandidateNode) (nodeLoad serviceInstancesOnNode : Map Int) :
    let targetNodeID := selectRebalanceTarget view serviceName sourceNodeID aliveCandidates
      nodeLoad serviceInstancesOnNode
    targetNodeID = [] ∨ targetNodeID ≠ sourceNodeID := by
  apply List.foldlRecOn (motive := fun best : Str × Int => best.1 = [] ∨ best.1 ≠ sourceNodeID)
  · exact Or.inl rfl
  intro best hbest candidate _
  split_ifs with hsource
  any_goals exact hbest
  exact Or.inr hsource

theorem mem_of_mem_executeMoves {aliveCandidates : List CandidateNode}
    {room : Nat} {movable : List (Str × Str)} {state : RebalanceState}
    (h : move ∈ executeMoves view aliveCandidates room movable state) :
    (move.sourceNodeID, move.instanceID) ∈ movable ∧ move.targetNodeID ≠ move.sourceNodeID := by
  fun_induction executeMoves view aliveCandidates room movable state with
  | case1 | case2 => cases h
  | case3 _ _ _ _ _ _ _ _ ih => exact (ih h).imp_left (mem_cons_of_mem _)
  | case4 _ _ _ _ _ _ _ hkept ih =>
    rcases mem_cons.mp h with rfl | hrest
    · exact ⟨mem_cons_self, (selectRebalanceTarget_cases ..).resolve_left fun hnone =>
        hkept (Or.inl hnone)⟩
    · exact (ih hrest).imp_left (mem_cons_of_mem _)

/-- A movable instance is placed on its source. -/
theorem mem_findMovableInstances {sourceNodeID instanceID : Str}
    {placedInThisCycle pinnedServices : Map Bool}
    (h : instanceID ∈ findMovableInstances view sourceNodeID placedInThisCycle pinnedServices) :
    view.placements.get instanceID [] = sourceNodeID ∧
      instanceID ∈ findMovableInstances view sourceNodeID ∅ pinnedServices := by
  rw [findMovableInstances, sortStrings, mem_insertionSort, mem_filter] at h ⊢
  obtain ⟨hkey, htest⟩ := h
  cases hinfo : view.instances.lookup instanceID with
  | none => simp [hinfo] at htest
  | some info =>
    cases hconstraint : view.placementConstraints.lookup info.service with
    | none => simp [hinfo, hconstraint] at htest
    | some constraint =>
      simp only [hinfo, hconstraint, decide_eq_true_eq] at htest ⊢
      obtain ⟨hsource, -, hrest⟩ := htest
      exact ⟨hsource, hkey, hsource, rfl, hrest⟩

end

/-! ## The instances a cycle can reach -/

section

variable (facts : List Fact) (instanceID : Str)

/-- The instance may be moved: loads differ widely, and its node carries more than its
share. -/
def MovingReaches : Prop :=
  let view := clusterView facts
  let alive := collectAliveNodeIDs view.nodes
  let nodeLoad := computeRunningLoadPerNode view.placements view.instances alive
  let bounds := computeMaxMinLoad nodeLoad alive
  let nodeID := view.placements.get instanceID []
  (2 ≤ alive.length ∧ rebalanceLoadImbalanceThreshold < bounds.1 - bounds.2) ∧
    (sumNodeLoad nodeLoad).tdiv alive.length + 1 < nodeLoad.get nodeID 0 ∧
    instanceID ∈ findMovableInstances view nodeID ∅
      (extractRebalancePinnedServices facts view.statefulServices)

variable (environment : SchedulerEnvironment) (state : SchedulerState)

/-- The instance may be placed: it is pending without a placement, its placement is not
deferred, and a node is alive. -/
def PlacingReaches : Prop :=
  let view := clusterView facts
  let unplaced := findUnplacedPendingInstances view.instances view.placements
  instanceID ∈ unplaced ∧ collectAliveNodeIDs view.nodes ≠ [] ∧
    (shouldDeferInitialPlacement environment state view.placements unplaced).1 = false

variable {facts environment state}

theorem placingReaches_of_placed {placement : Placement}
    (h : placement ∈ (decisions environment state facts).1.placed) :
    PlacingReaches facts placement.instanceID environment state ∧ placement.nodeID ≠ [] := by
  simp only [decisions] at h
  split at h
  next => cases h
  next hdeferred =>
    obtain ⟨⟨hunplaced, hnode⟩, halive⟩ := places_of_mem_attemptPlacements h
    exact ⟨⟨hunplaced, halive, Bool.eq_false_of_not_eq_true hdeferred⟩, hnode⟩

theorem movingReaches_of_moved {move : RebalanceMove}
    (h : move ∈ (decisions environment state facts).1.moved) :
    MovingReaches facts move.instanceID ∧ move.targetNodeID ≠
      (clusterView facts).placements.get move.instanceID [] := by
  obtain ⟨instanceID, sourceNodeID, targetNodeID⟩ := move
  simp only [decisions, rebalancePlacedInstances] at h
  split at h
  next => cases h
  next hspread =>
    obtain ⟨hmovable, htarget⟩ := mem_of_mem_executeMoves h
    obtain ⟨_, hoverloaded, hpair⟩ := mem_flatMap.mp hmovable
    obtain ⟨_, hmem, heq⟩ := mem_map.mp hpair
    obtain ⟨rfl, rfl⟩ := Prod.mk.inj heq
    obtain ⟨rfl, hfound⟩ := mem_findMovableInstances hmem
    have hload := (mem_filter.mp ((SliceSort.sort_perm _ _).mem_iff.mp hoverloaded)).2
    rw [not_or, not_lt, not_le] at hspread
    exact ⟨⟨hspread, of_decide_eq_true hload, hfound⟩, htarget⟩

end

end CCattler.Scheduler
