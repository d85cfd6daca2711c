import CCattler.Controllers.SelfConflict
import CCattler.Scheduler.Decisions
import CCattler.Scheduler.Preemption

/-! # The scheduler's conflicts with itself

The scheduler writes markers that it does not watch, and one left behind blocks its
transaction.
-/

namespace CCattler.Scheduler

open Go Store CCattler.Types Controllers List

/-- The keys of the markers that a cycle puts. -/
inductive IsMarker (decided : Decisions) : Str → Prop
  | placed {placement : Placement} (h : placement ∈ decided.placed) :
      IsMarker decided (keyPlacementNodeInstance placement.nodeID placement.instanceID)
  | preempted {victimID : Str} (h : victimID ∈ decided.preempted) :
      IsMarker decided (keyDerivedInstanceControllerStopped victimID)
  | moved {move : RebalanceMove} (h : move ∈ decided.moved) :
      IsMarker decided (keyPlacementNodeInstance move.targetNodeID move.instanceID)

/-! ## Which keys are watched -/

theorem IsMarker.unwatched {decided : Decisions} {key : Str} (h : IsMarker decided key) :
    ∀ pre ∈ watch, ¬ pre <+: key := by
  have hapart : ∀ pre ∈ watch,
      Apart pre (lit "placement/node/") ∧ Apart pre scanDerivedInstances := by
    decide
  have hkey : lit "placement/node/" <+: key ∨ scanDerivedInstances <+: key := by
    cases h with
    | placed => exact Or.inl (isPrefix_fieldKey _ _ _)
    | preempted => exact Or.inr (isPrefix_fieldKey _ _ _)
    | moved => exact Or.inl (isPrefix_fieldKey _ _ _)
  intro pre hpre hstarts
  rcases hkey with hplacement | hinstance
  · exact (hapart pre hpre).1.not_isPrefix hstarts hplacement
  · exact (hapart pre hpre).2.not_isPrefix hstarts hinstance

/-! ## The puts of a cycle -/

/-- The instances that a cycle gives a node. -/
inductive GetsNode (decided : Decisions) : Str → Prop
  | placed {placement : Placement} (h : placement ∈ decided.placed) :
      GetsNode decided placement.instanceID
  | moved {move : RebalanceMove} (h : move ∈ decided.moved) : GetsNode decided move.instanceID

section

variable {environment : SchedulerEnvironment} {state : SchedulerState} {facts : List Fact}
  {change : Change}

theorem placement_key {placement : Placement} (h : change ∈ placement.changes) :
    change.key = keyPlacementInstance placement.instanceID ∨
      change.key = keyPlacementNodeInstance placement.nodeID placement.instanceID := by
  obtain ⟨original, horiginal, hkey, -⟩ := mem_groupedChanges_key h
  rw [hkey]
  simp only [mem_cons, not_mem_nil, or_false] at horiginal
  rcases horiginal with rfl | rfl
  · exact Or.inl rfl
  · exact Or.inr rfl

theorem move_key {move : RebalanceMove} (h : change ∈ move.changes) :
    change.key = keyPlacementInstance move.instanceID ∨ (change.type = .delete ∧
        change.key = keyPlacementNodeInstance move.sourceNodeID move.instanceID) ∨
      change.key = keyPlacementNodeInstance move.targetNodeID move.instanceID := by
  obtain ⟨original, horiginal, hkey, htype⟩ := mem_groupedChanges_key h
  rw [hkey, htype]
  simp only [mem_cons, not_mem_nil, or_false] at horiginal
  rcases horiginal with rfl | rfl | rfl
  · exact Or.inl rfl
  · exact Or.inr (Or.inl ⟨rfl, rfl⟩)
  · exact Or.inr (Or.inr rfl)

theorem change_cases (h : change ∈ (reconcile environment state facts).1) :
    let decided := (decisions environment state facts).1
    (∃ placement ∈ decided.placed, change ∈ placement.changes) ∨
      (∃ victimID ∈ decided.preempted, change = preemptionChange victimID) ∨
      scanDerivedSchedulerUnplaced <+: change.key ∨
      ∃ move ∈ decided.moved, change ∈ move.changes := by
  simp only [reconcile, mem_append] at h
  rcases h with (((hplaced | hpreempted) | hunplaced) | hstale) | hmoved
  · exact Or.inl (mem_flatMap.mp hplaced)
  · obtain ⟨victimID, hvictim, rfl⟩ := mem_map.mp hpreempted
    exact Or.inr (Or.inl ⟨victimID, hvictim, rfl⟩)
  · obtain ⟨instanceID, -, hchange⟩ := mem_flatMap.mp hunplaced
    simp only [buildUnplacedFactChanges, mem_cons, not_mem_nil, or_false] at hchange
    rcases hchange with rfl | rfl <;> exact Or.inr (Or.inr (Or.inl (isPrefix_fieldKey _ _ _)))
  · obtain ⟨instanceID, -, hchange⟩ := mem_flatMap.mp hstale
    split at hchange
    next =>
      simp only [mem_cons, not_mem_nil, or_false] at hchange
      rcases hchange with rfl | rfl <;> exact Or.inr (Or.inr (Or.inl (isPrefix_fieldKey _ _ _)))
    next => cases hchange
  · exact Or.inr (Or.inr (Or.inr (mem_flatMap.mp hmoved)))

theorem put_cases (h : change ∈ (reconcile environment state facts).1) (hput : change.type = .put) :
    let decided := (decisions environment state facts).1
    (∃ instanceID, GetsNode decided instanceID ∧ change.key = keyPlacementInstance instanceID) ∨
      scanDerivedSchedulerUnplaced <+: change.key ∨ IsMarker decided change.key := by
  rcases change_cases h with ⟨placement, hplacement, hchange⟩ | ⟨victimID, hvictim, rfl⟩ |
    hunplaced | ⟨move, hmove, hchange⟩
  · rcases placement_key hchange with hkey | hkey
    · exact Or.inl ⟨_, .placed hplacement, hkey⟩
    · exact Or.inr (Or.inr (hkey ▸ .placed hplacement))
  · exact Or.inr (Or.inr (.preempted hvictim))
  · exact Or.inr (Or.inl hunplaced)
  · rcases move_key hchange with hkey | ⟨hdelete, -⟩ | hkey
    · exact Or.inl ⟨_, .moved hmove, hkey⟩
    · exact absurd (hput.symm.trans hdelete) (by decide)
    · exact Or.inr (Or.inr (hkey ▸ .moved hmove))

end

/-- Markers agree with what the scheduler reads: an instance's placement markers are those
of its own node, and nothing that runs carries a stop marker. -/
structure MarkersInStep (table : FactTable) (view : ClusterView) : Prop where
  placement : ∀ nodeID instanceID,
    (table.facts (keyPlacementNodeInstance nodeID instanceID)).isSome →
      view.placements.get instanceID [] = nodeID
  stopped : ∀ instanceID, (table.facts (keyDerivedInstanceControllerStopped instanceID)).isSome →
    (view.instances.get instanceID .zero).state ≠ instanceRunning

/-- In step, no marker to be put is stored. -/
theorem MarkersInStep.absent {table : FactTable} {environment : SchedulerEnvironment}
    {state : SchedulerState} {facts : List Fact} (h : MarkersInStep table (clusterView facts))
    {key : Str} (hmarker : IsMarker (decisions environment state facts).1 key) :
    table.facts key = none := by
  refine Option.not_isSome_iff_eq_none.mp fun hpresent => ?_
  cases hmarker with
  | placed hplaced =>
    obtain ⟨⟨hunplaced, -⟩, hnode⟩ := placingReaches_of_placed hplaced
    have hnone := (mem_filter.mp ((mem_insertionSort _).mp hunplaced)).2
    rw [Bool.and_eq_true, decide_eq_true_iff, decide_eq_true_iff] at hnone
    exact hnode ((h.placement _ _ hpresent).symm.trans hnone.2)
  | preempted hvictim => exact h.stopped _ hpresent (running_of_mem_attemptPreemptions hvictim)
  | moved hmoved => exact (movingReaches_of_moved hmoved).2 (h.placement _ _ hpresent).symm

/-- In step, a cycle does not conflict with itself. -/
theorem MarkersInStep.noSelfConflict (runner : Runner) (environment : SchedulerEnvironment)
    (state : SchedulerState) {store : MemoryStore} (hopen : store.isClosed = false)
    (hvalid : store.table.Valid) (order : SliceSort factLess)
    (h : MarkersInStep store.table (clusterView (scannedFacts order store watch))) :
    NoSelfConflict runner (scheduler environment) state store order := by
  rw [noSelfConflict_iff hopen hvalid (by change NonOverlapping watch; decide)]
  intro changes next hreconcile change hchange hput hunwatched
  obtain rfl := Except.ok.inj (congrArg Prod.fst hreconcile)
  have hwatched : scanPlacements ∈ watch ∧ scanDerivedSchedulerUnplaced ∈ watch := by decide
  rcases put_cases hchange hput with ⟨_, -, hkey⟩ | hunplaced | hmarker
  · exact absurd (hkey ▸ prefix_append _ _) (hunwatched _ hwatched.1)
  · exact absurd hunplaced (hunwatched _ hwatched.2)
  · exact h.absent hmarker

/-- A scheduler without grace period that keeps the order of equally loaded
nodes. -/
def plainEnvironment : SchedulerEnvironment where
  placementGracePeriod := 0
  now := .zero
  codec := ⟨fun _ => none, fun _ => none⟩
  overloadedOrder := fun nodeLoad => .stable
    (fun first second => by
      simp only [overloadLess, decide_eq_false_iff_not, not_lt]
      exact le_total _ _)
    (fun first second third hfirst hsecond => by
      simp only [overloadLess, decide_eq_false_iff_not, not_lt] at hfirst hsecond ⊢
      exact le_trans hsecond hfirst)

/-- A marked node short of memory, and an instance with a marker of an earlier placement. -/
def leftoverMarkers : List Operation :=
  [.put (lit "observed/node/n1/state") nodeAlive,
    .put (lit "observed/node/n1/capacity/memory") (lit "100"),
    .put (lit "observed/node/n1/available/memory") (lit "5"),
    .put (keyDerivedNodePressure (lit "n1")) (lit "memory"),
    .put (keyObservedInstanceState (lit "i1")) instancePending,
    .put (keyPlacementNodeInstance (lit "n1") (lit "i1")) []]

/-- A node with room, a pending instance, and one that was told to stop and has. -/
def markersInStep : List Operation :=
  [.put (lit "observed/node/n1/state") nodeAlive,
    .put (keyObservedInstanceState (lit "i1")) instancePending,
    .put (keyObservedInstanceState (lit "i2")) instanceStopped,
    .put (keyDerivedInstanceControllerStopped (lit "i2")) (lit "true")]

def plainFailureEnvironment : FailureEnvironment Unit :=
  ⟨fun _ => ([], ()), .zero, ⟨fun _ => none, fun _ => none⟩, .identity, .identity⟩

end CCattler.Scheduler
