import CCattler.Scheduler.SelfConflict

/-! # Stopped instances

A controller stops an instance by a marker among its derived facts. The scheduler
goes by the observed facts alone, whether it places an instance or moves it.
-/

namespace CCattler.Scheduler

open Go Store CCattler.Types Controllers List

section

variable (facts : List Fact) (instanceID : Str)

/-- The marker, as the controllers read it. -/
abbrev ControllerStopped : Prop :=
  ((parseInstanceFieldsFromFacts facts).get instanceID ∅).field "controller_stopped" = lit "true"

variable (environment : SchedulerEnvironment) (state : SchedulerState)

/-- No cycle puts a placement for the instance. -/
def NotPlaced : Prop :=
  ∀ change ∈ (reconcile environment state facts).1,
    change.type = .put → change.key ≠ keyPlacementInstance instanceID

variable {facts instanceID environment state}

theorem GetsNode.reached (h : GetsNode (decisions environment state facts).1 instanceID) :
    PlacingReaches facts instanceID environment state ∨ MovingReaches facts instanceID := by
  cases h with
  | placed hplaced => exact Or.inl (placingReaches_of_placed hplaced).1
  | moved hmoved => exact Or.inr (movingReaches_of_moved hmoved).1

/-- Where no instance with the marker comes to be placed or moved, none gets a placement. -/
theorem stopped_not_placed (environment : SchedulerEnvironment) (state : SchedulerState)
    (facts : List Fact) (hreached : ∀ instanceID, ControllerStopped facts instanceID →
      ¬PlacingReaches facts instanceID environment state ∧ ¬MovingReaches facts instanceID) :
    ∀ instanceID, ControllerStopped facts instanceID →
      NotPlaced facts instanceID environment state := by
  intro instanceID hstopped change hchange hput hkey
  have hplacement : scanPlacements <+: change.key := hkey ▸ prefix_append _ _
  rcases put_cases hchange hput with ⟨_, hnode, hother⟩ | hunplaced | hmarker
  · obtain rfl := append_cancel_left (hkey.symm.trans hother)
    exact hnode.reached.elim (hreached _ hstopped).1 (hreached _ hstopped).2
  · have hapart : Apart scanPlacements scanDerivedSchedulerUnplaced := by decide
    exact hapart.not_isPrefix hplacement hunplaced
  · exact hmarker.unwatched _ (by decide) hplacement

theorem ControllerStopped.mem_keys (h : ControllerStopped facts instanceID) :
    instanceID ∈ (parseInstanceFieldsFromFacts facts).keys := by
  by_contra hout
  have hnone : (parseInstanceFieldsFromFacts facts).lookup instanceID = none :=
    AList.lookup_eq_none.mpr hout
  rw [ControllerStopped, Map.get, hnone] at h
  exact absurd h (by decide)

end

/-- An alive node and an instance that was told to stop. -/
def stoppedFacts (observed : Str) : List Fact :=
  [⟨keyDerivedInstanceControllerStopped (lit "i1"), lit "true", 3, 3, 0⟩,
    ⟨keyObservedInstanceState (lit "i1"), observed, 2, 2, 0⟩,
    ⟨lit "observed/node/n1/state", nodeAlive, 1, 1, 0⟩]

/-- The instance is pending while no node is alive, or runs beside no second node. -/
theorem stopped_instance_not_reached :
    NotPlaced ((stoppedFacts instancePending).take 2) (lit "i1") plainEnvironment ⟨none⟩ ∧
      NotPlaced (stoppedFacts instanceRunning) (lit "i1") plainEnvironment ⟨none⟩ := by
  have hnotPlaced : ∀ {facts : List Fact},
      (ControllerStopped facts (lit "i1") ∧
        (parseInstanceFieldsFromFacts facts).keys = [lit "i1"] ∧
        ¬PlacingReaches facts (lit "i1") plainEnvironment ⟨none⟩ ∧
        ¬MovingReaches facts (lit "i1")) → NotPlaced facts (lit "i1") plainEnvironment ⟨none⟩ := by
    rintro facts ⟨hstopped, hkeys, hreached⟩
    refine stopped_not_placed _ _ _ (fun instanceID hother => ?_) _ hstopped
    obtain rfl := mem_singleton.mp (hkeys ▸ hother.mem_keys)
    exact hreached
  unfold PlacingReaches MovingReaches at hnotPlaced
  exact ⟨hnotPlaced (by decide +kernel), hnotPlaced (by decide +kernel)⟩

/-- A stopped instance that its agent never started takes a node. -/
theorem stopped_pending_instance_placed :
    ControllerStopped (stoppedFacts instancePending) (lit "i1") ∧
      ¬ NotPlaced (stoppedFacts instancePending) (lit "i1") plainEnvironment ⟨none⟩ := by
  refine ⟨by decide +kernel, fun h => ?_⟩
  have hplaced : ∃ change ∈ (reconcile plainEnvironment ⟨none⟩ (stoppedFacts instancePending)).1,
      change.type = .put ∧ change.key = keyPlacementInstance (lit "i1") := by decide +kernel
  obtain ⟨change, hchange, hput, hkey⟩ := hplaced
  exact h change hchange hput hkey

end CCattler.Scheduler
