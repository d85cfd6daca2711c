import CCattler.Controllers.NodeFailure
import CCattler.Controllers.WatchedFacts

/-! # Node failure markers and leases

Only nodes with a lease that can be read, in one of two states, are judged. The others
count as reachable, so that markers of their instances are cleared.
-/

namespace CCattler.Controllers.NodeFailureController

open Go Store CCattler.Types List Map

/-- What one cycle works on. -/
structure Cycle where
  settings : NodeFailureSettings
  currentTime : Time
  facts : List Fact

variable (instanceID : Str)

def marker : Change :=
  .put (keyDerivedInstanceNodeFailure instanceID) (lit "true")

def clearing : Change := .delete (keyDerivedInstanceNodeFailure instanceID)

namespace Cycle

variable (cycle : Cycle)

def changes : List Change := reconcile cycle.settings cycle.currentTime cycle.facts

section

variable (nodeID : Str)

def lease : Option Int := (parseNodeLeaseTimestamps cycle.facts).lookup nodeID

def nodeState : Str := (parseCurrentNodeStates cycle.facts).get nodeID []

def Expired : Prop :=
  ∃ millis ∈ cycle.lease nodeID, cycle.settings.leaseTimeout < cycle.currentTime.subMilli millis

def Fresh : Prop :=
  ∃ millis ∈ cycle.lease nodeID, cycle.currentTime.subMilli millis ≤ cycle.settings.leaseTimeout

instance : Decidable (cycle.Expired nodeID) := inferInstanceAs (Decidable (∃ _ ∈ _, _))

instance : Decidable (cycle.Fresh nodeID) := inferInstanceAs (Decidable (∃ _ ∈ _, _))

/-- The node is unreachable and has no fresh lease, or its lease has expired. -/
def Down : Prop :=
  cycle.nodeState nodeID = nodeUnreachable ∧ ¬ cycle.Fresh nodeID ∨ cycle.Expired nodeID

/-- An unreachable node without a lease, or one with an expired lease in another state than
the two that are judged. -/
def Overlooked : Prop :=
  cycle.nodeState nodeID = nodeUnreachable ∧ cycle.lease nodeID = none ∨
    cycle.Expired nodeID ∧ cycle.nodeState nodeID ≠ nodeUnreachable ∧
      cycle.nodeState nodeID ≠ nodeAlive

/-- The lease has expired in one of the two states that are judged. -/
abbrev FoundDown : Prop := cycle.Expired nodeID ∧
  (cycle.nodeState nodeID = nodeUnreachable ∨ cycle.nodeState nodeID = nodeAlive)

end

def nodeOf (instanceID : Str) : Str := (parsePlacementsByNode cycle.facts).get instanceID []

abbrev IsActive (instanceID : Str) : Prop :=
  isActiveInstanceState (effectiveInstanceState
    ((parseInstanceFieldsFromFacts cycle.facts).get instanceID ∅)) = true

/-- The nodes that have come back and those that have newly failed, as far as a cycle
changes their states. -/
def stateChanges : Nat :=
  let nodeIDs := (parseNodeLeaseTimestamps cycle.facts).keys
  min cycle.settings.maxNodeStateChangesPerCycle
    (nodeIDs.countP (fun nodeID =>
        cycle.nodeState nodeID = nodeUnreachable ∧ cycle.Fresh nodeID) +
      nodeIDs.countP (fun nodeID => cycle.nodeState nodeID = nodeAlive ∧ cycle.Expired nodeID))

/-- The active instances on nodes that are found down. -/
def failing : Nat :=
  (parsePlacementsByNode cycle.facts).keys.countP (fun instanceID =>
    cycle.FoundDown (cycle.nodeOf instanceID) ∧ cycle.IsActive instanceID)

/-- The marked instances that are placed on a node that is not found down. -/
def cleanable : List Str :=
  (factsWithPrefix cycle.facts scanDerivedInstances).filterMap (fun fact =>
    match splitFactKeyIntoEntityAndSuffix fact.key scanDerivedInstances with
    | some (instanceID, suffix) =>
      if suffix = lit "node_failure" ∧ cycle.nodeOf instanceID ≠ [] ∧
          ¬cycle.FoundDown (cycle.nodeOf instanceID) then some instanceID
      else none
    | none => none)

/-- The unreachable nodes and the changes of node states. -/
def judged : Map Bool × List Change :=
  identifyUnreachableNodes cycle.settings cycle.currentTime (parseNodeLeaseTimestamps cycle.facts)
    (parseCurrentNodeStates cycle.facts)

def nodeStateChanges : List Change :=
  cycle.judged.2.take cycle.settings.maxNodeStateChangesPerCycle

/-- The markers follow the leases, within the limits of a cycle. -/
structure TracksLeases : Prop where
  marked : ∀ instanceID, marker instanceID ∈ cycle.changes →
    cycle.IsActive instanceID ∧ cycle.Down (cycle.nodeOf instanceID)
  cleared : ∀ instanceID, clearing instanceID ∈ cycle.changes →
    cycle.nodeOf instanceID ≠ [] ∧ ¬ cycle.Down (cycle.nodeOf instanceID)
  apart : ∀ instanceID, marker instanceID ∈ cycle.changes → clearing instanceID ∉ cycle.changes
  total : cycle.changes.length ≤ cycle.settings.maxTotalChangesPerCycle
  nodeStates : cycle.changes.countP (fun change => change.key.hasPrefix scanObservedNodes) ≤
    cycle.settings.maxNodeStateChangesPerCycle

variable {cycle}

/-! ## Nodes -/

theorem judgeNode_eq {nodeID : Str} {verdicts : NodeVerdicts}
    (h : nodeID ∈ (parseNodeLeaseTimestamps cycle.facts).keys) :
    judgeNode cycle.settings cycle.currentTime (parseNodeLeaseTimestamps cycle.facts)
        (parseCurrentNodeStates cycle.facts) verdicts nodeID =
      ⟨verdicts.recoveredNodeIDs ++
          if cycle.nodeState nodeID = nodeUnreachable ∧ cycle.Fresh nodeID then [nodeID] else [],
        if cycle.FoundDown nodeID then verdicts.unreachableNodeSet.set nodeID true
        else verdicts.unreachableNodeSet⟩ := by
  obtain ⟨millis, hlease⟩ := Option.isSome_iff_exists.mp
    (AList.lookup_isSome.mpr (AList.mem_keys.mpr h))
  have hget : (parseNodeLeaseTimestamps cycle.facts).get nodeID 0 = millis := by
    rw [Map.get, hlease]
    rfl
  have hfresh : cycle.Fresh nodeID ↔
      cycle.currentTime.subMilli millis ≤ cycle.settings.leaseTimeout := by
    simp [Fresh, lease, hlease]
  have hexpired : cycle.Expired nodeID ↔
      ¬cycle.currentTime.subMilli millis ≤ cycle.settings.leaseTimeout := by
    simp [Expired, lease, hlease]
  simp only [judgeNode, hget, FoundDown, hfresh, hexpired, nodeState]
  cases verdicts
  grind

/-- The nodes are judged each by its own lease and state. -/
theorem verdicts_eq {nodeIDs : List Str} {verdicts : NodeVerdicts}
    (h : nodeIDs ⊆ (parseNodeLeaseTimestamps cycle.facts).keys) :
    nodeIDs.foldl (judgeNode cycle.settings cycle.currentTime
        (parseNodeLeaseTimestamps cycle.facts) (parseCurrentNodeStates cycle.facts)) verdicts =
      ⟨verdicts.recoveredNodeIDs ++ nodeIDs.filter (fun nodeID =>
          cycle.nodeState nodeID = nodeUnreachable ∧ cycle.Fresh nodeID),
        (nodeIDs.filter (fun nodeID => cycle.FoundDown nodeID)).foldl
          (fun nodes nodeID => nodes.set nodeID true) verdicts.unreachableNodeSet⟩ := by
  induction nodeIDs generalizing verdicts with
  | nil => simp
  | cons nodeID rest ih =>
    obtain ⟨hmem, hrest⟩ := cons_subset.mp h
    rw [foldl_cons, ih hrest, judgeNode_eq hmem]
    simp only [filter_cons, decide_eq_true_eq]
    split_ifs <;> simp

/-- The nodes that are found down. -/
def downNodes (cycle : Cycle) : Map Bool :=
  ((parseNodeLeaseTimestamps cycle.facts).keys.filter
    (fun nodeID => cycle.FoundDown nodeID)).foldl (fun nodes nodeID => nodes.set nodeID true) ∅

/-- The verdicts of a cycle: the nodes down and those back. -/
theorem judged_eq : cycle.judged = (cycle.downNodes,
    (sortStrings ((parseNodeLeaseTimestamps cycle.facts).keys.filter (fun nodeID =>
        cycle.nodeState nodeID = nodeUnreachable ∧ cycle.Fresh nodeID))).map
          (fun nodeID => .put (keyObservedNodeState nodeID) nodeAlive) ++
      (cycle.downNodes.sortedKeys.filter
        (fun nodeID => cycle.nodeState nodeID ≠ nodeUnreachable)).map
          (fun nodeID => .put (keyObservedNodeState nodeID) nodeUnreachable)) := by
  rw [judged, identifyUnreachableNodes, verdicts_eq (Subset.refl _)]
  rfl

theorem get_judged {nodeID : Str} :
    cycle.judged.1.get nodeID false = true ↔ cycle.FoundDown nodeID := by
  have hlease : cycle.FoundDown nodeID → nodeID ∈ (parseNodeLeaseTimestamps cycle.facts).keys :=
    fun ⟨⟨_, hmem, _⟩, _⟩ => mem_keys_of_lookup hmem
  rw [judged_eq, downNodes,
    foldl_iff (p := fun nodes : Map Bool => nodes.get nodeID false = true) (q := (nodeID = ·))
      fun _ _ _ => get_set_true]
  simpa [Map.get] using hlease

theorem length_nodeStateChanges : cycle.nodeStateChanges.length = cycle.stateChanges := by
  have hkeys : cycle.downNodes.sortedKeys.Perm
      ((parseNodeLeaseTimestamps cycle.facts).keys.filter fun nodeID =>
        cycle.FoundDown nodeID) := by
    refine (perm_insertionSort _ _).trans ((perm_ext_iff_of_nodup (AList.nodupKeys _)
      (.filter _ (AList.nodupKeys _))).mpr fun nodeID => ?_)
    exact mem_keys_foldl_set.trans (by simp [AList.keys])
  have hstates : nodeUnreachable ≠ nodeAlive := by decide
  rw [nodeStateChanges, length_take, stateChanges, judged_eq, length_append, length_map,
    length_map, sortStrings, length_insertionSort, ← countP_eq_length_filter,
    ← countP_eq_length_filter, hkeys.countP_eq, countP_filter]
  congr 2
  refine countP_congr fun nodeID _ => ?_
  grind

theorem down_iff {nodeID : Str} (h : ¬cycle.FoundDown nodeID) :
    cycle.Down nodeID ↔ cycle.Overlooked nodeID := by
  simp only [FoundDown, Down, Overlooked, Fresh, Expired] at h ⊢
  cases hlease : cycle.lease nodeID with
  | none => simp
  | some millis =>
    simp only [hlease, Option.mem_def, Option.some.injEq, exists_eq_left'] at h ⊢
    rw [not_le]
    tauto

/-! ## What a cycle writes -/

theorem of_mem_nodeStateChanges {change : Change} (h : change ∈ cycle.nodeStateChanges) :
    scanObservedNodes <+: change.key := by
  have hall := mem_of_mem_take h
  simp only [judged, identifyUnreachableNodes, mem_append, mem_map] at hall
  rcases hall with ⟨nodeID, -, rfl⟩ | ⟨nodeID, -, rfl⟩ <;> exact isPrefix_fieldKey _ _ _

theorem not_isPrefix_nodeFailure :
    ¬ scanObservedNodes <+: keyDerivedInstanceNodeFailure instanceID :=
  (by decide : Apart scanDerivedInstances scanObservedNodes).not_isPrefix (isPrefix_fieldKey _ _ _)

section

variable {nodes : Map Bool} {maxChanges : Nat} {change : Change}

theorem of_mem_mark
    (h : change ∈ markInstancesOnUnreachableNodesAsFailed cycle.facts nodes maxChanges) :
    ∃ instanceID, change = marker instanceID ∧
      nodes.get (cycle.nodeOf instanceID) false = true ∧ cycle.IsActive instanceID := by
  obtain ⟨instanceID, hmem, rfl⟩ := mem_map.mp h
  have htest := (mem_filter.mp ((mem_insertionSort _).mp (mem_of_mem_take hmem))).2
  rw [Bool.and_eq_true] at htest
  refine ⟨instanceID, rfl, htest.1, ?_⟩
  cases hfields : (parseInstanceFieldsFromFacts cycle.facts).lookup instanceID with
  | none => simp [hfields] at htest
  | some fields => simpa [IsActive, hfields, Map.get] using htest.2

end

/-- What the total leaves for the markers. -/
def markerBudget (cycle : Cycle) : Nat :=
  (cycle.settings.maxTotalChangesPerCycle - cycle.nodeStateChanges.length).toNat

def marks (cycle : Cycle) : List Change :=
  markInstancesOnUnreachableNodesAsFailed cycle.facts cycle.judged.1 cycle.markerBudget

def clearings (cycle : Cycle) : List Change :=
  cleanupStaleNodeFailureMarkers cycle.facts cycle.judged.1
    (cycle.markerBudget - cycle.marks.length)

theorem changes_eq : cycle.changes = cycle.nodeStateChanges ++ cycle.marks ++ cycle.clearings := rfl

variable {instanceID : Str}

theorem of_mem_cleanable (h : instanceID ∈ cycle.cleanable) :
    cycle.nodeOf instanceID ≠ [] ∧ ¬cycle.FoundDown (cycle.nodeOf instanceID) := by
  obtain ⟨fact, -, hfound⟩ := mem_filterMap.mp h
  split at hfound
  next =>
    split_ifs at hfound with htest
    obtain rfl := Option.some.inj hfound
    exact htest.2
  next => cases hfound

theorem clearings_eq : cycle.clearings =
    ((sortStrings cycle.cleanable).take (cycle.markerBudget - cycle.marks.length)).map
      clearing := by
  have hcleanable : cycle.cleanable = (factsWithPrefix cycle.facts scanDerivedInstances).filterMap
      (fun fact => match splitFactKeyIntoEntityAndSuffix fact.key scanDerivedInstances with
        | some (instanceID, suffix) =>
          let placedNode := (parsePlacementsByNode cycle.facts).get instanceID []
          if suffix = lit "node_failure" ∧ placedNode ≠ [] ∧
              cycle.judged.1.get placedNode false = false then some instanceID
          else none
        | none => none) := by
    refine filterMap_congr fun fact _ => ?_
    cases splitFactKeyIntoEntityAndSuffix fact.key scanDerivedInstances with
    | none => rfl
    | some found => exact if_congr (by simp only [← Bool.not_eq_true, get_judged, nodeOf]) rfl rfl
  rw [hcleanable]
  rfl

theorem of_marker_mem (h : marker instanceID ∈ cycle.changes) :
    cycle.judged.1.get (cycle.nodeOf instanceID) false = true ∧ cycle.IsActive instanceID := by
  rw [changes_eq, mem_append, mem_append] at h
  rcases h with (hnode | hmark) | hclear
  · exact absurd (of_mem_nodeStateChanges hnode) (not_isPrefix_nodeFailure instanceID)
  · obtain ⟨other, heq, hother⟩ := of_mem_mark hmark
    obtain rfl : instanceID = other := fieldKey_entity_injective (congrArg Change.key heq)
    exact hother
  · obtain ⟨_, -, heq⟩ := mem_map.mp hclear
    cases congrArg Change.type heq

theorem length_marks : cycle.marks.length = min cycle.markerBudget cycle.failing := by
  rw [marks, markInstancesOnUnreachableNodesAsFailed, length_map, length_take, sortStrings,
    length_insertionSort, ← countP_eq_length_filter, failing]
  congr 1
  refine countP_congr fun instanceID _ => ?_
  rw [Bool.and_eq_true, get_judged, decide_eq_true_eq]
  refine and_congr_right fun _ => ?_
  cases hfields : (parseInstanceFieldsFromFacts cycle.facts).lookup instanceID with
  | none =>
    have hidle : isActiveInstanceState (effectiveInstanceState ∅) = false := by decide
    simp [IsActive, Map.get, hfields, hidle]
  | some fields => simp [IsActive, Map.get, hfields]

/-- Markers are cleared in the order of the instances, with what the other changes leave of
the total. -/
theorem clearing_mem_iff : clearing instanceID ∈ cycle.changes ↔
    instanceID ∈ cycle.cleanable ∧ cycle.stateChanges + cycle.failing +
      cycle.cleanable.countP (· < instanceID) < cycle.settings.maxTotalChangesPerCycle := by
  have hinj : Function.Injective clearing := fun _ _ heq =>
    fieldKey_entity_injective (congrArg Change.key heq)
  have hnode : clearing instanceID ∉ cycle.nodeStateChanges := fun hmem =>
    not_isPrefix_nodeFailure instanceID (of_mem_nodeStateChanges hmem)
  have hmark : clearing instanceID ∉ cycle.marks := by
    intro hmem
    obtain ⟨_, heq, -⟩ := of_mem_mark hmem
    cases congrArg Change.type heq
  rw [changes_eq, mem_append, mem_append, or_iff_right (not_or.mpr ⟨hnode, hmark⟩), clearings_eq,
    mem_map_of_injective hinj, mem_take_sortStrings, length_marks, markerBudget,
    length_nodeStateChanges]
  refine and_congr_right fun _ => ?_
  omega

theorem length_changes_le_iff :
    cycle.changes.length ≤ cycle.settings.maxTotalChangesPerCycle ↔
      cycle.stateChanges ≤ cycle.settings.maxTotalChangesPerCycle := by
  have hclearings : cycle.clearings.length ≤ cycle.markerBudget - cycle.marks.length := by
    rw [clearings_eq, length_map]
    exact length_take_le _ _
  rw [changes_eq, length_append, length_append, ← length_nodeStateChanges]
  have hmarks := cycle.length_marks
  unfold markerBudget at *
  omega

theorem countP_changes : cycle.changes.countP
    (fun change => change.key.hasPrefix scanObservedNodes) = cycle.nodeStateChanges.length := by
  have hnone : ∀ change ∈ cycle.marks ++ cycle.clearings,
      ¬ change.key.hasPrefix scanObservedNodes = true := by
    intro change hmem
    rw [Str.hasPrefix_iff]
    rcases mem_append.mp hmem with hmark | hclear
    · obtain ⟨instanceID, rfl, -⟩ := of_mem_mark hmark
      exact not_isPrefix_nodeFailure instanceID
    · obtain ⟨instanceID, -, rfl⟩ := mem_map.mp hclear
      exact not_isPrefix_nodeFailure instanceID
  rw [changes_eq, append_assoc, countP_append, countP_eq_zero.mpr hnone, Nat.add_zero,
    countP_eq_length]
  exact fun change hmem => Str.hasPrefix_iff.mpr (of_mem_nodeStateChanges hmem)

end Cycle

/-- The markers track the leases exactly if the node state changes are within the total and
leave, with the instances before it, no room to clear a marker on an overlooked node. -/
theorem tracksLeases_iff (cycle : Cycle) : cycle.TracksLeases ↔
    cycle.stateChanges ≤ cycle.settings.maxTotalChangesPerCycle ∧
      ∀ instanceID ∈ cycle.cleanable, cycle.Overlooked (cycle.nodeOf instanceID) →
        cycle.settings.maxTotalChangesPerCycle ≤ cycle.stateChanges + cycle.failing +
          cycle.cleanable.countP (· < instanceID) := by
  have hdown : ∀ instanceID ∈ cycle.cleanable,
      (cycle.Down (cycle.nodeOf instanceID) ↔ cycle.Overlooked (cycle.nodeOf instanceID)) :=
    fun instanceID hmem => Cycle.down_iff (Cycle.of_mem_cleanable hmem).2
  constructor
  · intro h
    refine ⟨Cycle.length_changes_le_iff.mp h.total, fun instanceID hmem hoverlooked => ?_⟩
    by_contra hroom
    exact (h.cleared instanceID (Cycle.clearing_mem_iff.mpr ⟨hmem, not_le.mp hroom⟩)).2
      ((hdown instanceID hmem).mpr hoverlooked)
  · intro ⟨htotal, hclears⟩
    refine ⟨fun instanceID hmark => ?_, fun instanceID hclear => ?_,
      fun instanceID hmark hclear => ?_, Cycle.length_changes_le_iff.mpr htotal, ?_⟩
    · have hmarked := Cycle.of_marker_mem hmark
      exact ⟨hmarked.2, Or.inr (Cycle.get_judged.mp hmarked.1).1⟩
    · obtain ⟨hmem, hroom⟩ := Cycle.clearing_mem_iff.mp hclear
      refine ⟨(Cycle.of_mem_cleanable hmem).1, fun hoverlooked => ?_⟩
      exact not_lt.mpr (hclears instanceID hmem ((hdown instanceID hmem).mp hoverlooked)) hroom
    · exact (Cycle.of_mem_cleanable (Cycle.clearing_mem_iff.mp hclear).1).2
        (Cycle.get_judged.mp (Cycle.of_marker_mem hmark).1)
    · rw [Cycle.countP_changes]
      exact length_take_le _ _

/-- The marker of an instance on an unreachable node whose lease is gone. -/
def markedCycle : Cycle where
  settings := .new
  currentTime := ⟨0, by decide, by decide⟩
  facts := [(keyDerivedInstanceNodeFailure (lit "web-0"), lit "true"),
    (keyObservedNodeState (lit "n"), nodeUnreachable),
    (keyPlacementInstance (lit "web-0"), lit "n")].map (fun entry => ⟨entry.1, entry.2, 1, 1, 0⟩)

/-- It is cleared although the node has not come back. -/
theorem marker_cleared_on_unreachable_node : clearing (lit "web-0") ∈ markedCycle.changes ∧
    markedCycle.nodeState (markedCycle.nodeOf (lit "web-0")) = nodeUnreachable ∧
    markedCycle.lease (markedCycle.nodeOf (lit "web-0")) = none := by
  decide +kernel

end CCattler.Controllers.NodeFailureController
