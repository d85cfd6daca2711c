import CCattler.Controllers.ClusterAutoscale
import CCattler.Controllers.InstanceFacts

/-! # What one cycle of the cluster autoscaler requests

The requests of a cycle in closed form, when it writes no key twice, and when its
removals leave as many nodes as are configured.
-/

namespace CCattler.Controllers.ClusterAutoscaleController

open Go Store CCattler.Types List Map

variable (codec : JSONCodec CapacityRequestRequirements) (facts : List Fact)

/-! ## The loops in closed form -/

/-- The instances without a request for which the cycle makes one. -/
def requestedInstances : List Str :=
  let existingRequests := extractCapacityRequests codec facts
  let demand := filterInsufficientCapacityDemand (extractUnplacedDemand codec facts)
  let availableSlots := wrap64 ((clusterConfig facts).maxNodes -
    (countAliveAutoNodes (extractClusterNodeStates facts) +
      countInFlightCapacityRequests existingRequests : Nat))
  (demand.sortedKeys.filter (fun instanceID => !existingRequests.has instanceID)).take
    availableSlots.toNat

/-- The idle nodes that are not yet being removed. -/
def removableNodes : List Str :=
  (findIdleAutoNodes (extractClusterNodeStates facts) (countInstancesPerNode facts)).filter
    (fun nodeID => !(pendingRemovals (extractCapacityRequests codec facts)).get nodeID false)

def minNodes : Int := (clusterConfig facts).minNodes

/-- The nodes for which the cycle makes a removal request. -/
def removedNodes : List Str :=
  if minNodes facts ≤ 0 then []
  else (removableNodes codec facts).take
    (countAliveNodes (extractClusterNodeStates facts) - minNodes facts).toNat

/-- The requests that are done. -/
def finishedRequests : List Str :=
  let existingRequests := extractCapacityRequests codec facts
  existingRequests.sortedKeys.filter (fun requestID =>
    let state := (existingRequests.get requestID .zero).state
    decide (state = capacityRequestReady ∨ state = capacityRequestFailed))

variable {codec facts}

theorem newCapacityRequests_eq (demand : Map UnplacedDemandEntry) (covered : Map Bool)
    (maxNew : Nat) (instanceIDs : List Str) :
    newCapacityRequests codec demand covered maxNew instanceIDs =
      ((instanceIDs.filter (fun instanceID => !covered.get instanceID false)).take maxNew).flatMap
        (fun instanceID => buildCapacityRequestChanges codec instanceID
          (demand.get instanceID .zero).requirements) := by
  induction instanceIDs generalizing maxNew with
  | nil => cases maxNew <;> rfl
  | cons instanceID rest ih =>
    cases maxNew with
    | zero => rfl
    | succ maxNew =>
      rw [newCapacityRequests, ih, ih]
      by_cases hcovered : covered.get instanceID false <;> simp [hcovered]

/-- The first nodes are removed, down to the minimum. -/
theorem removalRequests_eq (pending : Map Bool) (minNodes aliveCount : Int) (nodeIDs : List Str) :
    removalRequests pending minNodes aliveCount nodeIDs =
      ((nodeIDs.filter (fun nodeID => !pending.get nodeID false)).take
        (aliveCount - minNodes).toNat).flatMap buildRemovalRequestChanges := by
  induction nodeIDs generalizing aliveCount with
  | nil => simp [removalRequests]
  | cons nodeID rest ih =>
    rw [removalRequests, ih, ih]
    split_ifs with hfloor hpending
    · simp [show (aliveCount - minNodes).toNat = 0 by omega]
    · simp [hpending]
    · rw [filter_cons_of_pos (by simpa using hpending),
        show (aliveCount - minNodes).toNat = (aliveCount - 1 - minNodes).toNat + 1 by omega,
        take_succ_cons, flatMap_cons]

theorem get_collectCoveredInstances (requests : Map CapacityRequestInfo) (instanceID : Str) :
    (collectCoveredInstances requests).get instanceID false = requests.has instanceID := by
  rw [Bool.eq_iff_iff, collectCoveredInstances, foldl_iff (p := fun covered : Map Bool =>
    covered.get instanceID false = true) (q := (instanceID = ·)) fun _ _ _ => get_set_true]
  simp [Map.get]

theorem reconcile_requests : reconcile codec facts =
    (requestedInstances codec facts).flatMap (fun instanceID =>
        buildCapacityRequestChanges codec instanceID ((filterInsufficientCapacityDemand
          (extractUnplacedDemand codec facts)).get instanceID .zero).requirements) ++
      (removedNodes codec facts).flatMap buildRemovalRequestChanges ++
      (finishedRequests codec facts).flatMap deleteCapacityRequest := by
  refine congrArg₂ (· ++ ·) (congrArg₂ (· ++ ·) ?_ ?_) ?_
  · rw [emitScaleUpRequests, requestedInstances]
    simp only [buildNewCapacityRequests, newCapacityRequests_eq, get_collectCoveredInstances]
    split_ifs with hnone hslots
    · rw [Map.sortedKeys, length_eq_zero_iff.mp hnone]
      simp [sortStrings]
    · rw [Int.toNat_of_nonpos hslots]
      simp
    · rfl
  · rw [emitScaleDownRequests, removedNodes, removalRequests_eq, minNodes]
    split_ifs <;> rfl
  · exact flatMap_ite _ _ _

/-! ## Keys -/

theorem mem_requestedInstances {instanceID : Str}
    (h : instanceID ∈ requestedInstances codec facts) : Str.slash ∉ instanceID ∧
      instanceID ∉ (extractCapacityRequests codec facts).keys := by
  obtain ⟨hdemand, hnew⟩ := mem_filter.mp (mem_of_mem_take h)
  have hfiltered : instanceID ∈ (extractUnplacedDemand codec facts).keys := by
    have hmem := mem_sortedKeys.mp hdemand
    revert hmem
    refine foldlRecOn (motive := fun filtered : Map UnplacedDemandEntry =>
      instanceID ∈ filtered.keys → instanceID ∈ _) _ _ (fun hnone => absurd hnone not_mem_nil) ?_
    intro filtered hfiltered key hkey hmem
    dsimp only at hmem
    split_ifs at hmem
    · rcases mem_keys_set.mp hmem with rfl | hold
      · exact hkey
      · exact hfiltered hold
    · exact hfiltered hmem
  refine ⟨slash_notMem_of_mem_foldl (fun m entity suffix fact => mem_keys_update.mp) hfiltered, ?_⟩
  simpa [← has_eq_true] using hnew

variable {nodeID : Str}

/-- Only idle nodes that were added automatically can go. -/
theorem mem_removableNodes : nodeID ∈ removableNodes codec facts ↔
    (nodeID ∈ (extractClusterNodeStates facts).keys ∧
      (extractClusterNodeStates facts).get nodeID [] = nodeAlive) ∧
      (nodeID.hasPrefix (lit "auto-node-") = true ∧
        (countInstancesPerNode facts).get nodeID 0 = 0) ∧
      (pendingRemovals (extractCapacityRequests codec facts)).get nodeID false = false := by
  simp only [removableNodes, findIdleAutoNodes, sortStrings, mem_filter, mem_insertionSort,
    Bool.and_eq_true, decide_eq_true_eq, Bool.not_eq_true']
  tauto

theorem removedNodes_sublist : (removedNodes codec facts).Sublist (removableNodes codec facts) := by
  rw [removedNodes]
  split_ifs
  · exact nil_sublist _
  · exact take_sublist _ _

theorem nodup_removedNodes : (removedNodes codec facts).Nodup := by
  refine removedNodes_sublist.nodup (Nodup.filter _ ?_)
  exact (perm_insertionSort _ _).nodup_iff.mpr ((extractClusterNodeStates facts).nodupKeys.filter _)

theorem slash_notMem_removalID (h : nodeID ∈ removedNodes codec facts) :
    Str.slash ∉ lit "remove-" ++ nodeID := by
  rw [mem_append, not_or]
  refine ⟨by decide, ?_⟩
  refine slash_notMem_of_mem_foldl (fun m entity suffix fact hmem => ?_)
    (mem_removableNodes.mp (removedNodes_sublist.subset h)).1.1
  split_ifs at hmem
  · exact mem_keys_set.mp hmem
  · exact Or.inr hmem

theorem nodup_requestIDs : (requestedInstances codec facts ++
      (removedNodes codec facts).map (lit "remove-" ++ ·) ++ finishedRequests codec facts).Nodup ↔
      ∀ requestID ∈ (removedNodes codec facts).map (lit "remove-" ++ ·),
        requestID ∉ requestedInstances codec facts ∧ requestID ∉ finishedRequests codec facts := by
  have hfinished : ∀ requestID ∈ finishedRequests codec facts,
      requestID ∈ (extractCapacityRequests codec facts).keys :=
    fun requestID hmem => mem_sortedKeys.mp (mem_filter.mp hmem).1
  have hrequested : (requestedInstances codec facts).Nodup :=
    (((sortedKeys_pairwise _).nodup).filter _).sublist (take_sublist _ _)
  have hremovals : ((removedNodes codec facts).map (lit "remove-" ++ ·)).Nodup :=
    nodup_removedNodes.map (append_right_injective _)
  have hdone : (finishedRequests codec facts).Nodup := (sortedKeys_pairwise _).nodup.filter _
  simp only [nodup_append', hrequested, hremovals, hdone, true_and,
    disjoint_append_left]
  constructor
  · intro ⟨hup, _, hdown⟩ requestID hmem
    exact ⟨fun hrequest => hup hrequest hmem, hdown hmem⟩
  · intro h
    refine ⟨fun requestID hrequest hmem => (h requestID hmem).1 hrequest, ?_,
      fun requestID hmem => (h requestID hmem).2⟩
    intro requestID hrequest hmem
    exact (mem_requestedInstances hrequest).2 (hfinished requestID hmem)

/-- No key is written twice exactly if the request for the removal of a node has the ID
of no finished request and of no instance that gets one. -/
theorem nodup_keys_iff (codec : JSONCodec CapacityRequestRequirements) (facts : List Fact) :
    ((reconcile codec facts).map Change.key).Nodup ↔
      ∀ requestID ∈ (removedNodes codec facts).map (lit "remove-" ++ ·),
        requestID ∉ requestedInstances codec facts ∧ requestID ∉ finishedRequests codec facts := by
  let entries : List (Str × List Str) :=
    (requestedInstances codec facts).map
        (fun instanceID => (instanceID, [lit "state", lit "requirements", lit "reason"])) ++
      (removedNodes codec facts).map
        (fun nodeID => (lit "remove-" ++ nodeID, [lit "state", lit "node_id", lit "reason"])) ++
      (finishedRequests codec facts).map
        (fun requestID =>
          (requestID, [lit "state", lit "requirements", lit "reason", lit "node_id"]))
  have hkeys : (reconcile codec facts).map Change.key = entries.flatMap
      (fun entry => entry.2.map (fieldKey scanDerivedCapacityRequests entry.1)) := by
    simp only [reconcile_requests, entries, map_append, flatMap_append, map_flatMap, flatMap_map]
    rfl
  have hids : entries.map Prod.fst = requestedInstances codec facts ++
      (removedNodes codec facts).map (lit "remove-" ++ ·) ++ finishedRequests codec facts := by
    simp [entries, Function.comp_def]
  rw [hkeys, @nodup_flatMap_fieldKey _ (lit "state"), hids, nodup_requestIDs]
  simp only [entries, mem_append, mem_map]
  rintro entry ((⟨instanceID, hmem, rfl⟩ | ⟨nodeID, hmem, rfl⟩) | ⟨requestID, hmem, rfl⟩)
  · exact ⟨(mem_requestedInstances hmem).1, by dsimp only; decide, mem_cons_self⟩
  · exact ⟨slash_notMem_removalID hmem, by dsimp only; decide, mem_cons_self⟩
  · refine ⟨?_, by dsimp only; decide, mem_cons_self⟩
    exact slash_notMem_of_mem_foldl (fun m entity suffix fact => mem_keys_update.mp)
      (mem_sortedKeys.mp (mem_filter.mp hmem).1)

/-- The facts of a cluster with capacity requests and alive nodes. -/
def clusterFacts (requests : List (Str × Str)) (minimum : Str) (nodeIDs : List Str) : List Fact :=
  (requests ++ (keyDesiredClusterAutoscaleMinNodes, minimum) ::
    nodeIDs.map (fun nodeID => (keyObservedNodeState nodeID, nodeAlive))).map
      (fun entry => ⟨entry.1, entry.2, 1, 1, 0⟩)

/-- The removal of an idle node is requested again while its failed request is deleted. -/
theorem failed_removal_written_twice : ¬ ((reconcile ⟨fun _ => none, fun _ => none⟩
      (clusterFacts [(keyDerivedCapacityRequestState (lit "remove-auto-node-1"),
        capacityRequestFailed)] (lit "1") [lit "auto-node-1", lit "n"])).map Change.key).Nodup := by
  decide +kernel

/-! ## The floor -/

section

variable (codec : JSONCodec CapacityRequestRequirements) (facts : List Fact)

def aliveNodes : List Str :=
  (extractClusterNodeStates facts).keys.filter
    (fun nodeID => decide ((extractClusterNodeStates facts).get nodeID [] = nodeAlive))

/-- A removal request for the node is outstanding. -/
def BeingRemoved (nodeID : Str) : Prop :=
  let existingRequests := extractCapacityRequests codec facts
  ∃ requestID ∈ existingRequests.keys, nodeID ≠ [] ∧
    (existingRequests.get requestID .zero).state = capacityRequestRemoving ∧
    (existingRequests.get requestID .zero).nodeID = nodeID

instance (nodeID : Str) : Decidable (BeingRemoved codec facts nodeID) :=
  inferInstanceAs (Decidable (∃ requestID ∈ _, _))

/-- The alive nodes that no outstanding request removes. -/
def stayingNodes : List Str :=
  (aliveNodes facts).filter (fun nodeID => ¬ BeingRemoved codec facts nodeID)

/-- Those that the requests of the cycle do not remove either. -/
def keptNodes : List Str :=
  (stayingNodes codec facts).filter (fun nodeID =>
    ¬ ∀ change ∈ buildRemovalRequestChanges nodeID, change ∈ reconcile codec facts)

/-- The removals leave the configured number of nodes, or all there were. -/
def KeepsFloor : Prop :=
  min (minNodes facts) (stayingNodes codec facts).length ≤ (keptNodes codec facts).length

instance : Decidable (KeepsFloor codec facts) :=
  inferInstanceAs (Decidable (_ ≤ _))

end

theorem get_pendingRemovals :
    (pendingRemovals (extractCapacityRequests codec facts)).get nodeID false = true ↔
      BeingRemoved codec facts nodeID := by
  let requests := extractCapacityRequests codec facts
  rw [pendingRemovals, foldl_iff (p := fun pending : Map Bool => pending.get nodeID false = true)
    (q := fun requestID => nodeID ≠ [] ∧
      (requests.get requestID .zero).state = capacityRequestRemoving ∧
      (requests.get requestID .zero).nodeID = nodeID)]
  · simp [BeingRemoved, Map.get, requests]
  · intro pending requestID _
    dsimp only
    split_ifs with hremoving
    · rw [get_set_true]
      grind
    · grind

theorem mem_removedNodes_iff : nodeID ∈ removedNodes codec facts ↔
    ∀ change ∈ buildRemovalRequestChanges nodeID, change ∈ reconcile codec facts := by
  rw [reconcile_requests]
  constructor
  · intro hmem change hchange
    exact mem_append_left _ (mem_append_right _ (mem_flatMap.mpr ⟨nodeID, hmem, hchange⟩))
  · intro h
    -- only a removal request puts a node ID, and its value tells the node
    have hchange := h ⟨.put, keyDerivedCapacityRequestNodeID (lit "remove-" ++ nodeID), nodeID,
      lit "cap-rm-" ++ nodeID⟩ (by simp [buildRemovalRequestChanges, groupedChanges, Change.put])
    simp only [mem_append, mem_flatMap, buildCapacityRequestChanges, buildRemovalRequestChanges,
      deleteCapacityRequest, groupedChanges, Change.delete, map_cons, map_nil, mem_cons,
      not_mem_nil, or_false, Change.mk.injEq] at hchange
    have hfield : ∀ {requestID field : Str}, Str.slash ∉ requestID → Str.slash ∉ field →
        lit "node_id" ≠ field → keyDerivedCapacityRequestNodeID (lit "remove-" ++ nodeID) ≠
          fieldKey scanDerivedCapacityRequests requestID field :=
      fun hslash hfield hne heq => hne ((fieldKey_eq_iff hslash hfield).mp heq).2
    rcases hchange with (⟨instanceID, hmem, hreq⟩ | ⟨other, hmem, hrm⟩) | ⟨requestID, -, hdel⟩
    · have hslash := (mem_requestedInstances hmem).1
      rcases hreq with h | h | h <;>
        exact absurd h.2.1 (hfield hslash (by decide) (by decide))
    · have hslash := slash_notMem_removalID hmem
      rcases hrm with h | h | h
      · exact absurd h.2.1 (hfield hslash (by decide) (by decide))
      · rw [h.2.2.1]
        exact hmem
      · exact absurd h.2.1 (hfield hslash (by decide) (by decide))
    · simp at hdel

theorem mem_stayingNodes_of_removed (h : nodeID ∈ removedNodes codec facts) :
    nodeID ∈ stayingNodes codec facts := by
  have hremovable := mem_removableNodes.mp (removedNodes_sublist.subset h)
  refine mem_filter.mpr ⟨mem_filter.mpr ⟨hremovable.1.1, by simpa using hremovable.1.2⟩, ?_⟩
  simp [← get_pendingRemovals, hremovable.2.2]

theorem nodup_stayingNodes : (stayingNodes codec facts).Nodup :=
  ((extractClusterNodeStates facts).nodupKeys.filter _).filter _

theorem length_keptNodes : (keptNodes codec facts).length + (removedNodes codec facts).length =
    (stayingNodes codec facts).length := by
  have hremoved : ((stayingNodes codec facts).filter
      (· ∈ removedNodes codec facts)).Perm (removedNodes codec facts) := by
    refine (perm_ext_iff_of_nodup (nodup_stayingNodes.filter _) nodup_removedNodes).mpr ?_
    intro nodeID
    simp only [mem_filter, decide_eq_true_eq, and_iff_right_iff_imp]
    exact mem_stayingNodes_of_removed
  have hsum := length_eq_length_filter_add (l := stayingNodes codec facts)
    (· ∈ removedNodes codec facts)
  simp only [keptNodes, ← mem_removedNodes_iff, ← hremoved.length_eq]
  simp only [← decide_not] at hsum
  omega

/-- The floor is kept exactly if nothing is removed, or no removal is outstanding, or all
idle nodes can go. -/
theorem keepsFloor_iff (codec : JSONCodec CapacityRequestRequirements) (facts : List Fact)
    (hmin : 1 ≤ minNodes facts) : KeepsFloor codec facts ↔
      (aliveNodes facts).length ≤ minNodes facts ∨ removableNodes codec facts = [] ∨
      stayingNodes codec facts = aliveNodes facts ∨
      minNodes facts + (removableNodes codec facts).length ≤ (stayingNodes codec facts).length := by
  have hlength := @length_keptNodes codec facts
  have halive : countAliveNodes (extractClusterNodeStates facts) = (aliveNodes facts).length :=
    countP_eq_length_filter
  have hremoved : (removedNodes codec facts).length =
      min ((aliveNodes facts).length - minNodes facts).toNat
        (removableNodes codec facts).length := by
    rw [removedNodes, if_neg (by omega), length_take, halive]
  have hsublist : (stayingNodes codec facts).Sublist (aliveNodes facts) := filter_sublist
  have hle := hsublist.length_le
  have hall : stayingNodes codec facts = aliveNodes facts ↔
      (stayingNodes codec facts).length = (aliveNodes facts).length :=
    ⟨congrArg List.length, hsublist.eq_of_length⟩
  rw [KeepsFloor, hall, ← length_eq_zero_iff]
  omega

/-- While one of three nodes is being removed, a second goes where two should stay. -/
theorem floor_undercut : let codec : JSONCodec CapacityRequestRequirements :=
      ⟨fun _ => none, fun _ => none⟩
    let facts := clusterFacts
      [(keyDerivedCapacityRequestNodeID (lit "remove-auto-node-1"), lit "auto-node-1"),
        (keyDerivedCapacityRequestState (lit "remove-auto-node-1"), capacityRequestRemoving)]
      (lit "2") [lit "auto-node-1", lit "auto-node-2", lit "n"]
    minNodes facts = 2 ∧ stayingNodes codec facts = [lit "n", lit "auto-node-2"] ∧
      keptNodes codec facts = [lit "n"] ∧ ¬ KeepsFloor codec facts := by
  decide +kernel

/-- Of two nodes one may go. -/
theorem floor_kept : let codec : JSONCodec CapacityRequestRequirements :=
      ⟨fun _ => none, fun _ => none⟩
    let facts := clusterFacts [] (lit "1") [lit "auto-node-1", lit "n"]
    1 ≤ minNodes facts ∧ KeepsFloor codec facts :=
  ⟨by decide +kernel, (keepsFloor_iff _ _ (by decide +kernel)).mpr (by decide +kernel)⟩

end CCattler.Controllers.ClusterAutoscaleController
