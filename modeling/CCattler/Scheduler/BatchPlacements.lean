import CCattler.Scheduler.Placement

/-! # Where a batch is placed

Whatever positions its entries record, a cache offers only the candidates it began with.
-/

namespace CCattler.Scheduler

open Go List NodeCapacityCache

def nodeIDs (items : List NodeHeapEntry) : List Str := items.map (·.node.id)

variable {ids : List Str}

theorem nodeIDs_swap (items : List NodeHeapEntry) (first second : Nat) (h : nodeIDs items ⊆ ids) :
    nodeIDs (Heap.swap nodeSelectionHeap items first second) ⊆ ids :=
  Subset.trans (Heap.map_swap_perm _ (fun _ _ => rfl) items first second).subset h

variable {cache : NodeCapacityCache} (nodeID : Str) (instanceIDs : List Str)
  (state : PlacementState)

section

variable (h : nodeIDs cache.heapData ⊆ ids)
include h

theorem nodeIDs_remove (index : Nat) : nodeIDs (cache.remove index).heapData ⊆ ids := by
  obtain ⟨moved, hmoved, hremove⟩ := Heap.exists_remove nodeIDs_swap h index
  simp only [NodeCapacityCache.remove, hremove]
  exact Subset.trans ((dropLast_sublist moved).map _).subset hmoved

theorem nodeIDs_recordPlacement (cpuCost memoryCost : Int) :
    nodeIDs (cache.recordPlacement nodeID cpuCost memoryCost).heapData ⊆ ids := by
  unfold recordPlacement
  split
  · exact h
  next entry _ =>
    have hcharged : nodeIDs (cache.charge entry.preferRank cpuCost memoryCost).heapData ⊆ ids := by
      grind [nodeIDs, charge, chargeEntry]
    split_ifs
    · exact h
    · exact nodeIDs_remove hcharged _
    · exact Heap.fix_induction nodeIDs_swap hcharged _

theorem nodeIDs_removeNode : nodeIDs (cache.removeNode nodeID).heapData ⊆ ids := by
  unfold removeNode
  split
  · exact h
  · split_ifs
    · exact h
    · exact nodeIDs_remove h _

theorem placeBatch_subset (batch : Batch) :
    (placeBatch batch instanceIDs cache state).1.map (·.nodeID) ⊆ ids := by
  induction instanceIDs generalizing cache state with
  | nil => simp [placeBatch]
  | cons instanceID rest ih =>
    simp only [placeBatch]
    split
    · simp
    next hfound =>
      refine cons_subset.mpr ⟨h ?_, ih _ ?_⟩
      · obtain ⟨entry, others, hdata⟩ := exists_cons_of_ne_nil (not_or.mp hfound).1
        grind [nodeIDs, Batch.selectNode, bestNodeInZones, bestNode, selectFromHeap]
      · split
        · exact nodeIDs_removeNode _ (nodeIDs_recordPlacement _ h _ _)
        · exact nodeIDs_recordPlacement _ h _ _

end

/-- A batch goes to live nodes that the rules of its service left and that had room. -/
theorem placeBatchedInstances_subset (inputs : PlacementInputs) (serviceName : Str) :
    let required := inputs.serviceResources.get serviceName ⟨0, 0⟩
    (placeBatchedInstances inputs serviceName instanceIDs state).1.map (·.nodeID) ⊆
      ((filterByConstraints state.alive serviceName inputs.placementConstraints).filter fun node =>
        !lacksCapacity required.cpu required.memory node).map (·.id) := by
  intro required
  refine placeBatch_subset instanceIDs state (Heap.init_induction nodeIDs_swap ?_) _
  intro id hid
  obtain ⟨entry, hentry, rfl⟩ := mem_map.mp hid
  obtain ⟨⟨node, rank⟩, hnode, hfits⟩ := mem_filterMap.mp hentry
  dsimp only at hfits
  split at hfits
  · cases hfits
  next hroom =>
    cases hfits
    refine mem_map_of_mem (mem_filter.mpr ⟨?_, by simpa [prepareBatch] using hroom⟩)
    have hnode := fst_mem_of_mem_zipIdx hnode
    simp only [prepareBatch, rankByPreferences, rankByAffinityHints,
      filterOutNodesAlreadyHostingService] at hnode
    split_ifs at hnode <;> simp_all [(sliceStable_perm _ _).mem_iff]

end CCattler.Scheduler
