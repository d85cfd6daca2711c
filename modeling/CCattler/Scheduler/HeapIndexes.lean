import CCattler.Scheduler.NodeHeap

/-! # Positions recorded in the node heap

Every swap records positions, but the slice is filled without one. Positions that are
right stay right, and those of the entries that `Init` does not move are wrong.
-/

namespace CCattler.Scheduler

open Go List

namespace NodeCapacityCache

/-- The calls that change a cache. -/
inductive Call where
  | recordPlacement (nodeID : Str) (cpuCost memoryCost : Int)
  | removeNode (nodeID : Str)

section

variable (cache : NodeCapacityCache)

def perform : Call → NodeCapacityCache
  | .recordPlacement nodeID cpuCost memoryCost => cache.recordPlacement nodeID cpuCost memoryCost
  | .removeNode nodeID => cache.removeNode nodeID

/-- Every entry of the map has position `-1` and is not in the slice, or is in the slice at
the position it records. -/
def IndexesRight : Prop :=
  ∀ nodeID ∈ cache.lookupMap.keys, ∃ entry, cache.lookup nodeID = some entry ∧
    ((entry.heapIndex = -1 ∧ ∀ other ∈ cache.heapData, other.preferRank ≠ entry.preferRank) ∨
      ∃ index : Nat, entry.heapIndex = index ∧ cache.heapData[index]? = some entry)

end

/-- Of the entries that the map names, `Init` moves all but the one it leaves in front. -/
def InitMovesNamed (entries : List NodeHeapEntry) : Prop :=
  ∀ moved ∈ (Heap.moves nodeSelectionHeap entries).tail, ∀ nodeID,
    (Scheduler.lookupMap entries).lookup nodeID = some moved.1.preferRank → moved.2 = true

/-! ## What the calls keep -/

def ranks (items : List NodeHeapEntry) : List Nat := items.map (·.preferRank)

variable {named : Map Nat} {items : List NodeHeapEntry}

/-- The entries that a map names record their own positions. -/
def Recorded (named : Map Nat) (items : List NodeHeapEntry) : Prop :=
  ∀ (index : Nat) (entry : NodeHeapEntry), items[index]? = some entry →
    ∀ nodeID, named.lookup nodeID = some entry.preferRank → entry.heapIndex = index

theorem Recorded.place (h : Recorded named items) (place : Nat) (entry : NodeHeapEntry) :
    Recorded named (items.set place (nodeSelectionHeap.place place entry)) := by
  intro index found hfound
  rw [getElem?_set] at hfound
  split at hfound
  next heq =>
    subst heq
    split at hfound <;> cases hfound
    exact fun _ _ => rfl
  next => exact h index found hfound

theorem Recorded.dropLast (h : Recorded named items) : Recorded named items.dropLast := by
  intro index entry hentry
  rw [getElem?_dropLast] at hentry
  split at hentry
  · exact h index entry hentry
  · cases hentry

theorem ranks_swap_perm (items : List NodeHeapEntry) (first second : Nat) :
    (ranks (Heap.swap nodeSelectionHeap items first second)).Perm (ranks items) :=
  Heap.map_swap_perm nodeSelectionHeap (fun _ _ => rfl) items first second

/-- A slice of recorded positions whose entries are those of another one. -/
structure Rearranged (named : Map Nat) (start items : List NodeHeapEntry) : Prop where
  recorded : Recorded named items
  perm : (ranks items).Perm (ranks start)

theorem Rearranged.swap {start : List NodeHeapEntry} (items : List NodeHeapEntry)
    (first second : Nat) (h : Rearranged named start items) :
    Rearranged named start (Heap.swap nodeSelectionHeap items first second) := by
  refine ⟨?_, (ranks_swap_perm items first second).trans h.perm⟩
  unfold Heap.swap
  split
  · exact (h.recorded.place _ _).place _ _
  · exact h.recorded

/-- The entries of the map are all there, and record where they are. -/
structure Indexed (cache : NodeCapacityCache) : Prop where
  recorded : Recorded cache.lookupMap cache.heapData
  removed : ∀ entry ∈ cache.popped, entry.heapIndex = -1
  reached : ∀ nodeID rank, cache.lookupMap.lookup nodeID = some rank →
    rank ∈ ranks cache.heapData ++ ranks cache.popped

section

variable {cache : NodeCapacityCache} (h : Indexed cache)
include h

theorem Indexed.charge (preferRank : Nat) (cpuCost memoryCost : Int) :
    Indexed (cache.charge preferRank cpuCost memoryCost) := by
  have hranks : ranks (cache.charge preferRank cpuCost memoryCost).heapData =
      ranks cache.heapData := by
    simp only [ranks, NodeCapacityCache.charge, map_map]
    refine map_congr_left fun entry _ => ?_
    simp only [Function.comp_apply]
    split <;> rfl
  refine ⟨fun index entry hentry => ?_, h.removed, hranks ▸ h.reached⟩
  simp only [NodeCapacityCache.charge, getElem?_map] at hentry
  obtain ⟨other, hother, rfl⟩ := Option.map_eq_some_iff.mp hentry
  have hrecorded := h.recorded index other hother
  split <;> exact hrecorded

theorem Indexed.fix (index : Nat) : Indexed (cache.fix index) := by
  have hfix := Heap.fix_induction Rearranged.swap (⟨h.recorded, .refl _⟩ :
    Rearranged cache.lookupMap cache.heapData cache.heapData) index
  refine ⟨hfix.recorded, h.removed, fun nodeID rank hrank => ?_⟩
  simpa [hfix.perm.mem_iff, NodeCapacityCache.fix] using h.reached nodeID rank hrank

theorem Indexed.remove (index : Nat) : Indexed (cache.remove index) := by
  obtain ⟨moved, hmoved, hremove⟩ := Heap.exists_remove Rearranged.swap (⟨h.recorded, .refl _⟩ :
    Rearranged cache.lookupMap cache.heapData cache.heapData) index
  simp only [NodeCapacityCache.remove, hremove]
  refine ⟨hmoved.recorded.dropLast, fun entry hentry => ?_, fun nodeID rank hrank => ?_⟩
  · rcases mem_append.mp hentry with hentry | hentry
    · exact h.removed entry hentry
    · obtain ⟨last, -, rfl⟩ := Option.map_eq_some_iff.mp (Option.mem_toList.mp hentry)
      rfl
  · have hreached := h.reached nodeID rank hrank
    rw [mem_append, ← hmoved.perm.mem_iff] at hreached
    obtain rfl | ⟨front, last, rfl⟩ := eq_nil_or_concat moved
    · simpa [ranks] using hreached
    · simp only [ranks] at hreached ⊢
      grind

theorem Indexed.perform (call : Call) : Indexed (cache.perform call) := by
  cases call with
  | recordPlacement nodeID cpuCost memoryCost =>
    simp only [NodeCapacityCache.perform, recordPlacement]
    split
    · exact h
    next entry _ =>
      have hcharged := h.charge entry.preferRank cpuCost memoryCost
      split_ifs
      · exact h
      · exact hcharged.remove _
      · exact hcharged.fix _
  | removeNode nodeID =>
    simp only [NodeCapacityCache.perform, removeNode]
    split
    · exact h
    · split_ifs
      · exact h
      · exact h.remove _

theorem Indexed.indexesRight : cache.IndexesRight := by
  intro nodeID hnode
  obtain ⟨rank, hrank⟩ := Option.isSome_iff_exists.mp
    (AList.lookup_isSome.mpr (AList.mem_keys.mpr hnode))
  have hreached := h.reached nodeID rank hrank
  simp only [lookup, hrank, Option.bind_some, entry, find?_append]
  cases hfound : cache.heapData.find? fun entry => entry.preferRank = rank with
  | some entry =>
    obtain ⟨index, hindex⟩ := mem_iff_getElem?.mp (mem_of_find?_eq_some hfound)
    have hsame : entry.preferRank = rank := by simpa using find?_some hfound
    exact ⟨entry, rfl, .inr ⟨index, h.recorded index entry hindex nodeID (hsame ▸ hrank), hindex⟩⟩
  | none =>
    have habsent : ∀ other ∈ cache.heapData, other.preferRank ≠ rank := by
      simpa using hfound
    have hpopped : ∃ entry ∈ cache.popped, entry.preferRank = rank := by
      simp only [ranks, mem_append, mem_map] at hreached
      exact hreached.resolve_left fun ⟨other, hother, hsame⟩ => habsent other hother hsame
    obtain ⟨entry, hentry⟩ := Option.isSome_iff_exists.mp (find?_isSome.mpr
      (hpopped.imp fun entry hentry => ⟨hentry.1, decide_eq_true hentry.2⟩))
    have hsame : entry.preferRank = rank := by simpa using find?_some hentry
    exact ⟨entry, hentry, .inl ⟨h.removed entry (mem_of_find?_eq_some hentry), hsame ▸ habsent⟩⟩

end

theorem recorded_of_indexesRight {cache : NodeCapacityCache}
    (hdistinct : (ranks cache.heapData).Nodup) (h : cache.IndexesRight) :
    Recorded cache.lookupMap cache.heapData := by
  intro index entry hindex nodeID hname
  obtain ⟨found, hfound, hright⟩ := h nodeID (Map.mem_keys_of_lookup hname)
  have hsame : found.preferRank = entry.preferRank := by
    rw [lookup, hname] at hfound
    simpa using find?_some hfound
  obtain ⟨-, habsent⟩ | ⟨place, hplace, hat⟩ := hright
  · exact absurd hsame.symm (habsent entry (mem_of_getElem? hindex))
  · have hentry := inj_on_of_nodup_map hdistinct (mem_of_getElem? hat) (mem_of_getElem? hindex)
      hsame
    subst hentry
    rw [hplace, (getElem?_inj (List.getElem?_eq_some_iff.mp hat).1 hdistinct.of_map).mp
      (hat.trans hindex.symm)]

/-! ## A new cache -/

theorem appendedEntries_fresh {candidates : List CandidateNode}
    {loadPerNode serviceInstancesPerNode : Map Int} {requiredCPU requiredMemory : Int} :
    let entries := appendedEntries candidates loadPerNode serviceInstancesPerNode requiredCPU
      requiredMemory
    (∀ entry ∈ entries, entry.heapIndex = 0) ∧ (ranks entries).Nodup := by
  constructor
  · intro entry hentry
    obtain ⟨⟨candidate, rank⟩, -, hfits⟩ := mem_filterMap.mp hentry
    dsimp only at hfits
    split at hfits <;> cases hfits
    rfl
  · have hindexes := nodup_range' (s := 0) (n := candidates.length)
    rw [← zipIdx_map_snd 0 candidates] at hindexes
    refine hindexes.sublist (map_filterMap_sublist ?_)
    rintro ⟨candidate, rank⟩ entry hentry
    dsimp only at hentry
    split at hentry <;> cases hentry
    rfl

variable {entries : List NodeHeapEntry}

/-- An entry of the filled slice as `Init` leaves it at a position. -/
def settle (index : Nat) (moved : NodeHeapEntry × Bool) : NodeHeapEntry :=
  { moved.1 with heapIndex := if moved.2 then index else 0 }

theorem init_eq_moves (h : ∀ entry ∈ entries, entry.heapIndex = 0) :
    Heap.init nodeSelectionHeap entries =
      (Heap.moves nodeSelectionHeap entries).mapIdx settle := by
  refine Eq.trans (congrArg (Heap.init nodeSelectionHeap) (ext_getElem? fun index => ?_))
    (Heap.init_mapIdx (f := settle) (fun _ _ _ _ => rfl) (fun _ _ _ => rfl)
      (entries.map (·, false)))
  rw [getElem?_mapIdx, getElem?_map]
  cases hentry : entries[index]? with
  | none => rfl
  | some entry =>
    have hzero := h entry (mem_of_getElem? hentry)
    cases entry
    simp_all [settle]

theorem recorded_init_iff (h : ∀ entry ∈ entries, entry.heapIndex = 0) :
    Recorded (Scheduler.lookupMap entries) (Heap.init nodeSelectionHeap entries) ↔
      InitMovesNamed entries := by
  rw [init_eq_moves h]
  constructor
  · intro hrecorded moved hmoved nodeID hname
    obtain ⟨index, hindex⟩ := mem_iff_getElem?.mp hmoved
    rw [getElem?_tail] at hindex
    have hplace := hrecorded (index + 1) (settle (index + 1) moved)
      (by rw [getElem?_mapIdx, hindex]; rfl) nodeID hname
    by_contra hstill
    rw [settle, if_neg hstill] at hplace
    exact Nat.succ_ne_zero index (Int.natCast_eq_zero.mp hplace.symm)
  · intro hmoves index entry hentry nodeID hname
    rw [getElem?_mapIdx] at hentry
    obtain ⟨moved, hmoved, rfl⟩ := Option.map_eq_some_iff.mp hentry
    cases index with
    | zero => simp [settle]
    | succ index =>
      rw [← getElem?_tail] at hmoved
      simp [settle, hmoves moved (mem_of_getElem? hmoved) nodeID hname]

theorem ranks_init_perm : (ranks (Heap.init nodeSelectionHeap entries)).Perm (ranks entries) :=
  Heap.init_induction (P := fun items => (ranks items).Perm (ranks entries))
    (fun items first second h => (ranks_swap_perm items first second).trans h) (.refl _)

theorem initMovesNamed_pair (first second : NodeHeapEntry) :
    InitMovesNamed [first, second] ↔ nodeHeapLess second first = true := by
  have hnamed : (Scheduler.lookupMap [first, second]).lookup second.node.id =
      some second.preferRank := by
    simp [Scheduler.lookupMap, Map.ofPairs, Map.lookup_set]
  cases hless : nodeHeapLess second first <;>
    simp [InitMovesNamed, Heap.moves, Heap.init, Heap.down, Heap.downFrom, Heap.smallerChild,
      Heap.lessAt, Heap.swap, Heap.Interface.marking, nodeSelectionHeap, hless]
  exact ⟨_, hnamed⟩

end NodeCapacityCache

end CCattler.Scheduler
