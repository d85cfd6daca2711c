import CCattler.Go.Heap
import CCattler.Go.Map
import CCattler.Go.Strconv

/-! # The heap of candidate nodes

Nodes that can take an instance, by load and preference. An entry records its position
only when it is moved; one that never was keeps position zero. The entries of a cache are
shared by its slice and its map, and told apart by their rank.
-/

namespace CCattler.Scheduler

open Go

structure CandidateNode where
  id : Str
  availCPU : Int
  availMemory : Int
  architecture : Str
  zone : Str
  labels : Map Str
  restrictions : Map Str

/-- A candidate and its scores; its index is `-1` once it is removed. -/
structure NodeHeapEntry where
  node : CandidateNode
  serviceInstanceCount : Int
  loadScore : Int
  preferRank : Nat
  heapIndex : Int

def nodeHeapLess (first second : NodeHeapEntry) : Bool :=
  if first.serviceInstanceCount ≠ second.serviceInstanceCount then
    decide (first.serviceInstanceCount < second.serviceInstanceCount)
  else if first.loadScore ≠ second.loadScore then decide (first.loadScore < second.loadScore)
  else if first.preferRank ≠ second.preferRank then decide (first.preferRank < second.preferRank)
  else decide (first.node.id < second.node.id)

def nodeSelectionHeap : Heap.Interface NodeHeapEntry where
  less := nodeHeapLess
  place := fun index entry => { entry with heapIndex := index }

def lacksCapacity (requiredCPU requiredMemory : Int) (node : CandidateNode) : Bool :=
  decide ((requiredCPU > 0 ∧ node.availCPU < requiredCPU) ∨
    (requiredMemory > 0 ∧ node.availMemory < requiredMemory))

/-- The map from node IDs to entries; the last entry of an ID is kept. -/
def lookupMap (entries : List NodeHeapEntry) : Map Nat :=
  .ofPairs (entries.map fun entry => (entry.node.id, entry.preferRank))

section

variable (candidates : List CandidateNode) (loadPerNode serviceInstancesPerNode : Map Int)
  (requiredCPU requiredMemory : Int)

/-- The slice as the loop of `buildNodeHeap` fills it, with no position recorded. -/
def appendedEntries : List NodeHeapEntry :=
  candidates.zipIdx.filterMap (fun (candidate, candidateIndex) =>
    if lacksCapacity requiredCPU requiredMemory candidate then none
    else some
      { node := candidate
        serviceInstanceCount := serviceInstancesPerNode.get candidate.id 0
        loadScore := loadPerNode.get candidate.id 0
        preferRank := candidateIndex
        heapIndex := 0 })

def buildNodeHeap : List NodeHeapEntry × Map Nat :=
  let entries := appendedEntries candidates loadPerNode serviceInstancesPerNode requiredCPU
    requiredMemory
  (Heap.init nodeSelectionHeap entries, lookupMap entries)

end

def selectFromHeap (heapData : List NodeHeapEntry) : Str :=
  match heapData with
  | [] => []
  | entry :: _ => entry.node.id

/-- `popped` are the entries that only the map still reaches. -/
structure NodeCapacityCache where
  heapData : List NodeHeapEntry
  lookupMap : Map Nat
  popped : List NodeHeapEntry
  minimumCPU : Int
  minimumMemory : Int

namespace NodeCapacityCache

def new (candidates : List CandidateNode) (loadPerNode serviceInstancesPerNode : Map Int)
    (requiredCPU requiredMemory : Int) : NodeCapacityCache :=
  let (heapData, lookupMap) := buildNodeHeap candidates loadPerNode serviceInstancesPerNode
    requiredCPU requiredMemory
  { heapData := heapData
    lookupMap := lookupMap
    popped := []
    minimumCPU := requiredCPU
    minimumMemory := requiredMemory }

variable (cache : NodeCapacityCache)

def bestNode : Str := selectFromHeap cache.heapData

def zoneOf (node : CandidateNode) : Str :=
  if node.zone = [] then lit "_default" else node.zone

def bestNodeInZones (acceptableZones : Map Bool) : Str :=
  if acceptableZones.len = 0 then cache.bestNode
  -- the slice is ordered as a heap only, so this need not be the best of the zones
  else match cache.heapData.find?
      (fun entry => acceptableZones.get (zoneOf entry.node) false) with
    | some entry => entry.node.id
    | none => cache.bestNode

def entry (preferRank : Nat) : Option NodeHeapEntry :=
  (cache.heapData ++ cache.popped).find? (fun entry => entry.preferRank = preferRank)

/-- The entry that `lookupMap[nodeID]` points to. -/
def lookup (nodeID : Str) : Option NodeHeapEntry :=
  (cache.lookupMap.lookup nodeID).bind cache.entry

def chargeEntry (cpuCost memoryCost : Int) (entry : NodeHeapEntry) : NodeHeapEntry :=
  { entry with
    node := { entry.node with
      availCPU := wrap64 (entry.node.availCPU - cpuCost)
      availMemory := wrap64 (entry.node.availMemory - memoryCost) }
    loadScore := entry.loadScore + 1
    serviceInstanceCount := entry.serviceInstanceCount + 1 }

def charge (preferRank : Nat) (cpuCost memoryCost : Int) : NodeCapacityCache :=
  { cache with heapData := cache.heapData.map fun entry =>
      if entry.preferRank = preferRank then chargeEntry cpuCost memoryCost entry else entry }

/-- `heap.Fix` on the slice. -/
def fix (index : Nat) : NodeCapacityCache :=
  { cache with heapData := Heap.fix nodeSelectionHeap cache.heapData index }

/-- `heap.Remove` on the slice; `Pop` marks the entry it takes off the end. -/
def remove (index : Nat) : NodeCapacityCache :=
  let (heapData, last) := Heap.remove nodeSelectionHeap cache.heapData index
  { cache with
    heapData := heapData
    popped := cache.popped ++ (last.map fun entry => { entry with heapIndex := -1 }).toList }

def recordPlacement (nodeID : Str) (cpuCost memoryCost : Int) : NodeCapacityCache :=
  match cache.lookup nodeID with
  | none => cache
  | some entry =>
    if entry.heapIndex < 0 then cache
    else
      -- an entry that was never swapped has position zero recorded, wherever it is
      let charged := cache.charge entry.preferRank cpuCost memoryCost
      if lacksCapacity cache.minimumCPU cache.minimumMemory
          (chargeEntry cpuCost memoryCost entry).node then
        charged.remove entry.heapIndex.toNat
      else charged.fix entry.heapIndex.toNat

def removeNode (nodeID : Str) : NodeCapacityCache :=
  match cache.lookup nodeID with
  | none => cache
  | some entry => if entry.heapIndex < 0 then cache else cache.remove entry.heapIndex.toNat

end NodeCapacityCache

def selectLeastLoadedNode (alive : List CandidateNode) (load : Map Int)
    (requiredCPU requiredMemory : Int) : Str :=
  selectFromHeap (buildNodeHeap alive load ∅ requiredCPU requiredMemory).1

end CCattler.Scheduler
