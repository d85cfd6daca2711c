import CCattler.Controllers.DrainBudget
import CCattler.Controllers.Runner

/-! # When a node counts as drained

A cycle skips the instances that carry an eviction marker of any node, so a node can
be marked as drained while such an instance is still active on it.
-/

namespace CCattler.Controllers.DrainController

open Go Store CCattler.Types List Map

section

variable (facts : List Fact) (nodeID : Str)

/-- The running, pending and starting instances placed on a node. -/
def activeOn : List Str :=
  (parsePlacementsByNode facts).sortedKeys.filter (fun instanceID =>
    decide ((parsePlacementsByNode facts).get instanceID [] = nodeID) &&
      isActiveInstanceState ((parseInstanceStates facts).get instanceID []))

def completion : Change := .put (keyDerivedNodeDrainComplete nodeID) (lit "true")

/-- A node is marked as drained only without active instances. -/
def Truthful : Prop :=
  ∀ nodeID ∈ (parseDrainingNodes facts).keys, completion nodeID ∈ reconcile facts →
    activeOn facts nodeID = []

end

section

variable {inputs : DrainInputs} {nodeID : Str} (hnode : Str.slash ∉ nodeID)

theorem mem_evictInstancesFromNode {counts : Map Int} {change : Change}
    (h : change ∈ (evictInstancesFromNode inputs nodeID counts).1) :
    ∃ instanceID, change.key = keyDerivedNodeDrainEvict nodeID instanceID := by
  revert h
  refine foldlRecOn (motive := fun acc : List Change × Map Int => change ∈ acc.1 →
    ∃ instanceID, change.key = keyDerivedNodeDrainEvict nodeID instanceID) _ _
    (fun hnone => absurd hnone not_mem_nil) ?_
  intro acc hacc service _ hmem
  unfold evictOneOfService at hmem
  split at hmem
  next => exact hacc hmem
  next instanceID _ _ =>
    split_ifs at hmem
    · rcases mem_append.mp hmem with hold | hnew
      · exact hacc hold
      · exact ⟨instanceID, congrArg Change.key (mem_singleton.mp hnew)⟩
    · exact hacc hmem

include hnode

/-- A step completes its own node only, once nothing is active there. -/
theorem completion_mem_drainNode {other : Str} (hother : Str.slash ∉ other)
    {acc : List Change × Map Int} : completion other ∈ (drainNode inputs acc nodeID).1 ↔
      completion other ∈ acc.1 ∨ (other = nodeID ∧ activeInstancesOnNode inputs nodeID = [] ∧
        inputs.drainCompleteMarkers.get nodeID false = false) := by
  have hevicted : completion other ∉ (evictInstancesFromNode inputs nodeID acc.2).1 := by
    intro hmem
    obtain ⟨instanceID, hkey⟩ := mem_evictInstancesFromNode hmem
    have hmarker := evictionMarker_evict hnode instanceID
    rw [← hkey, completion, Change.put, evictionMarker_complete hother] at hmarker
    cases hmarker
  have hcomplete : ∀ p : Prop, [Decidable p] → (completion other ∈
      (if p then [completion nodeID] else []) ↔ other = nodeID ∧ p) := by
    intro p _
    have hinj : completion other = completion nodeID ↔ other = nodeID :=
      ⟨fun heq => fieldKey_entity_injective (congrArg Change.key heq), congrArg completion⟩
    split_ifs with hp <;> simp [hp, hinj]
  rw [drainNode, mem_append, mem_append, or_iff_left_of_imp fun h => absurd h hevicted]
  exact or_congr Iff.rfl ((hcomplete _).trans (by rw [← length_eq_zero_iff]; rfl))

end

/-- A draining node is marked as drained if no instance on it is active and unmarked. -/
theorem completion_mem_reconcile {facts : List Fact} {nodeID : Str}
    (h : nodeID ∈ (parseDrainingNodes facts).keys) : completion nodeID ∈ reconcile facts ↔
      activeInstancesOnNode (inputs facts) nodeID = [] ∧
      (parseDrainCompleteMarkers facts).get nodeID false = false := by
  rw [reconcile, foldl_iff (p := fun acc : List Change × Map Int => completion nodeID ∈ acc.1)
    fun acc other hother => completion_mem_drainNode
      (slash_notMem_of_draining (mem_sortedKeys.mp hother)) (slash_notMem_of_draining h)]
  simp [mem_sortedKeys.mpr h, inputs]

/-- A draining node with active instances has an unmarked one or is marked as drained. -/
def EvictionsLeft (facts : List Fact) : Prop :=
  ∀ nodeID ∈ (parseDrainingNodes facts).keys,
    (parseDrainCompleteMarkers facts).get nodeID false = false → activeOn facts nodeID ≠ [] →
      ∃ instanceID ∈ activeOn facts nodeID,
        (parseDrainEvictionMarkers facts).get instanceID false = false

theorem truthful_iff {facts : List Fact} : Truthful facts ↔ EvictionsLeft facts := by
  refine forall₂_congr fun nodeID hdraining => ?_
  have hactive : activeInstancesOnNode (inputs facts) nodeID = [] ↔
      ∀ instanceID ∈ activeOn facts nodeID,
        (parseDrainEvictionMarkers facts).get instanceID false = true := by
    simp only [activeInstancesOnNode, activeOn, inputs, filter_eq_nil_iff, mem_filter,
      Bool.and_eq_true, Bool.not_eq_true', decide_eq_true_eq]
    grind
  rw [completion_mem_reconcile hdraining, hactive]
  grind

/-! ## Runs -/

/-- The controller as the runner sees it. -/
def drainController : Controller Unit where
  name := lit "drain"
  watch := watch
  reconcile := fun state facts => (.ok (reconcile facts), state)
  reconcileDelta := none
  executePostCommitOperations := none

/-- Somebody calls the store, or the runner makes an attempt, among calls of others. -/
inductive DrainStep where
  | call (operation : Operation)
  | cycle (runner : Runner) (interference : Interference)

def DrainStep.applyTo (store : MemoryStore) : DrainStep → MemoryStore
  | .call operation => store.run [operation]
  | .cycle runner interference =>
    (runner.attemptSingleReconciliation drainController () store [] interference).store

/-- The facts that an attempt hands to the controller, unless a scan fails. -/
def factsRead (store : MemoryStore) (interference : Interference) : Option (List Fact) :=
  (scanFactsForController store watch interference.beforeScan).2.toOption.map
    interference.sortFacts.sort

/-- A property of what a cycle reads holds in every cycle of a run. -/
def InEveryCycle (property : List Fact → Prop) : MemoryStore → List DrainStep → Prop
  | _, [] => True
  | store, .call operation :: rest =>
    InEveryCycle property (DrainStep.applyTo store (.call operation)) rest
  | store, .cycle runner interference :: rest =>
    (∀ facts ∈ factsRead store interference, property facts) ∧
      InEveryCycle property (DrainStep.applyTo store (.cycle runner interference)) rest

theorem inEveryCycle_congr {property other : List Fact → Prop}
    (h : ∀ facts, property facts ↔ other facts) {store : MemoryStore} {steps : List DrainStep} :
    InEveryCycle property store steps ↔ InEveryCycle other store steps := by
  induction steps generalizing store with
  | nil => exact Iff.rfl
  | cons step rest ih =>
    cases step with
    | call operation => exact ih
    | cycle runner interference => exact and_congr (forall₂_congr fun facts _ => h facts) ih

/-- Completion is truthful in the cycles of a run exactly if none of them reads an unmarked
draining node whose active instances are all marked for eviction. -/
theorem drain_truthful_iff (store : MemoryStore) (steps : List DrainStep) :
    InEveryCycle Truthful store steps ↔ InEveryCycle EvictionsLeft store steps :=
  inEveryCycle_congr fun _ => truthful_iff

/-- `web-0` runs on a draining node, is marked for eviction by a cycle, and then runs on
another draining node. -/
def replacedRun : List DrainStep :=
  [.call (.put (lit "observed/instance/web-0/service") (lit "web")),
    .call (.put (lit "observed/instance/web-0/state") instanceRunning),
    .call (.put (lit "observed/node/m/state") nodeDraining),
    .call (.put (lit "placement/instance/web-0") (lit "m")), .cycle Runner.new .none,
    .call (.put (lit "observed/node/n/state") nodeDraining),
    .call (.put (lit "placement/instance/web-0") (lit "n")), .cycle Runner.new .none]

/-- The marker of the first node hides the instance on the second. -/
theorem replaced_instance_ignored : ¬InEveryCycle Truthful MemoryStore.new replacedRun := by
  intro h
  have hread : ∃ facts ∈ factsRead ((replacedRun.take 7).foldl DrainStep.applyTo .new) .none,
      lit "n" ∈ (parseDrainingNodes facts).keys ∧ completion (lit "n") ∈ reconcile facts ∧
        activeOn facts (lit "n") = [lit "web-0"] := by
    decide +kernel
  obtain ⟨facts, hfacts, hnode, hcompletion, hactive⟩ := hread
  have hnone := h.2.1 facts hfacts (lit "n") hnode hcompletion
  rw [hactive] at hnone
  cases hnone

end CCattler.Controllers.DrainController
