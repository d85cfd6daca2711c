import CCattler.Controllers.Drain
import CCattler.Controllers.InstanceFacts

/-! # Draining under a disruption budget

The budget is checked against the instances that are running, pending or starting, so
the running ones among them can fall below it.
-/

namespace CCattler.Controllers.DrainController

open Go Store CCattler.Types List Map

/-! ## Markers -/

/-- The instance whose eviction a key marks, as `parseDrainEvictionMarkers` reads it. -/
def evictionMarker (key : Str) : Option Str :=
  match Str.splitN Str.slash 4 (key.trimPrefix scanDerivedNodes) with
  | [_, drain, evict, instanceID] =>
    if drain = lit "drain" ∧ evict = lit "evict" then some instanceID else none
  | _ => none

def evictions (changes : List Change) : List Str :=
  changes.filterMap (fun change => evictionMarker change.key)

section

variable {nodeID : Str} (hnode : Str.slash ∉ nodeID)

include hnode

theorem evictionMarker_evict (instanceID : Str) :
    evictionMarker (keyDerivedNodeDrainEvict nodeID instanceID) = some instanceID := by
  have hparts : Str.splitN Str.slash 4 (nodeID ++ Str.slash :: (lit "drain/evict/" ++ instanceID)) =
      [nodeID, lit "drain", lit "evict", instanceID] :=
    Str.splitN_four_iff.mpr ⟨rfl, hnode, by decide, by decide⟩
  rw [evictionMarker, keyDerivedNodeDrainEvict, fieldKey, Str.trimPrefix_append, hparts]
  rfl

theorem evictionMarker_complete : evictionMarker (keyDerivedNodeDrainComplete nodeID) = none := by
  rw [evictionMarker, keyDerivedNodeDrainComplete, fieldKey, Str.trimPrefix_append,
    Str.splitN_append hnode]
  rfl

end

/-! ## One service

Seen from one service the loop over the nodes spends the instances above the
minimum, at most one on each node.
-/

/-- One node's turn: the instances given up before and the number of active ones left. -/
def spend (minimum : Int) (acc : List Str × Int) (candidates : List Str) : List Str × Int :=
  let taken := candidates.take (acc.2 - minimum).toNat
  (acc.1 ++ taken, acc.2 - taken.length)

theorem foldl_spend (minimum : Int) (turns : List (List Str)) (acc : List Str × Int) :
    (turns.foldl (spend minimum) acc).1 = acc.1 ++ turns.flatten.take (acc.2 - minimum).toNat := by
  induction turns generalizing acc with
  | nil => simp
  | cons candidates rest ih =>
    have hleft : (acc.2 - (candidates.take (acc.2 - minimum).toNat).length - minimum).toNat =
        (acc.2 - minimum).toNat - candidates.length := by
      rw [length_take]
      omega
    rw [foldl_cons, ih, spend, hleft, flatten_cons, take_append, append_assoc]

section

variable (inputs : DrainInputs) (service : Str)

def ofService (instanceID : Str) : Bool :=
  decide (inputs.instanceServices.get instanceID [] = service)

def minAvailable : Int := (inputs.disruptionBudgets.get service ⟨0, 0⟩).minAvailable

/-- The instance that a service would lose to a node. -/
def candidates (nodeID : Str) : List Str :=
  ((activeInstancesOnNode inputs nodeID).filter (ofService inputs service)).take 1

/-- What the loop has done to a service. -/
def spent (acc : List Change × Map Int) : List Str × Int :=
  ((evictions acc.1).filter (ofService inputs service), acc.2.get service 0)

theorem get_activeInstancesByService (instances : List Str) :
    (activeInstancesByService inputs instances).get service [] =
      instances.filter (ofService inputs service) := by
  have hgather : activeInstancesByService inputs instances =
      gather (instances.map (fun id => (inputs.instanceServices.get id [], id))) := by
    rw [gather, foldl_map]
    rfl
  rw [hgather, get_gather, filter_map, map_map]
  exact map_id _

variable {inputs service} {nodeID : Str} (hmin : 0 < minAvailable inputs service)

include hmin

theorem canEvict_iff (counts : Map Int) :
    canEvictUnderDisruptionBudget service inputs.disruptionBudgets inputs.desiredInstanceCounts
        counts = true ↔ counts.get service 0 - 1 ≥ minAvailable inputs service := by
  unfold minAvailable Map.get at hmin ⊢
  unfold canEvictUnderDisruptionBudget
  cases hbudget : inputs.disruptionBudgets.lookup service with
  | none => simp [hbudget] at hmin
  | some budget =>
    rw [hbudget, Option.getD_some] at hmin
    simp [hmin, Map.get]

variable (hnode : Str.slash ∉ nodeID)

include hnode

/-- An eviction spends from its own service's budget only. -/
theorem spent_evictOneOfService (acc : List Change × Map Int) (name : Str) :
    spent inputs service (evictOneOfService inputs nodeID
        (activeInstancesByService inputs (activeInstancesOnNode inputs nodeID)) acc name) =
      if name = service then
        spend (minAvailable inputs service) (spent inputs service acc)
          (candidates inputs service nodeID)
      else spent inputs service acc := by
  unfold evictOneOfService
  rw [get_activeInstancesByService]
  cases hheld : (activeInstancesOnNode inputs nodeID).filter (ofService inputs name) with
  | nil =>
    by_cases hname : name = service
    · subst hname
      simp [spend, candidates, hheld]
    · rw [if_neg hname]
  | cons instanceID rest =>
    have hservice : inputs.instanceServices.get instanceID [] = name :=
      of_decide_eq_true (mem_filter.mp (hheld.symm ▸ mem_cons_self :
        instanceID ∈ (activeInstancesOnNode inputs nodeID).filter (ofService inputs name))).2
    have hmarked : evictions (acc.1 ++ [.put (keyDerivedNodeDrainEvict nodeID instanceID)
        (lit "true")]) = evictions acc.1 ++ [instanceID] := by
      simp [evictions, Change.put, evictionMarker_evict hnode]
    by_cases hname : name = service
    · subst hname
      simp only [canEvict_iff hmin]
      rw [candidates, hheld, take_succ_cons, spend]
      split_ifs with hspare
      · have htaken : (acc.2.get name 0 - minAvailable inputs name).toNat ≥ 1 := by omega
        simp [spent, hmarked, ofService, hservice, get_update, htaken]
      · have htaken : (acc.2.get name 0 - minAvailable inputs name).toNat = 0 := by omega
        simp [spent, htaken]
    · dsimp only
      split_ifs
      · simp [spent, hmarked, ofService, hservice, hname, get_update, Ne.symm hname]
      · rfl

theorem spent_drainNode (acc : List Change × Map Int) :
    spent inputs service (drainNode inputs acc nodeID) =
      spend (minAvailable inputs service) (spent inputs service acc)
        (candidates inputs service nodeID) := by
  have hloop : ∀ names : List Str, names.Nodup → ∀ acc,
      spent inputs service (names.foldl (evictOneOfService inputs nodeID
          (activeInstancesByService inputs (activeInstancesOnNode inputs nodeID))) acc) =
        if service ∈ names then
          spend (minAvailable inputs service) (spent inputs service acc)
            (candidates inputs service nodeID)
        else spent inputs service acc := by
    intro names hnodup
    induction names with
    | nil => simp
    | cons name rest ih =>
      intro acc
      obtain ⟨hfresh, hrest⟩ := nodup_cons.mp hnodup
      rw [foldl_cons, ih hrest, spent_evictOneOfService hmin hnode]
      by_cases hname : name = service
      · subst hname
        simp [hfresh]
      · simp [hname, Ne.symm hname]
  have hturn : spent inputs service ((evictInstancesFromNode inputs nodeID acc.2).1,
      (evictInstancesFromNode inputs nodeID acc.2).2.2) =
        spend (minAvailable inputs service) ([], acc.2.get service 0)
          (candidates inputs service nodeID) := by
    rw [evictInstancesFromNode, hloop _ (sortedKeys_pairwise _).nodup]
    split_ifs with hmem
    · rfl
    · -- a service without a turn has no instance on the node
      have hnone : candidates inputs service nodeID = [] := by
        rw [candidates, ← get_activeInstancesByService, Map.get,
          AList.lookup_eq_none.mpr (fun hkey => hmem (mem_sortedKeys.mpr hkey))]
        rfl
      simp [hnone, spend, spent, evictions]
  have hnew : evictions (drainNode inputs acc nodeID).1 =
      evictions acc.1 ++ evictions (evictInstancesFromNode inputs nodeID acc.2).1 := by
    unfold drainNode evictions
    dsimp only
    split_ifs <;> simp [Change.put, evictionMarker_complete hnode]
  obtain ⟨hids, hleft⟩ := Prod.mk.inj hturn
  refine Prod.ext ?_ hleft
  rw [spent, hnew, filter_append, hids]
  rfl

end

/-! ## One cycle -/

theorem slash_notMem_of_draining {facts : List Fact} {nodeID : Str}
    (h : nodeID ∈ (parseDrainingNodes facts).keys) : Str.slash ∉ nodeID := by
  refine slash_notMem_of_mem_foldl (fun nodes entity suffix fact hmem => ?_) h
  split_ifs at hmem
  · exact mem_keys_set.mp hmem
  · exact Or.inr hmem

section

variable (facts : List Fact) (service : Str)

/-- The candidates of the draining nodes, as many as are active above the minimum. -/
def evicted : List Str :=
  let inputs := inputs facts
  ((parseDrainingNodes facts).sortedKeys.flatMap (candidates inputs service)).take
    ((countGlobalActiveInstancesByService inputs.instanceStates inputs.instanceServices
      inputs.existingEvictions).get service 0 - minAvailable inputs service).toNat

/-- The running instances of a service without an eviction marker. -/
def runningInstances : List Str :=
  (parseInstanceStates facts).keys.filter (fun instanceID =>
    ofService (inputs facts) service instanceID &&
      !(parseDrainEvictionMarkers facts).get instanceID false &&
      decide ((parseInstanceStates facts).get instanceID [] = instanceRunning))

/-- The minimum, or all that were running, are left without those that the cycle marks. -/
def KeepsMinAvailable : Prop :=
  min (minAvailable (inputs facts) service) (runningInstances facts service).length ≤
    ((runningInstances facts service).filter (· ∉ evictions (reconcile facts))).length

variable {facts service}

theorem evictions_reconcile (hmin : 0 < minAvailable (inputs facts) service) :
    (evictions (reconcile facts)).filter (ofService (inputs facts) service) =
      evicted facts service := by
  have hloop : ∀ nodes : List Str, (∀ nodeID ∈ nodes, Str.slash ∉ nodeID) → ∀ acc,
      spent (inputs facts) service (nodes.foldl (drainNode (inputs facts)) acc) =
        (nodes.map (candidates (inputs facts) service)).foldl
          (spend (minAvailable (inputs facts) service)) (spent (inputs facts) service acc) := by
    intro nodes hnodes
    induction nodes with
    | nil => exact fun acc => rfl
    | cons nodeID rest ih =>
      intro acc
      rw [foldl_cons, ih (fun node hnode => hnodes node (mem_cons_of_mem _ hnode)),
        spent_drainNode hmin (hnodes nodeID mem_cons_self)]
      rfl
  have hnodes : ∀ nodeID ∈ (parseDrainingNodes facts).sortedKeys, Str.slash ∉ nodeID :=
    fun nodeID hmem => slash_notMem_of_draining (mem_sortedKeys.mp hmem)
  exact (congrArg Prod.fst (hloop _ hnodes ([], _))).trans (foldl_spend _ _ _)

end

/-- The minimum is kept exactly if what the cycle takes is nothing or leaves that many. -/
theorem keepsMinAvailable_iff (facts : List Fact) (service : Str) :
    let minimum := minAvailable (inputs facts) service
    let lost := (runningInstances facts service).filter (· ∈ evicted facts service)
    KeepsMinAvailable facts service ↔ minimum ≤ 0 ∨ lost = [] ∨
      minimum + lost.length ≤ (runningInstances facts service).length := by
  by_cases hmin : 0 < minAvailable (inputs facts) service
  · have hlost : (runningInstances facts service).filter (· ∈ evictions (reconcile facts)) =
        (runningInstances facts service).filter (· ∈ evicted facts service) := by
      refine filter_congr fun instanceID hrunning => decide_eq_decide.mpr ?_
      simp only [runningInstances, mem_filter, Bool.and_eq_true] at hrunning
      rw [← evictions_reconcile hmin, mem_filter, and_iff_left hrunning.2.1.1]
    have hsum := @length_eq_length_filter_add _ (runningInstances facts service)
      (· ∈ evictions (reconcile facts))
    rw [hlost] at hsum
    simp only [KeepsMinAvailable, ← length_eq_zero_iff, decide_not]
    omega
  · simp only [KeepsMinAvailable]
    omega

/-- A service with a running and a pending instance, the running one on a draining node. -/
def drainingFacts : List Fact :=
  [(lit "desired/service/web/disruption/min_available", lit "1"),
    (lit "observed/instance/web-0/service", lit "web"),
    (lit "observed/instance/web-0/state", instanceRunning),
    (lit "observed/instance/web-1/service", lit "web"),
    (lit "observed/instance/web-1/state", instancePending),
    (lit "observed/node/n/state", nodeDraining),
    (lit "placement/instance/web-0", lit "n")].map (fun entry => ⟨entry.1, entry.2, 1, 1, 0⟩)

/-- The pending instance stands in for the running one, which is evicted. -/
theorem evicts_last_running : minAvailable (inputs drainingFacts) (lit "web") = 1 ∧
      runningInstances drainingFacts (lit "web") = [lit "web-0"] ∧
      ¬ KeepsMinAvailable drainingFacts (lit "web") := by
  unfold KeepsMinAvailable
  decide +kernel

end CCattler.Controllers.DrainController
