import CCattler.Concurrency.Batches
import CCattler.Controllers.FirewallRules
import CCattler.Controllers.SelfConflict

/-! # Firewall rules while they are updated

Rules are kept by their place in a sorted list, and the runner writes sixty moves at a
time. A rule that was overwritten but not yet written again is missing in between.
-/

namespace CCattler.Controllers

open Go Store CCattler.Types Security Concurrency List

/-- The controller as the runner sees it, with the order of its maps in a pass. -/
def NetworkPolicyController.controller (order : IterationOrder) : Controller Unit where
  name := lit "network-policy"
  watch := watch
  reconcile := fun state facts => (.ok (reconcile order facts), state)
  reconcileDelta := none
  executePostCommitOperations := none

/-- One pass of the runner with nobody else writing. -/
structure PolicyPass where
  runner : Runner
  order : IterationOrder
  sortFacts : SliceSort factLess

/-- The store after the pass. -/
def PolicyPass.applyTo (pass : PolicyPass) (store : MemoryStore) : MemoryStore :=
  (pass.runner.attemptSingleReconciliation (NetworkPolicyController.controller pass.order) ()
    store [] (quiet pass.sortFacts)).store

/-- The store after some passes. -/
def PolicyPass.applyAll (store : MemoryStore) (passes : List PolicyPass) : MemoryStore :=
  passes.foldl (fun current pass => pass.applyTo current) store

/-- The store has the rule for the node. -/
def HoldsRule (table : FactTable) (nodeID value : Str) : Prop :=
  ∃ ruleIndex : Nat, table.value (keyDerivedNetworkRule nodeID ruleIndex) = some value

/-- The compiled rule denies. -/
def IsDenial (value : Str) : Prop :=
  ∃ rule, parseCompiledFirewallRule value = some rule ∧ rule.action = policyDeny

/-- The rule keys are those of nodes and places, and the wanted rules have such keys. -/
structure RulesPlaced (table : FactTable) : Prop where
  owned : FirewallRules.RuleKeysOwned table
  nodes : ∀ nodeID, rulesWanted table nodeID ≠ [] → Str.slash ∉ nodeID
  counts : ∀ nodeID, ((rulesWanted table nodeID).length : Int) ≤ maxInt64

/-- What the store has at a rule key is not what it asks for there. -/
def RuleDiffers (table : FactTable) (key : Str) : Prop :=
  ∃ (nodeID : Str) (ruleIndex : Nat), Str.slash ∉ nodeID ∧ (ruleIndex : Int) ≤ maxInt64 ∧
    key = keyDerivedNetworkRule nodeID ruleIndex ∧
    table.value key ≠ (rulesWanted table nodeID)[ruleIndex]?

/-- The transaction, counted from zero, in which a rule key is written. -/
noncomputable def transactionOf (table : FactTable) (key : Str) : Nat :=
  {other | RuleDiffers table other ∧ other < key}.ncard / maxTransactionChanges

variable {nodeID value : Str} {change : Change} {pending keys : List Str} {ruleIndex : Nat}
  {existing : List (Int × Str)} {desired : Str → List Str} {test : Int → Bool}

namespace FirewallUpdates

open NetworkPolicyController FirewallRules Batches

variable {table : FactTable}

/-! ## Keys -/

theorem keyDerivedNetworkRule_inj {owner : Str} {first second : Nat} (howner : Str.slash ∉ owner)
    (h : keyDerivedNetworkRule nodeID first = keyDerivedNetworkRule owner second) :
    nodeID = owner ∧ first = second := by
  have hnode : owner = nodeID := by
    apply nodeID_eq_of_isPrefix howner
    rw [← h]
    exact fieldKey_nil_isPrefix _ _ _
  subst hnode
  exact ⟨rfl, itoa_inj ((fieldKey_inj howner howner).mp h).2⟩

/-- The rule wanted at a key. -/
def wantedRule (desired : Str → List Str) (key : Str) : Option Str :=
  match parseDerivedNetworkRuleKey key with
  | some (nodeID, .ofNat ruleIndex) =>
    if keyDerivedNetworkRule nodeID ruleIndex = key then (desired nodeID)[ruleIndex]? else none
  | _ => none

theorem wantedRule_key (hslash : Str.slash ∉ nodeID) (hfits : (ruleIndex : Int) ≤ maxInt64) :
    wantedRule desired (keyDerivedNetworkRule nodeID ruleIndex) = (desired nodeID)[ruleIndex]? := by
  rw [wantedRule, parseDerivedNetworkRuleKey_eq hslash hfits]
  exact if_pos rfl

/-- The rule stored at a key, if it is a rule key. -/
def storedRule (table : FactTable) (key : Str) : Option Str :=
  if scanDerivedNetworkRules <+: key then table.value key else none

theorem storedRule_key (nodeID : Str) (ruleIndex : Int) :
    storedRule table (keyDerivedNetworkRule nodeID ruleIndex) =
      table.value (keyDerivedNetworkRule nodeID ruleIndex) :=
  if_pos (isPrefix_fieldKey _ _ _)

/-! ## The proposed changes -/

/-- The change that brings a key to what is wanted there. -/
def changeToward (wanted : Option Str) (key : Str) : Change :=
  match wanted with
  | some value => Change.put key value
  | none => Change.delete key

section

variable (wanted : Option Str) (key : Str)

@[simp] theorem changeToward_key : (changeToward wanted key).key = key := by
  cases wanted <;> rfl

@[simp] theorem changeToward_group : (changeToward wanted key).group = [] := by
  cases wanted <;> rfl

theorem outcome_changeToward :
    FactTable.outcome ⟨(changeToward wanted key).type, (changeToward wanted key).key,
      (changeToward wanted key).value⟩ = wanted := by
  cases wanted <;> rfl

end

theorem RulesPlaced.fits (hplaced : RulesPlaced table)
    (hvalue : (rulesWanted table nodeID)[ruleIndex]? = some value) :
    Str.slash ∉ nodeID ∧ (ruleIndex : Int) ≤ maxInt64 := by
  have hlt := (List.getElem?_eq_some_iff.mp hvalue).1
  have hcount := hplaced.counts nodeID
  refine ⟨hplaced.nodes nodeID fun hnil => ?_, by omega⟩
  rw [hnil] at hlt
  cases hlt

section Proposed

variable (hvalid : table.Valid) (hplaced : RulesPlaced table) (order : IterationOrder)

include hvalid hplaced

/-- A node's changes are at the places that differ. -/
theorem mem_proposedFor : change ∈ proposedFor table nodeID ↔
      ∃ ruleIndex : Nat, Str.slash ∉ nodeID ∧ (ruleIndex : Int) ≤ maxInt64 ∧
        table.value (keyDerivedNetworkRule nodeID ruleIndex) ≠
          (rulesWanted table nodeID)[ruleIndex]? ∧
        change = changeToward (rulesWanted table nodeID)[ruleIndex]?
          (keyDerivedNetworkRule nodeID ruleIndex) := by
  have hputs := @mem_putsForNode nodeID change (existingRules table nodeID)
    (rulesWanted table nodeID) fun value => ne_nil_of_mem_rulesWanted
  have hexisting {value} := @mem_existing_iff table nodeID value hvalid hplaced.owned
  rw [proposedFor, mem_append, hputs, removeExcessRulesForNode, mem_deletesForNode]
  constructor
  · rintro (⟨ruleIndex, value, hvalue, hdiffers, rfl⟩ | ⟨_, value, hmem, htest, rfl⟩)
    · obtain ⟨hslash, hindex⟩ := RulesPlaced.fits hplaced hvalue
      rw [assigned_existing hvalid hplaced.owned hslash hindex] at hdiffers
      exact ⟨ruleIndex, hslash, hindex, by rwa [hvalue], by rw [hvalue]; rfl⟩
    · obtain ⟨ruleIndex, rfl, hslash, hindex, hvalue⟩ := hexisting.mp hmem
      have hnone : (rulesWanted table nodeID)[ruleIndex]? = none :=
        List.getElem?_eq_none (Int.ofNat_le.mp (of_decide_eq_true htest))
      exact ⟨ruleIndex, hslash, hindex, by simp [hvalue, hnone], by rw [hnone]; rfl⟩
  · rintro ⟨ruleIndex, hslash, hindex, hdiffers, rfl⟩
    cases hwanted : (rulesWanted table nodeID)[ruleIndex]? with
    | some value =>
      rw [hwanted] at hdiffers
      refine Or.inl ⟨ruleIndex, value, hwanted, ?_, rfl⟩
      rwa [assigned_existing hvalid hplaced.owned hslash hindex]
    | none =>
      rw [hwanted] at hdiffers
      obtain ⟨value, hvalue⟩ := Option.ne_none_iff_exists'.mp hdiffers
      refine Or.inr ⟨ruleIndex, value, hexisting.mpr ⟨ruleIndex, rfl, hslash, hindex, hvalue⟩, ?_,
        rfl⟩
      exact decide_eq_true (Int.ofNat_le.mpr (List.getElem?_eq_none_iff.mp hwanted))

theorem nodup_proposedFor : ((proposedFor table nodeID).map Change.key).Nodup := by
  have hinj : ∀ {first second : Nat},
      keyDerivedNetworkRule nodeID first = keyDerivedNetworkRule nodeID second → first = second :=
    fun h => itoa_inj (List.cons.inj (append_cancel_left (append_cancel_left h))).2
  have hputs : ((putsForNode nodeID (rulesWanted table nodeID) (existingRules table nodeID)).map
      Change.key).Sublist ((rulesWanted table nodeID).zipIdx.map
        (fun rule => keyDerivedNetworkRule nodeID rule.2)) := by
    refine map_filterMap_sublist fun rule change hchange => ?_
    dsimp only at hchange
    split at hchange
    · cases hchange
    · rw [← Option.some.inj hchange]
      rfl
  have hexcess : ∀ {index : Int}, index ∈ ((existingRules table nodeID).map Prod.fst).dedup.filter
      (fun index => ((rulesWanted table nodeID).length : Int) ≤ index) →
      ∃ ruleIndex : Nat, index = ruleIndex ∧ (rulesWanted table nodeID).length ≤ ruleIndex := by
    intro index hmem
    obtain ⟨hmem, hlong⟩ := mem_filter.mp hmem
    obtain ⟨⟨_, _⟩, hpair, rfl⟩ := mem_map.mp (mem_dedup.mp hmem)
    obtain ⟨ruleIndex, rfl, -⟩ := (mem_existing_iff hvalid hplaced.owned).mp hpair
    exact ⟨ruleIndex, rfl, Int.ofNat_le.mp (of_decide_eq_true hlong)⟩
  rw [proposedFor, map_append, removeExcessRulesForNode, deletesForNode, map_map]
  refine (hputs.nodup ?_).append (((nodup_dedup _).filter _).map_on ?_) ?_
  · have hindices := nodup_zipIdx_map_snd (rulesWanted table nodeID)
    rw [Nodup, pairwise_map] at hindices ⊢
    exact hindices.imp fun hne hkey => hne (hinj hkey)
  · intro _ hfirst _ hsecond hkey
    obtain ⟨_, rfl, -⟩ := hexcess hfirst
    obtain ⟨_, rfl, -⟩ := hexcess hsecond
    exact congrArg _ (hinj hkey)
  · intro key hput hdelete
    obtain ⟨⟨_, first⟩, hrule, rfl⟩ := mem_map.mp (hputs.subset hput)
    obtain ⟨_, hdeleted, hkey⟩ := mem_map.mp hdelete
    obtain ⟨second, rfl, hlong⟩ := hexcess hdeleted
    obtain rfl : second = first := hinj hkey
    exact absurd (mk_mem_zipIdx_iff_getElem?.mp hrule) (by simp [List.getElem?_eq_none hlong])

/-- The controller proposes to bring every key that differs to what is wanted. -/
theorem mem_reconcile_iff :
    change ∈ reconcile order (visible watch table.allFacts) ↔ RuleDiffers table change.key ∧
      change = changeToward (wantedRule (rulesWanted table) change.key) change.key := by
  obtain ⟨nodes, -, hnodes, heq⟩ := reconcile_eq hvalid hplaced.owned order
  rw [heq, mem_flatMap]
  constructor
  · rintro ⟨nodeID, -, hchange⟩
    obtain ⟨ruleIndex, hslash, hindex, hdiffers, rfl⟩ := (mem_proposedFor hvalid hplaced).mp hchange
    rw [changeToward_key, wantedRule_key hslash hindex]
    exact ⟨⟨nodeID, ruleIndex, hslash, hindex, rfl, hdiffers⟩, rfl⟩
  · rintro ⟨⟨nodeID, ruleIndex, hslash, hindex, hkey, hdiffers⟩, htoward⟩
    rw [hkey] at hdiffers htoward
    rw [wantedRule_key hslash hindex] at htoward
    have hchange := (mem_proposedFor hvalid hplaced).mpr
      ⟨ruleIndex, hslash, hindex, hdiffers, htoward⟩
    exact ⟨nodeID, hnodes nodeID (ne_nil_of_mem hchange), hchange⟩

theorem nodup_reconcile_keys :
    ((reconcile order (visible watch table.allFacts)).map Change.key).Nodup := by
  obtain ⟨nodes, hnodup, -, heq⟩ := reconcile_eq hvalid hplaced.owned order
  rw [heq, map_flatMap, nodup_flatMap]
  refine ⟨fun _ _ => nodup_proposedFor hvalid hplaced, hnodup.imp ?_⟩
  intro first second hne key hfirst hsecond
  obtain ⟨_, hchange, rfl⟩ := mem_map.mp hfirst
  obtain ⟨_, hother, hkey⟩ := mem_map.mp hsecond
  obtain ⟨_, hslash, -, -, rfl⟩ := (mem_proposedFor hvalid hplaced).mp hchange
  obtain ⟨_, -, -, -, rfl⟩ := (mem_proposedFor hvalid hplaced).mp hother
  rw [changeToward_key, changeToward_key] at hkey
  exact hne (keyDerivedNetworkRule_inj hslash hkey).1.symm

end Proposed

/-! ## One pass -/

theorem key_of_wantedRule (h : wantedRule desired key = some value) :
    ∃ (nodeID : Str) (ruleIndex : Nat), key = keyDerivedNetworkRule nodeID ruleIndex ∧
      (desired nodeID)[ruleIndex]? = some value := by
  unfold wantedRule at h
  split at h
  next nodeID ruleIndex _ =>
    split at h
    next hkey => exact ⟨nodeID, ruleIndex, hkey.symm, h⟩
    next => cases h
  next => cases h

theorem ruleDiffers_iff (hplaced : RulesPlaced table) :
    RuleDiffers table key ↔ storedRule table key ≠ wantedRule (rulesWanted table) key := by
  constructor
  · rintro ⟨nodeID, ruleIndex, hslash, hindex, rfl, hdiffers⟩
    rw [wantedRule_key hslash hindex]
    exact hdiffers
  · intro hdiffers
    have hplace : ∃ (nodeID : Str) (ruleIndex : Nat), Str.slash ∉ nodeID ∧
        (ruleIndex : Int) ≤ maxInt64 ∧ key = keyDerivedNetworkRule nodeID ruleIndex := by
      cases hwanted : wantedRule (rulesWanted table) key with
      | some value =>
        obtain ⟨nodeID, ruleIndex, rfl, hvalue⟩ := key_of_wantedRule hwanted
        obtain ⟨hslash, hindex⟩ := RulesPlaced.fits hplaced hvalue
        exact ⟨nodeID, ruleIndex, hslash, hindex, rfl⟩
      | none =>
        rw [hwanted] at hdiffers
        unfold storedRule at hdiffers
        split at hdiffers
        next hstarts => exact hplaced.owned hstarts (Option.isSome_iff_ne_none.mpr hdiffers)
        next => exact absurd rfl hdiffers
    obtain ⟨nodeID, ruleIndex, hslash, hindex, rfl⟩ := hplace
    rw [wantedRule_key hslash hindex] at hdiffers
    exact ⟨nodeID, ruleIndex, hslash, hindex, rfl, hdiffers⟩

theorem rulesWanted_congr {first second : FactTable} (hfirst : first.Valid) (hsecond : second.Valid)
    (hsame : ∀ key, ¬ scanDerivedNetworkRules <+: key → first.facts key = second.facts key) :
    rulesWanted first = rulesWanted second := by
  have hread : ∀ {scan : Str}, scan ∈ watch → Apart scan scanDerivedNetworkRules →
      factsWithPrefix (visible watch first.allFacts) scan =
        factsWithPrefix (visible watch second.allFacts) scan := fun hscan hapart =>
    factsWithPrefix_congr hfirst hsecond nonOverlapping_watch hscan fun key hstarts =>
      hsame key (hapart.not_isPrefix hstarts)
  funext nodeID
  unfold rulesWanted desiredRules parseIdentityPolicyRulesFromFacts
    buildServiceEndpointMapFromFacts buildInstanceNodeMapFromPlacements
  rw [hread (by decide) (by decide), hread (by decide) (by decide), hread (by decide) (by decide)]

section Pass

variable {store : MemoryStore} (hopen : store.isClosed = false) (hvalid : store.table.Valid)
  (hplaced : RulesPlaced store.table) (order : IterationOrder)

/-- What a store keeps while its rules are brought to others. -/
structure SameButRules (before after : MemoryStore) : Prop where
  isOpen : after.isClosed = false
  valid : after.table.Valid
  facts : ∀ key, ¬ scanDerivedNetworkRules <+: key → after.table.facts key = before.table.facts key

section Emitted

include hvalid hplaced

theorem isPrefix_of_mem (h : change ∈ reconcile order (visible watch store.table.allFacts)) :
    scanDerivedNetworkRules <+: change.key := by
  obtain ⟨⟨nodeID, ruleIndex, -, -, hkey, -⟩, -⟩ := (mem_reconcile_iff hvalid hplaced order).mp h
  rw [hkey]
  exact isPrefix_fieldKey _ _ _

theorem ungrouped_reconcile :
    ∀ change ∈ reconcile order (visible watch store.table.allFacts), change.group = [] := by
  intro change hchange
  rw [((mem_reconcile_iff hvalid hplaced order).mp hchange).2, changeToward_group]

theorem mem_reconcile_keys :
    key ∈ (reconcile order (visible watch store.table.allFacts)).map Change.key ↔
      RuleDiffers store.table key := by
  simp only [mem_map, mem_reconcile_iff hvalid hplaced order]
  constructor
  · rintro ⟨_, ⟨hdiffers, -⟩, rfl⟩
    exact hdiffers
  · intro hdiffers
    refine ⟨changeToward (wantedRule (rulesWanted store.table) key) key, ?_, changeToward_key _ _⟩
    rw [changeToward_key]
    exact ⟨hdiffers, rfl⟩

theorem sorted_keys_pairwise :
    ((sortChangesByGroupAndKey (reconcile order (visible watch store.table.allFacts))).map
      Change.key).Pairwise (· < ·) :=
  pairwise_map.mpr (sort_pairwise_of_ungrouped
    (ungrouped_reconcile hvalid hplaced order) (nodup_reconcile_keys hvalid hplaced order))

theorem sorted_keys_eq (hsorted : pending.Pairwise (· < ·))
    (hpending : ∀ key, key ∈ pending ↔ RuleDiffers store.table key) :
    (sortChangesByGroupAndKey (reconcile order (visible watch store.table.allFacts))).map
      Change.key = pending := by
  refine (sorted_keys_pairwise hvalid hplaced order).eq_of_mem_iff hsorted fun key => ?_
  rw [hpending, ((sort_perm _).map Change.key).mem_iff, mem_reconcile_keys hvalid hplaced order]

theorem submitted_eq : submittedChanges (lit "network-policy")
        (reconcile order (visible watch store.table.allFacts)) =
      (sortChangesByGroupAndKey (reconcile order (visible watch store.table.allFacts))).take
        maxTransactionChanges := by
  -- the controller has no declared write domain
  have hdomain : ∀ changes, enforceWriteDomain (lit "network-policy") changes = changes :=
    fun _ => rfl
  rw [submittedChanges, hdomain, validateAndCapChanges_of_ungrouped
    (ungrouped_reconcile hvalid hplaced order) _ (nodup_reconcile_keys hvalid hplaced order)]

end Emitted

include hopen hvalid hplaced

/-- A pass commits the first changes, up to the cap. -/
theorem applyTo_table (pass : PolicyPass) : (pass.applyTo store).isClosed = false ∧
      (pass.applyTo store).table = (store.table.commitBranch
        (((sortChangesByGroupAndKey (reconcile pass.order
          (visible watch store.table.allFacts))).take maxTransactionChanges).map
          fun change => ⟨change.type, change.key, change.value⟩)).1 := by
  have hscanned : scannedFacts pass.sortFacts store (controller pass.order).watch =
      visible watch store.table.allFacts :=
    scannedFacts_eq_visible hopen hvalid pass.sortFacts nonOverlapping_watch
  have hreconcile : (controller pass.order).reconcile ()
      (scannedFacts pass.sortFacts store (controller pass.order).watch) =
        (.ok (reconcile pass.order (visible watch store.table.allFacts)), ()) := by
    rw [hscanned]
    rfl
  have hwatch : NonOverlapping (controller pass.order).watch := nonOverlapping_watch
  rw [← submitted_eq hvalid hplaced pass.order]
  refine (quiet_attempt_store pass.runner hopen hvalid hwatch hreconcile ?_).2
  intro change hchange _
  cases hfact : store.table.facts change.key with
  | none => exact Or.inr rfl
  | some fact =>
    have hstarts := isPrefix_of_mem hvalid hplaced pass.order hchange
    have hkey := hvalid.stamped.key_eq hfact
    refine Or.inl ⟨fact, ?_, hkey⟩
    rw [hscanned, mem_visible, hvalid.mem_allFacts, hkey]
    exact ⟨hfact, scanDerivedNetworkRules, by decide, hstarts⟩

/-- A pass moves the first pending rules to their values. -/
theorem applyTo_spec (pass : PolicyPass) (hsorted : pending.Pairwise (· < ·))
    (hpending : ∀ key, key ∈ pending ↔ RuleDiffers store.table key) :
    SameButRules store (pass.applyTo store) ∧ storedRule (pass.applyTo store).table =
        moved (wantedRule (rulesWanted store.table)) (storedRule store.table)
          (pending.take maxTransactionChanges) := by
  obtain ⟨hopenAfter, htable⟩ := applyTo_table hopen hvalid hplaced pass
  have hkeys := sorted_keys_eq hvalid hplaced pass.order hsorted hpending
  have hmem : ∀ change ∈ sortChangesByGroupAndKey (reconcile pass.order
      (visible watch store.table.allFacts)), scanDerivedNetworkRules <+: change.key ∧
      change = changeToward (wantedRule (rulesWanted store.table) change.key) change.key :=
    fun change hchange =>
      have hemitted := (sort_perm _).mem_iff.mp hchange
      ⟨isPrefix_of_mem hvalid hplaced pass.order hemitted,
        ((mem_reconcile_iff hvalid hplaced pass.order).mp hemitted).2⟩
  generalize sortChangesByGroupAndKey (reconcile pass.order
    (visible watch store.table.allFacts)) = sorted at htable hkeys hmem
  have hnodup : (((sorted.take maxTransactionChanges).map
      fun change => (⟨change.type, change.key, change.value⟩ : Op)).map Op.key).Nodup := by
    rw [map_map]
    change ((sorted.take maxTransactionChanges).map Change.key).Nodup
    rw [map_take, hkeys]
    exact (take_sublist _ _).nodup hsorted.nodup
  have houtside : ∀ key, key ∉ pending.take maxTransactionChanges →
      (pass.applyTo store).table.facts key = store.table.facts key := by
    intro key hkey
    rw [htable]
    apply FactTable.commitBranch_facts_of_notMem
    rintro operation hoperation rfl
    obtain ⟨change, hchange, rfl⟩ := mem_map.mp hoperation
    apply hkey
    rw [← hkeys, ← map_take]
    exact mem_map_of_mem hchange
  have hinside : ∀ key ∈ pending.take maxTransactionChanges, scanDerivedNetworkRules <+: key ∧
      (pass.applyTo store).table.value key = wantedRule (rulesWanted store.table) key := by
    intro key hkey
    rw [← hkeys, ← map_take] at hkey
    obtain ⟨change, hchange, rfl⟩ := mem_map.mp hkey
    obtain ⟨hstarts, htoward⟩ := hmem change (mem_of_mem_take hchange)
    refine ⟨hstarts, ?_⟩
    have hvalue := @FactTable.commitBranch_value _ store.table hnodup _ (mem_map_of_mem hchange)
    rw [htable]
    refine hvalue.trans ?_
    rw [htoward]
    simp only [changeToward_key]
    exact outcome_changeToward _ _
  refine ⟨⟨hopenAfter, ?_, ?_⟩, ?_⟩
  · rw [htable]
    exact hvalid.commitBranch _
  · intro key hkey
    exact houtside key fun hmem => hkey (hinside key hmem).1
  · funext key
    by_cases hkey : key ∈ pending.take maxTransactionChanges
    · rw [moved_of_mem hkey, storedRule, if_pos (hinside key hkey).1, (hinside key hkey).2]
    · rw [moved_of_notMem hkey, storedRule, storedRule, FactTable.value, FactTable.value,
        houtside key hkey]

end Pass

/-! ## All passes -/

/-- A pass leaves the wanted rules and keeps all rules placed. -/
theorem placed_after {before after : MemoryStore} (hvalid : before.table.Valid)
    (hplaced : RulesPlaced before.table) (hsame : SameButRules before after)
    (hmoved : storedRule after.table =
      moved (wantedRule (rulesWanted before.table)) (storedRule before.table) keys) :
    rulesWanted after.table = rulesWanted before.table ∧ RulesPlaced after.table := by
  have hwanted : rulesWanted after.table = rulesWanted before.table :=
    rulesWanted_congr hsame.valid hvalid hsame.facts
  refine ⟨hwanted, ⟨?_, fun nodeID => ?_, fun nodeID => ?_⟩⟩
  rotate_left
  · rw [hwanted]
    exact hplaced.nodes nodeID
  · rw [hwanted]
    exact hplaced.counts nodeID
  intro key hstarts hsome
  have hstored : ∀ table : FactTable, storedRule table key = table.value key :=
    fun table => if_pos hstarts
  have hafter := congrFun hmoved key
  rw [hstored] at hafter
  by_cases hkey : key ∈ keys
  · rw [moved_of_mem hkey] at hafter
    obtain ⟨value, hvalue⟩ := Option.isSome_iff_exists.mp (hafter ▸ hsome)
    obtain ⟨nodeID, ruleIndex, rfl, hrule⟩ := key_of_wantedRule hvalue
    obtain ⟨hslash, hindex⟩ := RulesPlaced.fits hplaced hrule
    exact ⟨nodeID, ruleIndex, hslash, hindex, rfl⟩
  · rw [moved_of_notMem hkey, hstored] at hafter
    exact hplaced.owned hstarts (hafter ▸ hsome)

variable {store : MemoryStore}

/-- After some passes the first keys that differed are as wanted, and the others
as they were. -/
theorem applyAll_spec (hopen : store.isClosed = false) (hvalid : store.table.Valid)
    (hplaced : RulesPlaced store.table) (passes : List PolicyPass)
    (hsorted : pending.Pairwise (· < ·))
    (hpending : ∀ key, key ∈ pending ↔ RuleDiffers store.table key) :
    storedRule (PolicyPass.applyAll store passes).table =
      moved (wantedRule (rulesWanted store.table)) (storedRule store.table)
        (pending.take (maxTransactionChanges * passes.length)) := by
  induction passes generalizing store pending with
  | nil =>
    funext key
    rfl
  | cons pass rest ih =>
    obtain ⟨hsame, hmoved⟩ := applyTo_spec hopen hvalid hplaced pass hsorted hpending
    obtain ⟨hwanted, hplacedAfter⟩ := placed_after hvalid hplaced hsame hmoved
    have hrest : ∀ key, key ∈ pending.drop maxTransactionChanges ↔
        RuleDiffers (pass.applyTo store).table key := by
      intro key
      rw [ruleDiffers_iff hplacedAfter, hwanted, hmoved, moved_take_ne_iff
        hsorted.nodup fun other => (hpending other).trans (ruleDiffers_iff hplaced)]
    have hlater := ih hsame.isOpen hsame.valid hplacedAfter
      (hsorted.sublist (drop_sublist _ _)) hrest
    rw [PolicyPass.applyAll, foldl_cons, ← PolicyPass.applyAll, hlater, hwanted, hmoved,
      moved_moved, length_cons, Nat.mul_succ, Nat.add_comm, take_add]

theorem exists_pending (hvalid : store.table.Valid) (hplaced : RulesPlaced store.table) :
    ∃ pending : List Str, pending.Pairwise (· < ·) ∧
      ∀ key, key ∈ pending ↔ RuleDiffers store.table key := by
  let order : IterationOrder := .identity
  refine ⟨_, sorted_keys_pairwise hvalid hplaced order, fun key => ?_⟩
  rw [((sort_perm _).map Change.key).mem_iff, mem_reconcile_keys hvalid hplaced order]

/-- A rule is held after all passes if and only if it comes to a place in time. -/
theorem held_iff (hopen : store.isClosed = false) (hvalid : store.table.Valid)
    (hplaced : RulesPlaced store.table) (hwanted : value ∈ rulesWanted store.table nodeID) :
    (∀ passes, HoldsRule (PolicyPass.applyAll store passes).table nodeID value) ↔ ∃ old new : Nat,
        store.table.value (keyDerivedNetworkRule nodeID old) = some value ∧
        (rulesWanted store.table nodeID)[new]? = some value ∧
        (old = new ∨ transactionOf store.table (keyDerivedNetworkRule nodeID new) ≤
          transactionOf store.table (keyDerivedNetworkRule nodeID old)) := by
  obtain ⟨pending, hsorted, hpending⟩ := exists_pending hvalid hplaced
  obtain ⟨index, hindex⟩ := mem_iff_getElem?.mp hwanted
  obtain ⟨hslash, -⟩ := RulesPlaced.fits hplaced hindex
  have hwant : ∀ ruleIndex : Nat,
      wantedRule (rulesWanted store.table) (keyDerivedNetworkRule nodeID ruleIndex) = some value ↔
        (rulesWanted store.table nodeID)[ruleIndex]? = some value := by
    intro ruleIndex
    constructor
    · intro h
      obtain ⟨_, _, hkey, hvalue⟩ := key_of_wantedRule h
      obtain ⟨rfl, rfl⟩ := keyDerivedNetworkRule_inj (RulesPlaced.fits hplaced hvalue).1 hkey
      exact hvalue
    · intro h
      rw [wantedRule_key hslash (RulesPlaced.fits hplaced h).2]
      exact h
  have hholds : ∀ passes : List PolicyPass,
      HoldsRule (PolicyPass.applyAll store passes).table nodeID value ↔ ∃ ruleIndex : Nat,
        moved (wantedRule (rulesWanted store.table)) (storedRule store.table)
          (pending.take (maxTransactionChanges * passes.length))
          (keyDerivedNetworkRule nodeID ruleIndex) = some value := by
    intro passes
    simp only [← applyAll_spec hopen hvalid hplaced passes hsorted hpending]
    rfl
  -- only the number of passes matters
  have hall : (∀ passes, HoldsRule (PolicyPass.applyAll store passes).table nodeID value) ↔
      ∀ count, ∃ ruleIndex : Nat,
        moved (wantedRule (rulesWanted store.table)) (storedRule store.table)
          (pending.take (maxTransactionChanges * count))
          (keyDerivedNetworkRule nodeID ruleIndex) = some value := by
    constructor
    · intro h count
      have hpasses := (hholds (List.replicate count
        ⟨Runner.new, .identity, Interference.none.sortFacts⟩)).mp (h _)
      rwa [length_replicate] at hpasses
    · exact fun h passes => (hholds passes).mpr (h passes.length)
  have htaken : ∀ key count, key ∈ pending.take (maxTransactionChanges * count) ↔
      storedRule store.table key ≠ wantedRule (rulesWanted store.table) key ∧
        transactionOf store.table key < count := by
    intro key count
    rw [← ruleDiffers_iff hplaced, ← hpending]
    by_cases hkey : key ∈ pending
    · have hplace := place_eq_ncard hsorted hkey
      simp only [hpending] at hplace
      rw [and_iff_right hkey, mem_take_iff_place_lt hkey, transactionOf, ← hplace,
        Nat.div_lt_iff_lt_mul (by decide), Nat.mul_comm]
    · exact iff_of_false (fun hmem => hkey (mem_of_mem_take hmem)) fun h => hkey h.1
  refine hall.trans ((held_after_batches_iff (fun ruleIndex : Nat =>
    keyDerivedNetworkRule nodeID ruleIndex) htaken ⟨index, (hwant index).mpr hindex⟩).trans ?_)
  simp only [storedRule_key, hwant]

end FirewallUpdates

/-- Without other writers, a denial that stays wanted is there after every transaction if
and only if it keeps a place or comes to a new one no later than an old one is
overwritten. -/
theorem firewall_update_keeps_denials_iff (store : MemoryStore) (hopen : store.isClosed = false)
    (hvalid : store.table.Valid) (hplaced : RulesPlaced store.table) :
    (∀ (passes : List PolicyPass) (nodeID value : Str), IsDenial value →
        HoldsRule store.table nodeID value → value ∈ rulesWanted store.table nodeID →
        HoldsRule (PolicyPass.applyAll store passes).table nodeID value) ↔
      ∀ nodeID value, IsDenial value →
        HoldsRule store.table nodeID value → value ∈ rulesWanted store.table nodeID →
        ∃ old new : Nat, store.table.value (keyDerivedNetworkRule nodeID old) = some value ∧
          (rulesWanted store.table nodeID)[new]? = some value ∧
          (old = new ∨ transactionOf store.table (keyDerivedNetworkRule nodeID new) ≤
            transactionOf store.table (keyDerivedNetworkRule nodeID old)) := by
  constructor
  · intro hkeeps nodeID value hdenial hholds hwanted
    exact (FirewallUpdates.held_iff hopen hvalid hplaced hwanted).mp fun passes =>
      hkeeps passes nodeID value hdenial hholds hwanted
  · intro hintime passes nodeID value hdenial hholds hwanted
    exact (FirewallUpdates.held_iff hopen hvalid hplaced hwanted).mpr
      (hintime nodeID value hdenial hholds hwanted) passes

/-! ## One new rule before sixty-one others -/

namespace FirewallUpdates

/-- The rule that denies everybody a port of `db`, as it is compiled. -/
def denial (port : Nat) : Str :=
  formatCompiledFirewallRule (lit "*") (lit "10.0.0.1") port policyDeny

/-- An instance of `db` on `node-1`, one policy for each port, and rules at some places. -/
def updateEntries (places : List Nat) (firstPort : Nat) (ports : List Nat) : List (Str × Str) :=
  places.map (fun (place : Nat) =>
      (keyDerivedNetworkRule (lit "node-1") place, denial (firstPort + place))) ++
    [(keyEndpoint (lit "db") (lit "db-0") 5432, lit "10.0.0.1:5432")] ++
    [(keyPlacementInstance (lit "db-0"), lit "node-1")] ++
    ports.map (fun (port : Nat) =>
      (scanNetworkPolicies ++ itoa port, lit "*:db:" ++ itoa port ++ lit ":deny"))

section

variable (entries : List (Str × Str))

def storeOf : MemoryStore := MemoryStore.new.run (FactTable.puts entries)

theorem storeOf_open : (storeOf entries).isClosed = false :=
  (MemoryStore.run_new_table _).2

theorem storeOf_valid : (storeOf entries).table.Valid :=
  MemoryStore.valid_run_new _

end

/-- The places from 0 to 61 in the order of their texts. -/
def allPlaces : List Nat :=
  [0, 1] ++ List.range' 10 10 ++ [2] ++ List.range' 20 10 ++ [3] ++ List.range' 30 10 ++ [4] ++
    List.range' 40 10 ++ [5] ++ List.range' 50 10 ++ [6, 60, 61, 7, 8, 9]

theorem sorted_of_isChain {entries : List (Str × Str)}
    (h : entries.IsChain (fun earlier later => earlier.1 < later.1)) :
    entries.Pairwise (fun earlier later => earlier.1 < later.1) := by
  exact isChain_iff_pairwise.mp h

/-- The facts in the store of some sorted entries. -/
def factsOf (entries : List (Str × Str)) : List Fact :=
  entries.zipIdx.map (fun (entry, index) =>
    ⟨entry.1, entry.2, (index : Int) + 1, (index : Int) + 1, 0⟩)

/-- The rules that the store of some sorted entries asks for. -/
def rulesOfEntries (entries : List (Str × Str)) : Map (List Str) :=
  NetworkPolicyController.desiredRules (visible NetworkPolicyController.watch (factsOf entries))

/-- An update of the rules of `node-1`: sorted entries, and what they ask for there. -/
structure RuleUpdate (places : List Nat) (firstPort : Nat) (ports : List Nat) : Prop where
  sorted : (updateEntries places firstPort ports).IsChain (fun earlier later => earlier.1 < later.1)
  keys : (rulesOfEntries (updateEntries places firstPort ports)).keys = [lit "node-1"]
  rules : (rulesOfEntries (updateEntries places firstPort ports)).get (lit "node-1") [] =
    ports.map denial
  places_fit : ∀ place ∈ places, (place : Int) ≤ maxInt64
  ports_fit : (ports.length : Int) ≤ maxInt64

namespace RuleUpdate

variable {places : List Nat} {firstPort : Nat} {ports : List Nat}
  (h : RuleUpdate places firstPort ports)

include h

theorem value_iff {key : Str} :
    (storeOf (updateEntries places firstPort ports)).table.value key = some value ↔
      (key, value) ∈ updateEntries places firstPort ports := by
  rw [storeOf, (MemoryStore.run_new_table _).1]
  exact FactTable.putAll_new_value_iff (sorted_of_isChain h.sorted)

theorem allFacts_eq : (storeOf (updateEntries places firstPort ports)).table.allFacts =
    factsOf (updateEntries places firstPort ports) :=
  (congrArg FactTable.allFacts (MemoryStore.run_new_table _).1).trans
    (FactTable.putAll_allFacts_of_sorted (sorted_of_isChain h.sorted))

theorem rulesWanted_eq (nodeID : Str) :
    rulesWanted (storeOf (updateEntries places firstPort ports)).table nodeID =
      if nodeID = lit "node-1" then ports.map denial else [] := by
  rw [rulesWanted, h.allFacts_eq]
  change (rulesOfEntries (updateEntries places firstPort ports)).get nodeID [] = _
  split
  next hnode => rw [hnode, h.rules]
  next hnode =>
    have hgone : (rulesOfEntries (updateEntries places firstPort ports)).lookup nodeID = none := by
      rw [AList.lookup_eq_none, AList.mem_keys, h.keys, mem_singleton]
      exact hnode
    rw [Map.get, hgone]
    rfl

theorem stored_iff {key : Str} (hstarts : scanDerivedNetworkRules <+: key) :
    (storeOf (updateEntries places firstPort ports)).table.value key = some value ↔
      ∃ place ∈ places, key = keyDerivedNetworkRule (lit "node-1") (place : Nat) ∧
        value = denial (firstPort + place) := by
  have hapart : ∀ scan rest : Str, Apart scanDerivedNetworkRules scan → key ≠ scan ++ rest := by
    rintro scan rest hapart rfl
    exact hapart.not_isPrefix hstarts (prefix_append _ _)
  rw [h.value_iff]
  simp only [updateEntries, mem_append, mem_map, mem_singleton, Prod.mk.injEq]
  constructor
  · rintro (((⟨place, hplace, rfl, rfl⟩ | ⟨hkey, -⟩) | ⟨hkey, -⟩) | ⟨port, -, hkey, -⟩)
    · exact ⟨place, hplace, rfl, rfl⟩
    · exact absurd hkey (hapart scanEndpoints _ (by decide))
    · exact absurd hkey (hapart scanPlacements _ (by decide))
    · exact absurd hkey.symm (hapart scanNetworkPolicies _ (by decide))
  · rintro ⟨place, hplace, rfl, rfl⟩
    exact Or.inl (Or.inl (Or.inl ⟨place, hplace, rfl, rfl⟩))

theorem place_of_differs {key : Str}
    (hdiffers : RuleDiffers (storeOf (updateEntries places firstPort ports)).table key) :
    ∃ place ∈ places ++ List.range ports.length,
      key = keyDerivedNetworkRule (lit "node-1") (place : Nat) := by
  obtain ⟨nodeID, ruleIndex, -, -, rfl, hdiffers⟩ := hdiffers
  rw [h.rulesWanted_eq] at hdiffers
  cases hstored : (storeOf (updateEntries places firstPort ports)).table.value
      (keyDerivedNetworkRule nodeID ruleIndex) with
  | some value =>
    obtain ⟨place, hplace, hkey, -⟩ := (h.stored_iff (isPrefix_fieldKey _ _ _)).mp hstored
    exact ⟨place, mem_append_left _ hplace, hkey⟩
  | none =>
    rw [hstored] at hdiffers
    split at hdiffers
    next hnode =>
      have hindex : ruleIndex < (ports.map denial).length := by
        by_contra hge
        exact hdiffers (getElem?_eq_none (not_lt.mp hge)).symm
      rw [length_map] at hindex
      exact ⟨ruleIndex, mem_append_right _ (mem_range.mpr hindex), by rw [hnode]⟩
    next => exact absurd rfl hdiffers

/-- A small update is one transaction. -/
theorem transactionOf_eq_zero (hsmall : places.length + ports.length < maxTransactionChanges)
    (key : Str) :
    transactionOf (storeOf (updateEntries places firstPort ports)).table key = 0 := by
  let keys := (places ++ List.range ports.length).map fun place : Nat =>
    keyDerivedNetworkRule (lit "node-1") place
  refine Nat.div_eq_of_lt (lt_of_le_of_lt ?_ hsmall)
  calc Set.ncard _ ≤ (keys.toFinset : Set Str).ncard := by
        refine Set.ncard_le_ncard (fun other hother => ?_) keys.toFinset.finite_toSet
        obtain ⟨place, hplace, rfl⟩ := h.place_of_differs hother.1
        exact mem_toFinset.mpr (mem_map_of_mem hplace)
    _ = keys.toFinset.card := Set.ncard_coe_finset _
    _ ≤ keys.length := toFinset_card_le keys
    _ = places.length + ports.length := by simp [keys]

theorem placed : RulesPlaced (storeOf (updateEntries places firstPort ports)).table where
  owned := by
    intro _ hstarts hsome
    obtain ⟨_, hvalue⟩ := Option.isSome_iff_exists.mp hsome
    obtain ⟨place, hplace, rfl, -⟩ := (h.stored_iff hstarts).mp hvalue
    exact ⟨lit "node-1", place, by decide, h.places_fit place hplace, rfl⟩
  nodes := by
    intro nodeID hsome
    rw [h.rulesWanted_eq] at hsome
    split at hsome
    next hnode =>
      rw [hnode]
      decide
    next => exact absurd rfl hsome
  counts := by
    intro nodeID
    rw [h.rulesWanted_eq]
    split
    next => simpa using h.ports_fit
    next => decide

end RuleUpdate

theorem insertedUpdate : RuleUpdate (allPlaces.filter (· < 61)) 101 (List.range' 100 62) where
  sorted := by decide +kernel
  keys := by decide +kernel
  rules := by decide +kernel
  places_fit := by decide +kernel
  ports_fit := by decide +kernel

/-- The store with the rules for the ports from 101 to 161, and policies for these
and port 100. -/
def insertedStore : MemoryStore :=
  storeOf (updateEntries (allPlaces.filter (· < 61)) 101 (List.range' 100 62))

def somePass : PolicyPass := ⟨Runner.new, .identity, Interference.none.sortFacts⟩

/-- What the first transaction writes. -/
def insertedOperations : List Op :=
  ((sortChangesByGroupAndKey (NetworkPolicyController.reconcile somePass.order
    (visible NetworkPolicyController.watch (factsOf (updateEntries (allPlaces.filter (· < 61)) 101
      (List.range' 100 62)))))).take maxTransactionChanges).map fun change =>
        ⟨change.type, change.key, change.value⟩

theorem isDenial_denial_108 : IsDenial (denial 108) :=
  ⟨⟨lit "*", lit "10.0.0.1", 108, policyDeny⟩, by decide, rfl⟩

end FirewallUpdates

open FirewallUpdates in
/-- A new first rule moves sixty-one others, and the one that goes from place 7 to 8 is
missing after the first transaction. -/
theorem inserted_rule_opens_hole :
    IsDenial (denial 108) ∧ HoldsRule insertedStore.table (lit "node-1") (denial 108) ∧
      denial 108 ∈ rulesWanted insertedStore.table (lit "node-1") ∧
      ¬ HoldsRule (PolicyPass.applyAll insertedStore [somePass]).table (lit "node-1")
        (denial 108) := by
  have hstored := fun {key : Str} => @RuleUpdate.stored_iff (denial 108) _ _ _ insertedUpdate key
  have hwanted := insertedUpdate.rulesWanted_eq (lit "node-1")
  rw [if_pos rfl] at hwanted
  refine ⟨isDenial_denial_108, ⟨7, ?_⟩, ?_, ?_⟩
  · exact (hstored (isPrefix_fieldKey _ _ _)).mpr ⟨7, by decide, rfl, rfl⟩
  · rw [insertedStore, hwanted]
    exact mem_map_of_mem (by decide)
  · have htable := (applyTo_table (storeOf_open _) (storeOf_valid _) insertedUpdate.placed
      somePass).2
    rw [insertedUpdate.allFacts_eq, ← insertedOperations] at htable
    rintro ⟨place, hvalue⟩
    rw [PolicyPass.applyAll, foldl_cons, foldl_nil, insertedStore, htable,
      FactTable.value] at hvalue
    by_cases htaken : keyDerivedNetworkRule (lit "node-1") place ∈ insertedOperations.map Op.key
    · -- the rule is not written yet
      have hlate : (insertedOperations.map Op.key).Nodup ∧ ∀ operation ∈ insertedOperations,
          FactTable.outcome operation ≠ some (denial 108) := by decide +kernel
      obtain ⟨operation, hmem, hkey⟩ := mem_map.mp htaken
      rw [← hkey, FactTable.commitBranch_value hlate.1 hmem] at hvalue
      exact hlate.2 operation hmem hvalue
    · -- and where it was, another one is
      rw [FactTable.commitBranch_facts_of_notMem fun operation hmem hkey =>
        htaken (mem_map.mpr ⟨operation, hmem, hkey⟩), ← FactTable.value] at hvalue
      obtain ⟨found, hfound, hkey, hsame⟩ := (hstored (isPrefix_fieldKey _ _ _)).mp hvalue
      have hearly : ∀ place ∈ allPlaces.filter (· < 61), denial 108 = denial (101 + place) →
          keyDerivedNetworkRule (lit "node-1") (place : Nat) ∈ insertedOperations.map Op.key := by
        decide +kernel
      refine htaken ?_
      rw [show keyDerivedNetworkRule (lit "node-1") place = _ from hkey]
      exact hearly found hfound hsame

open FirewallUpdates in
/-- A rule that one transaction moves by one place is there all the time. -/
theorem moved_rule_stays :
    let store := storeOf (updateEntries [0] 108 [107, 108])
    HoldsRule store.table (lit "node-1") (denial 108) ∧
      rulesWanted store.table (lit "node-1") = [denial 107, denial 108] ∧
      ∀ (passes : List PolicyPass) (nodeID value : Str), IsDenial value →
        HoldsRule store.table nodeID value → value ∈ rulesWanted store.table nodeID →
        HoldsRule (PolicyPass.applyAll store passes).table nodeID value := by
  have hupdate : RuleUpdate [0] 108 [107, 108] :=
    ⟨by decide +kernel, by decide +kernel, by decide +kernel, by decide, by decide⟩
  have hwanted := hupdate.rulesWanted_eq (lit "node-1")
  rw [if_pos rfl] at hwanted
  have hold : (storeOf (updateEntries [0] 108 [107, 108])).table.value
      (keyDerivedNetworkRule (lit "node-1") (0 : Nat)) = some (denial 108) :=
    (hupdate.stored_iff (isPrefix_fieldKey _ _ _)).mpr ⟨0, by decide, rfl, rfl⟩
  refine ⟨⟨0, hold⟩, hwanted, (firewall_update_keeps_denials_iff _ (storeOf_open _)
    (storeOf_valid _) hupdate.placed).mpr ?_⟩
  intro nodeID value _ hholds hmem
  rw [hupdate.rulesWanted_eq] at hmem
  split at hmem
  next hnode =>
    subst hnode
    obtain ⟨place, hstored⟩ := hholds
    obtain ⟨found, hfound, -, rfl⟩ := (hupdate.stored_iff (isPrefix_fieldKey _ _ _)).mp hstored
    obtain rfl := mem_singleton.mp hfound
    refine ⟨0, 1, hold, by rw [hwanted]; rfl, Or.inr (Nat.le_of_eq ?_)⟩
    rw [hupdate.transactionOf_eq_zero (by decide), hupdate.transactionOf_eq_zero (by decide)]
  next => cases hmem

end CCattler.Controllers
