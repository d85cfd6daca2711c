import CCattler.Controllers.Committed
import CCattler.Controllers.NetworkPolicy

/-! # The changes of the network policy controller

A cycle compares the rules that the store asks for on a node, by their places in the
compiled order, with those it finds there.
-/

namespace CCattler.Controllers

open Go Store CCattler.Types Security List FactTable Map
open Str (slash colon splitN)

/-- The rules that the store asks for on a node, in their order. -/
def rulesWanted (table : FactTable) (nodeID : Str) : List Str :=
  (NetworkPolicyController.desiredRules
    (visible NetworkPolicyController.watch table.allFacts)).get nodeID []

namespace FirewallRules

open NetworkPolicyController

variable {table : FactTable} {nodeID value : Str}

theorem nonOverlapping_watch : NonOverlapping watch := by decide

theorem mem_sortCompiledRulesPerNode {rulesPerNode : Map (List Str)} :
    value ∈ (sortCompiledRulesPerNode rulesPerNode).get nodeID [] ↔
      value ∈ rulesPerNode.get nodeID [] := by
  have hfold : ∀ (keys : List Str) (m : Map (List Str)),
      value ∈ (keys.foldl (fun sorted nodeID => sorted.update nodeID [] sortStrings) m).get
          nodeID [] ↔ value ∈ m.get nodeID [] := by
    intro keys
    induction keys with
    | nil => simp
    | cons key rest ih =>
      intro m
      rw [foldl_cons, ih, get_update]
      by_cases hkey : nodeID = key
      · rw [if_pos hkey, hkey]
        exact mem_insertionSort _
      · rw [if_neg hkey]
  exact hfold _ _

/-! ## The proposed changes -/

/-- Every rule key that is there is that of a node and an index. -/
def RuleKeysOwned (table : FactTable) : Prop :=
  ∀ {key}, scanDerivedNetworkRules <+: key → (table.value key).isSome →
    ∃ (nodeID : Str) (ruleIndex : Nat), slash ∉ nodeID ∧ (ruleIndex : Int) ≤ maxInt64 ∧
      key = keyDerivedNetworkRule nodeID ruleIndex

theorem isPrefix_keyDerivedNetworkRule (nodeID : Str) (ruleIndex : Int) :
    scanDerivedNetworkRules <+: keyDerivedNetworkRule nodeID ruleIndex :=
  isPrefix_fieldKey _ _ _

theorem parseDerivedNetworkRuleKey_eq {ruleIndex : Nat} (hslash : slash ∉ nodeID)
    (hfits : (ruleIndex : Int) ≤ maxInt64) :
    parseDerivedNetworkRuleKey (keyDerivedNetworkRule nodeID ruleIndex) =
      some (nodeID, (ruleIndex : Int)) := by
  have hlow : minInt64 ≤ (ruleIndex : Int) := by
    unfold minInt64
    omega
  have hsplit : splitFactKeyIntoEntityAndSuffix (keyDerivedNetworkRule nodeID ruleIndex)
      scanDerivedNetworkRules = some (nodeID, itoa ruleIndex) := by
    rw [splitFactKeyIntoEntityAndSuffix, keyDerivedNetworkRule, fieldKey, Str.trimPrefix_append,
      Str.splitN_two_iff.mpr ⟨rfl, hslash⟩]
  rw [parseDerivedNetworkRuleKey, hsplit]
  dsimp only
  rw [parseInt_itoa hlow hfits]

/-- The rules that a cycle finds stored for a node. -/
abbrev existingRules (table : FactTable) (nodeID : Str) : List (Int × Str) :=
  (collectExistingDerivedNetworkRules (visible watch table.allFacts)).get nodeID []

section Proposed

variable {change : Change} {existing : List (Int × Str)} {test : Int → Bool}

/-- A rule is put where the stored one differs. -/
theorem mem_putsForNode {desired : List Str} (hnonempty : ∀ value ∈ desired, value ≠ []) :
    change ∈ putsForNode nodeID desired existing ↔
      ∃ (ruleIndex : Nat) (value : Str), desired[ruleIndex]? = some value ∧
        assigned existing ruleIndex ≠ some value ∧
        change = Change.put (keyDerivedNetworkRule nodeID ruleIndex) value := by
  have hkept : ∀ (ruleIndex : Nat) (value : Str), value ≠ [] →
      (existing ≠ [] ∧ (assigned existing ruleIndex).getD [] = value ↔
        assigned existing ruleIndex = some value) := by
    intro ruleIndex value hne
    constructor
    · rintro ⟨-, hsame⟩
      cases hassigned : assigned existing ruleIndex with
      | none =>
        rw [hassigned] at hsame
        exact absurd hsame.symm hne
      | some found =>
        rw [hassigned] at hsame
        exact congrArg some hsame
    · intro hassigned
      refine ⟨?_, by rw [hassigned]; rfl⟩
      rintro rfl
      cases hassigned
  rw [putsForNode, mem_filterMap]
  constructor
  · rintro ⟨⟨value, ruleIndex⟩, hmem, hsome⟩
    have hvalue := mk_mem_zipIdx_iff_getElem?.mp hmem
    have hne := hnonempty value (mem_of_getElem? hvalue)
    dsimp only at hsome
    split at hsome
    next => cases hsome
    next hdiffers =>
      exact ⟨ruleIndex, value, hvalue, mt (hkept _ _ hne).mpr hdiffers,
        (Option.some.inj hsome).symm⟩
  · rintro ⟨ruleIndex, value, hvalue, hdiffers, rfl⟩
    refine ⟨(value, ruleIndex), mk_mem_zipIdx_iff_getElem?.mpr hvalue, ?_⟩
    dsimp only
    rw [if_neg (mt (hkept _ _ (hnonempty value (mem_of_getElem? hvalue))).mp hdiffers)]

theorem mem_deletesForNode :
    change ∈ deletesForNode nodeID existing test ↔
      ∃ index value, (index, value) ∈ existing ∧ test index = true ∧
        change = Change.delete (keyDerivedNetworkRule nodeID index) := by
  simp only [deletesForNode, mem_map, mem_filter, mem_dedup, Prod.exists,
    exists_and_right, exists_eq_right]
  constructor
  · rintro ⟨index, ⟨⟨value, hmem⟩, htest⟩, rfl⟩
    exact ⟨index, ⟨value, hmem⟩, htest, rfl⟩
  · rintro ⟨index, ⟨value, hmem⟩, htest, rfl⟩
    exact ⟨index, ⟨⟨value, hmem⟩, htest⟩, rfl⟩

theorem ne_nil_of_mem_rulesWanted (h : value ∈ rulesWanted table nodeID) : value ≠ [] := by
  rw [rulesWanted, desiredRules, compileIdentityRulesToIPRulesPerNode, mem_sortCompiledRulesPerNode,
    mem_gather, mem_flatMap] at h
  obtain ⟨_, -, hrule⟩ := h
  rw [compiledRulesForPolicyRule, mem_flatMap] at hrule
  obtain ⟨_, -, htarget⟩ := hrule
  obtain ⟨_, -, heq⟩ := mem_map.mp htarget
  rw [← (Prod.mk.inj heq).2]
  simp [formatCompiledFirewallRule]

/-- The changes that are proposed for a node. -/
def proposedFor (table : FactTable) (nodeID : Str) : List Change :=
  putsForNode nodeID (rulesWanted table nodeID) (existingRules table nodeID) ++
    removeExcessRulesForNode nodeID (rulesWanted table nodeID).length (existingRules table nodeID)

variable (hvalid : table.Valid) (howned : RuleKeysOwned table)
include hvalid howned

/-- The rules read back are those stored. -/
theorem mem_existing_iff {index : Int} :
    (index, value) ∈ existingRules table nodeID ↔
      ∃ ruleIndex : Nat, index = ruleIndex ∧ Str.slash ∉ nodeID ∧ (ruleIndex : Int) ≤ maxInt64 ∧
        table.value (keyDerivedNetworkRule nodeID ruleIndex) = some value := by
  rw [existingRules, collectExistingDerivedNetworkRules, mem_gather, mem_filterMap]
  constructor
  · rintro ⟨fact, hfact, hread⟩
    obtain ⟨hstarts, hvalue⟩ :=
      (exists_watched_iff hvalid nonOverlapping_watch (by decide)).mp ⟨fact, hfact, rfl, rfl⟩
    obtain ⟨owner, ruleIndex, howner, hfits, hkey⟩ := howned hstarts (by rw [hvalue]; rfl)
    rw [existingRule, hkey, parseDerivedNetworkRuleKey_eq howner hfits] at hread
    obtain ⟨rfl, rfl, rfl⟩ : owner = nodeID ∧ (ruleIndex : Int) = index ∧ fact.value = value := by
      simpa using hread
    exact ⟨ruleIndex, rfl, howner, hfits, hkey ▸ hvalue⟩
  · rintro ⟨ruleIndex, rfl, hslash, hfits, hvalue⟩
    obtain ⟨fact, hfact, hkey, rfl⟩ := (exists_watched_iff hvalid nonOverlapping_watch
      (show scanDerivedNetworkRules ∈ watch by decide)).mpr
      ⟨isPrefix_keyDerivedNetworkRule nodeID ruleIndex, hvalue⟩
    refine ⟨fact, hfact, ?_⟩
    rw [existingRule, hkey, parseDerivedNetworkRuleKey_eq hslash hfits]
    rfl

theorem assigned_existing {ruleIndex : Nat} (hslash : Str.slash ∉ nodeID)
    (hfits : (ruleIndex : Int) ≤ maxInt64) :
    assigned (existingRules table nodeID) ruleIndex =
      table.value (keyDerivedNetworkRule nodeID ruleIndex) := by
  apply Option.ext
  intro value
  constructor
  · intro hassigned
    obtain ⟨same, hsame, -, -, hvalue⟩ :=
      (mem_existing_iff hvalid howned).mp (mem_of_assigned hassigned)
    rw [Int.ofNat_inj.mp hsame]
    exact hvalue
  · intro hvalue
    refine assigned_of_unique ((mem_existing_iff hvalid howned).mpr
      ⟨ruleIndex, rfl, hslash, hfits, hvalue⟩) fun other hother => ?_
    obtain ⟨same, hsame, -, -, hsecond⟩ := (mem_existing_iff hvalid howned).mp hother
    rw [← Int.ofNat_inj.mp hsame, hvalue] at hsecond
    exact (Option.some.inj hsecond).symm

/-- A stale node is one for which nothing is wanted. -/
theorem reconcile_eq (order : IterationOrder) : ∃ nodes : List Str, nodes.Nodup ∧
      (∀ nodeID, proposedFor table nodeID ≠ [] → nodeID ∈ nodes) ∧
      reconcile order (visible watch table.allFacts) = nodes.flatMap (proposedFor table) := by
  let wanted := desiredRules (visible watch table.allFacts)
  let found := collectExistingDerivedNetworkRules (visible watch table.allFacts)
  have hvisited : ∀ {ν : Type} (m : Map ν), (order.visit m.keys).Nodup := fun m =>
    (order.visit_perm m.keys).nodup_iff.mpr m.nodupKeys
  have hnothing : ∀ {ν : Type} {m : Map (List ν)} {nodeID : Str}, nodeID ∉ m.keys →
      m.get nodeID [] = [] := by
    intro ν m nodeID hgone
    rw [Map.get, AList.lookup_eq_none.mpr hgone]
    rfl
  have hstale : ∀ {nodeID}, nodeID ∉ wanted.keys → proposedFor table nodeID =
      deletesForNode nodeID (existingRules table nodeID) (fun _ => true) := by
    intro nodeID hgone
    have hwanted : rulesWanted table nodeID = [] := hnothing hgone
    rw [proposedFor, hwanted]
    refine congrArg (map _) (filter_congr fun index hindex => ?_)
    obtain ⟨⟨_, _⟩, hmem, rfl⟩ := mem_map.mp (mem_dedup.mp hindex)
    obtain ⟨ruleIndex, rfl, -⟩ := (mem_existing_iff hvalid howned).mp hmem
    simp
  refine ⟨order.visit wanted.keys ++ (order.visit found.keys).filter (fun nodeID =>
    nodeID ∉ wanted.keys), ?_, fun nodeID hsome => ?_, ?_⟩
  · refine (hvisited wanted).append ((hvisited found).filter _) fun nodeID hmem hfound => ?_
    exact of_decide_eq_true (mem_filter.mp hfound).2 ((order.visit_perm _).mem_iff.mp hmem)
  · rw [mem_append, mem_filter, (order.visit_perm _).mem_iff, (order.visit_perm _).mem_iff]
    by_cases hgone : nodeID ∈ wanted.keys
    · exact Or.inl hgone
    · refine Or.inr ⟨?_, decide_eq_true hgone⟩
      by_contra hmissing
      rw [hstale hgone, show existingRules table nodeID = [] from hnothing hmissing] at hsome
      exact hsome rfl
  · rw [flatMap_append, ← flatMap_ite]
    refine congrArg _ (flatMap_congr fun nodeID _ => ?_)
    simp only [Map.has_eq_true]
    split
    next => rfl
    next hgone => rw [hstale hgone]

end Proposed

theorem nodeID_eq_of_isPrefix {owner : Str} {ruleIndex : Int} (howner : slash ∉ owner)
    (h : fieldKey scanDerivedNetworkRules nodeID [] <+: keyDerivedNetworkRule owner ruleIndex) :
    owner = nodeID := by
  obtain ⟨rest, hrest⟩ := h
  have heq : nodeID ++ slash :: rest = owner ++ slash :: itoa ruleIndex := by
    simpa [fieldKey, keyDerivedNetworkRule] using hrest
  have hcount := congrArg (List.count slash) heq
  simp only [count_append, count_cons_self, count_eq_zero_of_not_mem howner,
    count_eq_zero_of_not_mem (slash_notMem_itoa ruleIndex)] at hcount
  have hnode : slash ∉ nodeID := count_eq_zero.mp (by omega)
  exact ((Str.append_sep_inj hnode howner).mp heq).1.symm

end FirewallRules

end CCattler.Controllers
