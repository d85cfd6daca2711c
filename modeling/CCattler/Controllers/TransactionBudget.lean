import CCattler.Controllers.SelfConflict

/-! # The budget of a runner's transaction

The search for a repeated key returns the empty string for none, so a repeated empty
key is accepted, and so is whatever is repeated after it.
-/

namespace CCattler.Controllers

open Go Store List

/-- What is promised of the transaction for some changes and scanned facts. -/
structure WithinBudget (changes : List Change) (allFacts : List Fact)
    (built : List Compare × List Op) : Prop where
  size : built.1.length + built.2.length ≤ 128
  nonempty : changes ≠ [] → built.2 ≠ []
  guarded : ∀ operation ∈ built.2, operation.type = .put →
    ∃ comparison ∈ built.1, comparison.key = operation.key
  distinct : (allFacts.map Fact.key).Nodup → (built.1.map Compare.key).Nodup
  fits : ∀ (store : MemoryStore) (operations limit : Nat),
    (store.transaction built.1 built.2 []).2 ≠ .error (.transactionTooLarge operations limit)

namespace TransactionBudget

variable {changes selected front : List Change} {allFacts : List Fact} {seenKeys : List Str}

/-- Up to the second empty key no key is repeated. -/
theorem nodup_of_findDuplicateChangeKeyFrom (h : findDuplicateChangeKeyFrom seenKeys changes = [])
    (hfront : front <+: changes) (hempty : (seenKeys ++ front.map Change.key).count [] ≤ 1) :
    (front.map Change.key).Nodup ∧ ∀ change ∈ front, change.key ∉ seenKeys := by
  induction changes generalizing seenKeys front with
  | nil =>
    obtain rfl := prefix_nil.mp hfront
    exact ⟨nodup_nil, by simp⟩
  | cons change rest ih =>
    cases front with
    | nil => exact ⟨nodup_nil, by simp⟩
    | cons first more =>
      obtain ⟨rfl, hmore⟩ := cons_prefix_cons.mp hfront
      rw [map_cons, (@perm_middle _ _ seenKeys _).count_eq] at hempty
      rw [findDuplicateChangeKeyFrom] at h
      split at h
      next hseen =>
        -- the search stops at a repeated empty key
        rw [h, count_cons_self, count_append] at hempty
        have := count_pos_iff.mpr (h ▸ hseen)
        omega
      next hseen =>
        obtain ⟨hnodup, hfresh⟩ := ih h hmore hempty
        refine ⟨nodup_cons.mpr ⟨fun hmem => ?_, hnodup⟩, forall_mem_cons.mpr ⟨hseen, ?_⟩⟩
        · obtain ⟨other, hother, hkey⟩ := mem_map.mp hmem
          exact hfresh other hother (hkey ▸ mem_cons_self)
        · exact fun other hother hmem => hfresh other hother (mem_cons_of_mem _ hmem)

theorem changeGuard_key {revisions : Map Int} {change : Change} {comparison : Compare}
    (h : changeGuard revisions change = some comparison) : comparison.key = change.key := by
  unfold changeGuard at h
  split at h
  · rw [← Option.some.inj h]
  · split at h
    · rw [← Option.some.inj h]
    · cases h

theorem guard_keys_sublist (revisions : Map Int) (changes : List Change) :
    ((changes.filterMap (changeGuard revisions)).map Compare.key).Sublist
      (changes.map Change.key) :=
  map_filterMap_sublist fun _ _ => changeGuard_key

theorem withinBudget {controllerName : Str}
    (hok : validateAndCapChanges controllerName changes = .ok selected)
    (hempty : (selected.map Change.key).count [] ≤ 1) (runner : Runner) (allFacts : List Fact) :
    WithinBudget changes allFacts
      (runner.buildReconciliationTransaction controllerName selected allFacts) := by
  obtain ⟨⟨hfront, hlength, hsome⟩, hunique, -⟩ := validateAndCapChanges_ok hok
  have hsize := length_buildReconciliationTransaction runner controllerName hlength allFacts
  refine ⟨hsize, fun hne hnil => ?_, fun operation hoperation hput => ?_, fun hscanned => ?_,
    fun store operations limit hlarge => ?_⟩
  · exact hsome hne (map_eq_nil_iff.mp hnil)
  · obtain ⟨change, hchange, rfl⟩ := mem_map.mp hoperation
    cases hguard : changeGuard (scannedFactRevisions allFacts) change with
    | some comparison =>
      exact ⟨comparison, changeGuard_mem_build hchange hguard, changeGuard_key hguard⟩
    | none =>
      unfold changeGuard at hguard
      split at hguard
      next => cases hguard
      next => rw [if_pos hput] at hguard; cases hguard
  · obtain ⟨-, guarded, hsublist, hother, hguards⟩ :=
      buildReconciliationTransaction_spec runner controllerName selected allFacts
    have hkeys := guard_keys_sublist (scannedFactRevisions allFacts) selected
    have hinput : (guarded.map fun fact => (⟨fact.key, fact.revision⟩ : Compare)).map Compare.key =
        guarded.map Fact.key := map_map
    rw [hguards, map_append, hinput]
    refine List.Nodup.append ((nodup_of_findDuplicateChangeKeyFrom hunique hfront hempty).1.sublist
      hkeys) (hscanned.sublist (hsublist.map _)) fun key hchange hfact => ?_
    obtain ⟨fact, hmem, rfl⟩ := mem_map.mp hfact
    exact hother fact hmem (hkeys.subset hchange)
  · rw [MemoryStore.transaction] at hlarge
    split at hlarge
    · cases hlarge
    · simp only [FactTable.transaction] at hlarge
      rw [if_neg (by simpa using hsize)] at hlarge
      cases hlarge

theorem count_guard_keys (selected : List Change) :
    ((selected.filterMap (changeGuard (scannedFactRevisions [Fact.zero]))).map
        Compare.key).count [] =
      (selected.map Change.key).count [] := by
  induction selected with
  | nil => rfl
  | cons change rest ih =>
    by_cases hkey : change.key = []
    · have hguard : changeGuard (scannedFactRevisions [Fact.zero]) change = some ⟨[], 0⟩ := by
        rw [changeGuard, hkey]
        rfl
      rw [filterMap_cons_some hguard, map_cons, map_cons, hkey, count_cons_self, count_cons_self,
        ih]
    · rw [map_cons, count_cons_of_ne hkey, ← ih]
      cases hguard : changeGuard (scannedFactRevisions [Fact.zero]) change with
      | none => rw [filterMap_cons_none hguard]
      | some comparison =>
        rw [filterMap_cons_some hguard, map_cons, changeGuard_key hguard, count_cons_of_ne hkey]

end TransactionBudget

open TransactionBudget in
/-- All scanned facts and all settings of the guards give a transaction within the budget
if and only if at most one of the changes has the empty key. -/
theorem transaction_budget_iff (controllerName : Str) (changes selected : List Change)
    (hok : validateAndCapChanges controllerName changes = .ok selected) :
    (∀ (runner : Runner) (allFacts : List Fact), WithinBudget changes allFacts
        (runner.buildReconciliationTransaction controllerName selected allFacts)) ↔
      (selected.map Change.key).count [] ≤ 1 := by
  refine ⟨fun h => ?_, withinBudget hok⟩
  -- with the empty key scanned, each of its changes has a guard
  obtain ⟨-, _, -, -, hguards⟩ :=
    buildReconciliationTransaction_spec Runner.new controllerName selected [Fact.zero]
  have hnodup := (h Runner.new [Fact.zero]).distinct (nodup_singleton _)
  rw [hguards, map_append] at hnodup
  rw [← count_guard_keys]
  exact nodup_iff_count_le_one.mp hnodup.of_append_left []

/-- One put more than the cap takes. -/
def cappedPuts : List Change := (List.range 61).map fun number => Change.put (itoa number) []

theorem cappedPuts_within_budget :
    let selected := (sortChangesByGroupAndKey cappedPuts).take maxTransactionChanges
    validateAndCapChanges (lit "network-policy") cappedPuts = .ok selected ∧
      selected.length = 60 ∧
      ∀ (runner : Runner) (allFacts : List Fact), WithinBudget cappedPuts allFacts
        (runner.buildReconciliationTransaction (lit "network-policy") selected allFacts) := by
  have hok : validateAndCapChanges (lit "network-policy") cappedPuts =
      .ok ((sortChangesByGroupAndKey cappedPuts).take maxTransactionChanges) := by decide +kernel
  exact ⟨hok, by decide +kernel, (transaction_budget_iff _ _ _ hok).mpr (by decide +kernel)⟩

/-- Two puts of the empty key are accepted, and it is compared twice. -/
theorem empty_key_compared_twice : validateAndCapChanges (lit "network-policy")
      [Change.put [] (lit "1"), Change.put [] (lit "2")] =
        .ok [Change.put [] (lit "1"), Change.put [] (lit "2")] ∧
    (Runner.new.buildReconciliationTransaction (lit "network-policy")
      [Change.put [] (lit "1"), Change.put [] (lit "2")] []).1 = [⟨[], 0⟩, ⟨[], 0⟩] := by
  decide

end CCattler.Controllers
