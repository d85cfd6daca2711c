import CCattler.Controllers.Runner
import CCattler.Store.Revisions

/-! # Optimistic concurrency of the runner

A guard that holds at commit time pins the very fact that was scanned: revisions are
never reused.
-/

namespace CCattler.Controllers

open Go Store List MemoryStore

/-! ## Scans during a run -/

/-- A scanned fact was in the store at some earlier moment of the history. -/
def ReadFrom (later : FactTable) (fact : Fact) : Prop :=
  ∃ (table : FactTable) (operations : List Operation), table.Valid ∧
    table.facts fact.key = some fact ∧ later = table.run operations

theorem ReadFrom.run {table : FactTable} {fact : Fact} (h : ReadFrom table fact)
    (operations : List Operation) : ReadFrom (table.run operations) fact := by
  obtain ⟨earlier, before, hvalid, hfact, rfl⟩ := h
  refine ⟨earlier, before ++ operations, hvalid, hfact, ?_⟩
  rw [FactTable.run, FactTable.run, FactTable.run, foldl_append]

/-- The scan leaves an open valid store, and everything it returns was read from it. -/
theorem scanFactsForController_spec {store : MemoryStore} (hopen : store.isClosed = false)
    (hvalid : store.table.Valid) (watch : List Str) (beforeScan : Nat → List Operation) :
    ∃ facts operations, (scanFactsForController store watch beforeScan).2 = .ok facts ∧
      (scanFactsForController store watch beforeScan).1.isClosed = false ∧
      (scanFactsForController store watch beforeScan).1.table = store.table.run operations ∧
      ∀ fact ∈ facts, ReadFrom (scanFactsForController store watch beforeScan).1.table fact := by
  induction watch generalizing store beforeScan with
  | nil => exact ⟨[], [], rfl, hopen, rfl, by simp⟩
  | cons scanPrefix rest ih =>
    obtain ⟨htable, hstill⟩ := run_table hopen (beforeScan 0)
    have hcurrent : (store.run (beforeScan 0)).table.Valid := by
      rw [htable]
      exact hvalid.run _
    obtain ⟨facts, operations, hfacts, hclosed, hrun, hread⟩ :=
      ih hstill hcurrent (fun index => beforeScan (index + 1))
    rw [scanFactsForController]
    simp only [scanWithRevision_eq hstill hcurrent, hfacts]
    refine ⟨_, beforeScan 0 ++ operations, rfl, hclosed, ?_, ?_⟩
    · rw [hrun, htable, FactTable.run, FactTable.run, FactTable.run, foldl_append]
    · intro fact hfact
      rcases mem_append.mp hfact with hhere | hlater
      · refine ⟨_, operations, hcurrent, ?_, hrun⟩
        exact (hcurrent.mem_scanned.mp hhere).2.1
      · exact hread fact hlater

/-! ## Guards -/

variable {allFacts : List Fact} {key : Str}

theorem scannedFactRevisions_eq (allFacts : List Fact) : scannedFactRevisions allFacts =
    Map.ofPairs (allFacts.map fun fact => (fact.key, fact.revision)) := by
  rw [Map.ofPairs, foldl_map]
  rfl

theorem exists_of_scannedFactRevisions {revision : Int}
    (h : (scannedFactRevisions allFacts).lookup key = some revision) :
    ∃ fact ∈ allFacts, fact.key = key ∧ fact.revision = revision := by
  rw [scannedFactRevisions_eq] at h
  simpa using Map.mem_of_lookup_ofPairs h

theorem absent_of_scannedFactRevisions (h : (scannedFactRevisions allFacts).lookup key = none) :
    ∀ fact ∈ allFacts, fact.key ≠ key := by
  rintro fact hfact rfl
  rw [scannedFactRevisions_eq, AList.lookup_eq_none, AList.mem_keys, Map.mem_keys_ofPairs] at h
  exact h ⟨fact.revision, mem_map.mpr ⟨fact, hfact, rfl⟩⟩

/-- Guards of input keys come after the others, are of other keys and keep to the limit. -/
theorem appendInputKeyGuardsFrom_spec (inputKeyLimit : Int) (writePrefixes changeKeys : List Str)
    (transactionCompares : List Compare) (allFacts : List Fact) :
    let guards := appendInputKeyGuardsFrom inputKeyLimit writePrefixes changeKeys
      transactionCompares allFacts
    (guards.length : Int) ≤ max (transactionCompares.length : Int) inputKeyLimit ∧
      ∃ guarded : List Fact, guarded.Sublist allFacts ∧
        (∀ fact ∈ guarded, fact.key ∉ changeKeys) ∧
        guards = transactionCompares ++ guarded.map (fun fact => ⟨fact.key, fact.revision⟩) := by
  have hnone : ∀ (compares : List Compare) (facts : List Fact), ∃ guarded : List Fact,
      guarded.Sublist facts ∧ (∀ fact ∈ guarded, fact.key ∉ changeKeys) ∧
        compares = compares ++ guarded.map (fun fact => ⟨fact.key, fact.revision⟩) :=
    fun compares facts => ⟨[], nil_sublist _, by simp, by simp⟩
  fun_induction appendInputKeyGuardsFrom inputKeyLimit writePrefixes changeKeys
    transactionCompares allFacts with
  | case1 | case2 => exact ⟨le_max_left _ _, hnone _ _⟩
  | case3 _ _ _ _ _ ih | case4 _ _ _ _ _ _ ih =>
    obtain ⟨hlength, guarded, hsublist, hrest⟩ := ih
    exact ⟨hlength, guarded, hsublist.cons _, hrest⟩
  | case5 compares fact rest _ hother _ ih =>
    obtain ⟨hlength, guarded, hsublist, hkeys, hguards⟩ := ih
    refine ⟨hlength.trans ?_, fact :: guarded, hsublist.cons_cons fact,
      forall_mem_cons.mpr ⟨hother, hkeys⟩, by simpa using hguards⟩
    rw [length_append, length_singleton]
    push_cast
    omega

variable {change : Change} {changes : List Change} {controllerName : Str} {runner : Runner}

theorem buildReconciliationTransaction_spec (runner : Runner) (controllerName : Str)
    (changes : List Change) (allFacts : List Fact) :
    let guards := (runner.buildReconciliationTransaction controllerName changes allFacts).1
    (guards.length : Int) ≤
        max (changes.length : Int) (etcdTransactionOperationLimit - changes.length) ∧
      ∃ guarded : List Fact, guarded.Sublist allFacts ∧
        (∀ fact ∈ guarded, fact.key ∉ changes.map Change.key) ∧
        guards = changes.filterMap (changeGuard (scannedFactRevisions allFacts)) ++
          guarded.map (fun fact => ⟨fact.key, fact.revision⟩) := by
  have hguards : (changes.filterMap (changeGuard (scannedFactRevisions allFacts))).length ≤
      changes.length := length_filterMap_le _ _
  simp only [Runner.buildReconciliationTransaction, Runner.appendInputKeyGuards, length_map]
  split
  next => exact ⟨by omega, [], nil_sublist _, by simp, by simp⟩
  next =>
    refine (appendInputKeyGuardsFrom_spec _ _ _ _ allFacts).imp_left fun hlength => ?_
    have hlimit := hlength
    split at hlimit <;> omega

/-- The transaction holds the guard of each change. -/
theorem changeGuard_mem_build {comparison : Compare} (hchange : change ∈ changes)
    (hguard : changeGuard (scannedFactRevisions allFacts) change = some comparison) :
    comparison ∈ (runner.buildReconciliationTransaction controllerName changes allFacts).1 := by
  obtain ⟨-, _, -, -, hguards⟩ :=
    buildReconciliationTransaction_spec runner controllerName changes allFacts
  rw [hguards]
  exact mem_append_left _ (mem_filterMap.mpr ⟨change, hchange, hguard⟩)

/-- What the guard of a change says about the table it holds of. -/
def Pinned (before : FactTable) (allFacts : List Fact) (change : Change) : Prop :=
  (∃ fact ∈ allFacts, fact.key = change.key ∧ before.facts change.key = some fact) ∨
    ((∀ fact ∈ allFacts, fact.key ≠ change.key) ∧ before.facts change.key = none)

variable {before : FactTable}

theorem Pinned.of_sort (order : SliceSort factLess)
    (h : Pinned before (order.sort allFacts) change) :
    Pinned before allFacts change := by
  rcases h with ⟨fact, hfact, hrest⟩ | ⟨habsent, hnone⟩
  · exact Or.inl ⟨fact, order.mem_sort.mp hfact, hrest⟩
  · exact Or.inr ⟨fun fact hfact => habsent fact (order.mem_sort.mpr hfact), hnone⟩

theorem ReadFrom.eq_of_meets {fact : Fact} (h : ReadFrom before fact)
    (hmeets : before.meets ⟨fact.key, fact.revision⟩ = true) :
    before.facts fact.key = some fact := by
  obtain ⟨table, _, hvalid, hfact, rfl⟩ := h
  -- revision 0 would ask for absence instead
  have hpos : fact.revision ≠ 0 := by
    have := hvalid.stamped.create_pos hfact
    have := hvalid.stamped.create_le hfact
    omega
  simp only [FactTable.meets, if_neg hpos] at hmeets
  obtain ⟨current, hcurrent, hsame⟩ := (Option.any_eq_true _ _).mp hmeets
  have hrevision : current.revision = fact.revision := by simpa using hsame
  have hold : current.revision ≤ table.currentRevision := by
    rw [hrevision]
    exact hvalid.stamped.revision_le hfact
  have hearlier := FactTable.run_facts_of_old hcurrent hold
  rw [hcurrent, ← hearlier, hfact]

theorem pinned_of_preconditions (hread : ∀ fact ∈ allFacts, ReadFrom before fact)
    (hmet : before.evaluateTransactionPreconditions
      (runner.buildReconciliationTransaction controllerName changes allFacts).1 = true)
    (hchange : change ∈ changes)
    (hguarded : change.type = .put ∨ ∃ fact ∈ allFacts, fact.key = change.key) :
    Pinned before allFacts change := by
  have hall := all_eq_true.mp hmet
  -- a scanned key is guarded by a revision, an unscanned one by absence
  cases hlookup : (scannedFactRevisions allFacts).lookup change.key with
  | some revision =>
    obtain ⟨fact, hfact, hkey, rfl⟩ := exists_of_scannedFactRevisions hlookup
    have hguard : changeGuard (scannedFactRevisions allFacts) change =
        some ⟨change.key, fact.revision⟩ := by
      simp [changeGuard, hlookup]
    have hmeets := hall _ (changeGuard_mem_build hchange hguard)
    rw [← hkey] at hmeets
    refine Or.inl ⟨fact, hfact, hkey, ?_⟩
    rw [← hkey]
    exact (hread fact hfact).eq_of_meets hmeets
  | none =>
    have habsent := absent_of_scannedFactRevisions hlookup
    have hput : change.type = .put :=
      hguarded.resolve_right fun ⟨fact, hfact, hkey⟩ => habsent fact hfact hkey
    have hguard : changeGuard (scannedFactRevisions allFacts) change = some ⟨change.key, 0⟩ := by
      simp [changeGuard, hlookup, hput]
    have hmeets := hall _ (changeGuard_mem_build hchange hguard)
    refine Or.inr ⟨habsent, ?_⟩
    simpa [FactTable.meets] using hmeets

/-! ## Attempts -/

namespace Runner

variable {State : Type} {store : MemoryStore}

/-- An attempt submits nothing, or commits changes against the facts it scanned. -/
theorem attempt_cases (runner : Runner) (controller : Controller State) (state : State)
    (store : MemoryStore) (deltaEvents : List Event) (interference : Interference) :
    let scanned := scanFactsForController store controller.watch interference.beforeScan
    let attempt := runner.attemptSingleReconciliation controller state store deltaEvents
      interference
    (attempt.submitted = [] ∧ attempt.committed = false ∧ attempt.store = scanned.1) ∨
      ∃ facts changes next, scanned.2 = .ok facts ∧
        attempt = runner.commitChanges controller next scanned.1
          (interference.sortFacts.sort facts) changes interference.beforeCommit := by
  intro scanned attempt
  simp only [attempt, attemptSingleReconciliation]
  split
  next => exact Or.inl ⟨rfl, rfl, rfl⟩
  next facts hfacts =>
    split
    next => exact Or.inl ⟨rfl, rfl, rfl⟩
    next => exact Or.inl ⟨rfl, rfl, rfl⟩
    next =>
      split
      next => exact Or.inl ⟨rfl, rfl, rfl⟩
      next =>
        split
        next => exact Or.inl ⟨rfl, rfl, rfl⟩
        next changes _ => exact Or.inr ⟨facts, changes, _, hfacts, rfl⟩

theorem transaction_open {before : MemoryStore} (hopen : before.isClosed = false)
    (compares : List Compare) (operations : List Op) :
    (before.transaction compares operations []).2 =
        (before.table.transaction compares operations []).result ∧
      (before.transaction compares operations []).1.table =
        (before.table.transaction compares operations []).table := by
  simp [MemoryStore.transaction, hopen, MemoryStore.finish]

/-- A transaction commits all of its operations if its preconditions hold and it fits. -/
theorem transaction_result (table : FactTable) (compares : List Compare) (operations : List Op) :
    ((table.transaction compares operations []).result = .ok true ∧
        table.evaluateTransactionPreconditions compares = true ∧
        (table.transaction compares operations []).table = (table.commitBranch operations).1) ∨
      ((table.transaction compares operations []).result ≠ .ok true ∧
        (table.transaction compares operations []).table = table) := by
  unfold FactTable.transaction
  dsimp only
  split
  next => exact Or.inr ⟨by simp, rfl⟩
  next =>
    cases hmet : table.evaluateTransactionPreconditions compares with
    | true => exact Or.inl ⟨rfl, rfl, rfl⟩
    | false => exact Or.inr ⟨by simp, rfl⟩

/-- A commit writes the changes or nothing. -/
theorem commitChanges_cases (runner : Runner) (controller : Controller State) (state : State)
    (hopen : store.isClosed = false) (allFacts : List Fact) (changes : List Change)
    (beforeCommit : List Operation) :
    let before := store.run beforeCommit
    let built := runner.buildReconciliationTransaction controller.name changes allFacts
    let attempt := runner.commitChanges controller state store allFacts changes beforeCommit
    attempt.submitted = changes ∧ ((attempt.committed = true ∧
          before.table.evaluateTransactionPreconditions built.1 = true ∧
          attempt.store.table = (before.table.commitBranch built.2).1) ∨
        (attempt.committed = false ∧ attempt.store.table = before.table)) := by
  intro before built attempt
  have hbefore := (run_table hopen beforeCommit).2
  obtain ⟨hresult, htable⟩ := transaction_open hbefore built.1 built.2
  simp only [attempt, commitChanges]
  rw [hresult]
  rcases transaction_result before.table built.1 built.2 with
    ⟨hcommit, hmet, hafter⟩ | ⟨hstop, hafter⟩
  · rw [show (store.run beforeCommit) = before from rfl, hcommit]
    exact ⟨rfl, Or.inl ⟨rfl, hmet, htable.trans hafter⟩⟩
  · split
    next => exact ⟨rfl, Or.inr ⟨rfl, htable.trans hafter⟩⟩
    next => exact ⟨rfl, Or.inr ⟨rfl, htable.trans hafter⟩⟩
    next hok => exact absurd hok hstop

end Runner

/-- A commit finds the put keys and the scanned deleted keys as they were read and applies
all operations at once; an attempt without one leaves what the others left. -/
theorem optimistic_commit {State : Type} (runner : Runner) (controller : Controller State)
    (state : State) (history : List Operation) (deltaEvents : List Event)
    (interference : Interference) :
    let store := MemoryStore.new.run history
    let scanned := scanFactsForController store controller.watch interference.beforeScan
    let before := scanned.1.run interference.beforeCommit
    let attempt := runner.attemptSingleReconciliation controller state store deltaEvents
      interference
    ∃ facts, scanned.2 = .ok facts ∧ (attempt.committed = true → (∀ change ∈ attempt.submitted,
          (change.type = .put ∨ ∃ fact ∈ facts, fact.key = change.key) →
            Pinned before.table facts change) ∧
        attempt.store.table = (before.table.commitBranch (attempt.submitted.map
          fun change => ⟨change.type, change.key, change.value⟩)).1) ∧
      (attempt.committed = false →
        attempt.store.table = scanned.1.table ∨ attempt.store.table = before.table) := by
  intro store scanned before attempt
  have hopen : store.isClosed = false := (run_new_table history).2
  have hvalid : store.table.Valid := valid_run_new history
  obtain ⟨facts, _, hfacts, hscanOpen, -, hread⟩ :=
    scanFactsForController_spec hopen hvalid controller.watch interference.beforeScan
  refine ⟨facts, hfacts, ?_⟩
  rcases Runner.attempt_cases runner controller state store deltaEvents interference with
    ⟨-, huncommitted, hstore⟩ | ⟨found, changes, next, hfound, hattempt⟩
  · refine ⟨fun hcommitted => ?_, fun _ => Or.inl (congrArg MemoryStore.table hstore)⟩
    exact absurd (hcommitted.symm.trans huncommitted) (by simp)
  · obtain rfl : found = facts := Except.ok.inj (hfound.symm.trans hfacts)
    obtain ⟨hsubmitted, hcases⟩ := Runner.commitChanges_cases runner controller next hscanOpen
      (interference.sortFacts.sort found) changes interference.beforeCommit
    rw [← hattempt] at hsubmitted hcases
    rcases hcases with ⟨hcommitted, hmet, hafter⟩ | ⟨huncommitted, hafter⟩
    · refine ⟨fun _ => ⟨fun change hchange hguarded => ?_, ?_⟩, fun huncommitted => ?_⟩
      · refine Pinned.of_sort interference.sortFacts ?_
        rw [show attempt.submitted = changes from hsubmitted] at hchange
        refine pinned_of_preconditions (fun fact hfact => ?_) hmet hchange ?_
        · rw [show before.table = _ from
            (run_table hscanOpen interference.beforeCommit).1]
          exact (hread fact (interference.sortFacts.mem_sort.mp hfact)).run _
        · exact hguarded.imp_right fun ⟨fact, hfact, hkey⟩ =>
            ⟨fact, interference.sortFacts.mem_sort.mpr hfact, hkey⟩
      · rw [show attempt.submitted = changes from hsubmitted]
        exact hafter
      · exact absurd (huncommitted.symm.trans hcommitted) (by simp)
    · refine ⟨fun hcommitted => ?_, fun _ => Or.inr hafter⟩
      exact absurd (hcommitted.symm.trans huncommitted) (by simp)

end CCattler.Controllers
