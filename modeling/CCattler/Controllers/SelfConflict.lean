import CCattler.Controllers.ChangeGroups
import CCattler.Controllers.Failure
import CCattler.Controllers.WatchedFacts

/-! # Conflicts without another writer

A put of a key that was not scanned is guarded by its absence, so a fact that is
already there makes the transaction fail although nobody else has written.
-/

namespace CCattler.Controllers

open Go Store CCattler.Types List

/-- Nobody else writes; ties are sorted in any way. -/
def quiet (order : SliceSort factLess) : Interference := ⟨fun _ => [], [], order⟩

/-! ## The guards of a quiet attempt -/

variable {comparison : Compare}

theorem meets_of_facts {table : FactTable} (hvalid : table.Valid) {fact : Fact}
    (h : table.facts fact.key = some fact) :
    table.meets ⟨fact.key, fact.revision⟩ = true := by
  have hpos : fact.revision ≠ 0 := by
    have := hvalid.stamped.create_pos h
    have := hvalid.stamped.create_le h
    omega
  simp [FactTable.meets, hpos, h]

/-- Every put targets a scanned or an absent key. -/
def PutsFree (table : FactTable) (allFacts : List Fact) (changes : List Change) : Prop :=
  ∀ change ∈ changes, change.type = .put →
    (∃ fact ∈ allFacts, fact.key = change.key) ∨ table.facts change.key = none

section

variable {table : FactTable} {allFacts : List Fact} {changes : List Change}

/-- Over an unchanged table the guards are met. -/
theorem changeGuard_meets (hvalid : table.Valid)
    (hread : ∀ fact ∈ allFacts, table.facts fact.key = some fact)
    (hputs : PutsFree table allFacts changes)
    (h : comparison ∈ changes.filterMap (changeGuard (scannedFactRevisions allFacts))) :
    table.meets comparison = true := by
  obtain ⟨change, hchange, hguard⟩ := mem_filterMap.mp h
  unfold changeGuard at hguard
  split at hguard
  next _ hlookup =>
    obtain ⟨fact, hfact, hkey, rfl⟩ := exists_of_scannedFactRevisions hlookup
    obtain rfl := Option.some.inj hguard
    rw [← hkey]
    exact meets_of_facts hvalid (hread fact hfact)
  next hlookup =>
    split at hguard
    next hput =>
      obtain rfl := Option.some.inj hguard
      have habsent := absent_of_scannedFactRevisions hlookup
      have hnone := (hputs change hchange hput).resolve_left
        fun ⟨fact, hfact, hkey⟩ => habsent fact hfact hkey
      simp [FactTable.meets, hnone]
    next => cases hguard

theorem length_buildReconciliationTransaction (runner : Runner) (controllerName : Str)
    (hsize : changes.length ≤ maxTransactionChanges) (allFacts : List Fact) :
    let built := runner.buildReconciliationTransaction controllerName changes allFacts
    built.1.length + built.2.length ≤ memoryStoreTransactionOperationLimit := by
  intro built
  have hoperations : built.2.length = changes.length := by
    simp [built, Runner.buildReconciliationTransaction]
  have hguards : (built.1.length : Int) ≤ _ :=
    (buildReconciliationTransaction_spec runner controllerName changes allFacts).1
  simp only [maxTransactionChanges, etcdTransactionOperationLimit] at hsize hguards
  rw [memoryStoreTransactionOperationLimit]
  omega

/-- Over an unchanged table the transaction succeeds. -/
theorem transaction_succeeds (hvalid : table.Valid)
    (hread : ∀ fact ∈ allFacts, table.facts fact.key = some fact)
    (hputs : PutsFree table allFacts changes)
    (hsize : changes.length ≤ maxTransactionChanges) (runner : Runner) (controllerName : Str) :
    (table.transaction (runner.buildReconciliationTransaction controllerName changes allFacts).1
      (runner.buildReconciliationTransaction controllerName changes allFacts).2 []).result =
        .ok true := by
  have hlength := length_buildReconciliationTransaction runner controllerName hsize allFacts
  have hmet : table.evaluateTransactionPreconditions
      (runner.buildReconciliationTransaction controllerName changes allFacts).1 = true := by
    rw [FactTable.evaluateTransactionPreconditions, all_eq_true]
    intro _ hmem
    obtain ⟨-, _, hsublist, -, heq⟩ :=
      buildReconciliationTransaction_spec runner controllerName changes allFacts
    rw [heq] at hmem
    rcases mem_append.mp hmem with hguard | hinput
    · exact changeGuard_meets hvalid hread hputs hguard
    · obtain ⟨fact, hfact, rfl⟩ := mem_map.mp hinput
      exact meets_of_facts hvalid (hread fact (hsublist.subset hfact))
  unfold FactTable.transaction
  rw [if_neg (by rw [length_nil]; omega), hmet]

end

/-! ## Quiet attempts -/

theorem submittedChanges_spec (controllerName : Str) (changes : List Change) :
    submittedChanges controllerName changes ⊆ changes ∧
      (submittedChanges controllerName changes).length ≤ maxTransactionChanges := by
  unfold submittedChanges
  split
  next => exact ⟨nil_subset _, Nat.zero_le _⟩
  next _ hok =>
    refine ⟨fun _ hchange => ?_, (validateAndCapChanges_ok hok).1.2.1⟩
    have hallowed := subset_of_validateAndCapChanges hok hchange
    rw [enforceWriteDomain_eq] at hallowed
    exact (mem_filter.mp hallowed).1

variable {State : Type}

/-- Without another writer, only scanned or absent keys are put, and what is submitted is
committed. -/
structure NoSelfConflict (runner : Runner) (controller : Controller State) (state : State)
    (store : MemoryStore) (order : SliceSort factLess) : Prop where
  puts : ∀ changes next,
    controller.reconcile state (scannedFacts order store controller.watch) = (.ok changes, next) →
    ∀ change ∈ changes, change.type = .put →
      (∃ fact ∈ scannedFacts order store controller.watch, fact.key = change.key) ∨
        store.table.facts change.key = none
  commits :
    let attempt := runner.attemptSingleReconciliation controller state store [] (quiet order)
    attempt.submitted ≠ [] → attempt.committed = true

variable {store : MemoryStore} {order : SliceSort factLess}

/-- What a scan returns is in the store, and it is all that lies below the
watched prefixes. -/
theorem mem_scannedFacts (hopen : store.isClosed = false) (hvalid : store.table.Valid)
    {watch : List Str} (hwatch : NonOverlapping watch) {fact : Fact} :
    fact ∈ scannedFacts order store watch ↔
      store.table.facts fact.key = some fact ∧ ∃ pre ∈ watch, pre <+: fact.key := by
  rw [scannedFacts_eq_visible hopen hvalid order hwatch, mem_visible, hvalid.mem_allFacts]

variable {controller : Controller State} {state : State} {runner : Runner}

theorem commitChanges_committed (hopen : store.isClosed = false) {allFacts : List Fact}
    {changes : List Change} (h : (store.table.transaction
      (runner.buildReconciliationTransaction controller.name changes allFacts).1
      (runner.buildReconciliationTransaction controller.name changes allFacts).2 []).result =
        .ok true) :
    let attempt := runner.commitChanges controller state store allFacts changes []
    attempt.committed = true ∧ attempt.store.isClosed = false := by
  have hresult := (Runner.transaction_open hopen
    (runner.buildReconciliationTransaction controller.name changes allFacts).1
    (runner.buildReconciliationTransaction controller.name changes allFacts).2).1.trans h
  simp only [Runner.commitChanges, show store.run [] = store from rfl, hresult]
  refine ⟨rfl, ?_⟩
  rw [MemoryStore.transaction, if_neg (by rw [hopen]; decide)]
  exact hopen

/-- A quiet attempt submits what the runner leaves of the proposed changes, and
nothing after an error. -/
theorem quiet_attempt_submitted (runner : Runner) {next : State} (hopen : store.isClosed = false)
    (hvalid : store.table.Valid) {result : Except Str (List Change)}
    (hreconcile : controller.reconcile state (scannedFacts order store controller.watch) =
      (result, next)) :
    let attempt := runner.attemptSingleReconciliation controller state store [] (quiet order)
    (∀ text, result = .error text → attempt.submitted = []) ∧ ∀ changes, result = .ok changes →
        attempt.submitted = submittedChanges controller.name changes := by
  have hscan : (scanFactsForController store controller.watch (quiet order).beforeScan) =
      (store, .ok (controller.watch.flatMap store.table.scanned)) :=
    scanFactsForController_quiet hopen hvalid controller.watch
  have hscanned : (quiet order).sortFacts.sort (controller.watch.flatMap store.table.scanned) =
      scannedFacts order store controller.watch :=
    (scannedFacts_eq_sort hopen hvalid order controller.watch).symm
  have hcomputed : computeReconciliationChanges controller state
      (scannedFacts order store controller.watch) [] =
        (result.mapError RunnerError.reconcile, next) := by
    simp only [computeReconciliationChanges, hreconcile]
  constructor
  · rintro text rfl
    simp only [Runner.attemptSingleReconciliation, hscan, hscanned, hcomputed, Except.mapError]
  · rintro changes rfl
    apply attempt_submitted
    · rw [hscan]
    · rw [hscanned, hcomputed]
      rfl

/-- A quiet attempt writes what it emitted. -/
theorem quiet_attempt_store (runner : Runner) {next : State} (hopen : store.isClosed = false)
    (hvalid : store.table.Valid) (hwatch : NonOverlapping controller.watch) {emitted : List Change}
    (hreconcile : controller.reconcile state (scannedFacts order store controller.watch) =
      (.ok emitted, next))
    (hputs : PutsFree store.table (scannedFacts order store controller.watch) emitted) :
    let attempt := runner.attemptSingleReconciliation controller state store [] (quiet order)
    (attempt.submitted ≠ [] → attempt.committed = true) ∧ attempt.store.isClosed = false ∧
      attempt.store.table = (store.table.commitBranch
        ((submittedChanges controller.name emitted).map
          fun change => ⟨change.type, change.key, change.value⟩)).1 := by
  intro attempt
  have hscan := scanFactsForController_quiet hopen hvalid controller.watch
  have hsubmitted : attempt.submitted = submittedChanges controller.name emitted :=
    (quiet_attempt_submitted runner hopen hvalid hreconcile).2 emitted rfl
  rcases Runner.attempt_cases runner controller state store [] (quiet order) with
    ⟨hnone, -, hstore⟩ | ⟨facts, changes, final, hfacts, hattempt⟩
  · have hsame : attempt.store = store := by
      rw [show attempt.store = _ from hstore, quiet, hscan]
    rw [hsame, ← hsubmitted, show attempt.submitted = [] from hnone]
    exact ⟨absurd rfl, hopen, rfl⟩
  · simp only [quiet, hscan] at hfacts hattempt
    obtain rfl := Except.ok.inj hfacts
    have heq : attempt = _ := hattempt
    have hchanges : changes = submittedChanges controller.name emitted := by
      rw [← hsubmitted, heq, commitChanges_submitted]
    obtain ⟨-, hcases⟩ := Runner.commitChanges_cases runner controller final hopen
      (order.sort (controller.watch.flatMap store.table.scanned)) changes []
    obtain ⟨hsubset, hsize⟩ := submittedChanges_spec controller.name emitted
    rw [← heq] at hcases
    rw [← scannedFacts_eq_sort hopen hvalid, hchanges] at heq
    obtain ⟨hcommitted, hopenAfter⟩ : attempt.committed = true ∧
        attempt.store.isClosed = false := by
      rw [heq]
      refine commitChanges_committed hopen (transaction_succeeds hvalid ?_ ?_ hsize _ _)
      · intro fact hfact
        exact ((mem_scannedFacts hopen hvalid hwatch).mp hfact).1
      · intro change hchange hput
        exact hputs change (hsubset hchange) hput
    refine ⟨fun _ => hcommitted, hopenAfter, ?_⟩
    rw [← hchanges]
    rcases hcases with ⟨-, -, hafter⟩ | ⟨huncommitted, -⟩
    · exact hafter
    · rw [hcommitted] at huncommitted
      cases huncommitted

/-- A controller conflicts with itself iff it puts a stored, unwatched fact. -/
theorem noSelfConflict_iff (hopen : store.isClosed = false) (hvalid : store.table.Valid)
    (hwatch : NonOverlapping controller.watch) :
    NoSelfConflict runner controller state store order ↔ ∀ changes next,
        controller.reconcile state (scannedFacts order store controller.watch) =
          (.ok changes, next) →
        ∀ change ∈ changes, change.type = .put → (∀ pre ∈ controller.watch, ¬ pre <+: change.key) →
          store.table.facts change.key = none := by
  constructor
  · intro h changes next hreconcile change hchange hput hunwatched
    refine (h.puts changes next hreconcile change hchange hput).resolve_left ?_
    rintro ⟨fact, hfact, hkey⟩
    obtain ⟨-, pre, hpre, hwatched⟩ := (mem_scannedFacts hopen hvalid hwatch).mp hfact
    rw [hkey] at hwatched
    exact hunwatched pre hpre hwatched
  · intro h
    have hputs : ∀ changes next,
        controller.reconcile state (scannedFacts order store controller.watch) =
          (.ok changes, next) →
        PutsFree store.table (scannedFacts order store controller.watch) changes := by
      intro changes next hreconcile change hchange hput
      cases hfact : store.table.facts change.key with
      | none => exact Or.inr rfl
      | some fact =>
        refine Or.inl ⟨fact, ?_, hvalid.stamped.key_eq hfact⟩
        rw [mem_scannedFacts hopen hvalid hwatch, hvalid.stamped.key_eq hfact]
        refine ⟨hfact, ?_⟩
        -- an unwatched key would be absent
        by_contra hunwatched
        push Not at hunwatched
        have habsent := h changes next hreconcile change hchange hput hunwatched
        exact absurd (hfact.symm.trans habsent) (by simp)
    refine ⟨hputs, fun hsubmitted => ?_⟩
    cases hreconcile : controller.reconcile state (scannedFacts order store controller.watch) with
    | mk result next =>
      cases result with
      | error text =>
        exact absurd ((quiet_attempt_submitted runner hopen hvalid hreconcile).1 text rfl)
          hsubmitted
      | ok emitted =>
        exact (quiet_attempt_store runner hopen hvalid hwatch hreconcile
          (hputs emitted next hreconcile)).1 hsubmitted

/-! ## Eviction -/

variable {change : Change} {facts : List Fact}

namespace EvictionController

/-- No marker that the cycle would set is there already. -/
def MarkersAbsent (table : FactTable) : Prop :=
  let facts := table.allFacts
  ∀ nodeID capacityBytes availableBytes,
    (extractNodeMemoryCapacity facts).lookup nodeID = some capacityBytes →
    (extractNodeMemoryAvailable facts).lookup nodeID = some availableBytes →
    capacityBytes ≠ 0 →
    hardEvictionMemoryThresholdPercent ≤
      calculateMemoryUtilizationPercent capacityBytes availableBytes →
    table.facts (keyDerivedNodePressure nodeID) = none ∧
      ∀ candidate ∈ evicted capacityBytes maxEvictionsPerCycle availableBytes
          (sortedEvictionCandidates nodeID (evictionInputs facts)),
        table.facts (keyDerivedInstanceControllerStopped candidate.instanceID) = none

theorem put_unwatched {field : Str} {scan : Str} (entity : Str)
    (hscan : scan = scanDerivedNodes ∨ scan = scanDerivedInstances) :
    ∀ pre ∈ watch, ¬ pre <+: fieldKey scan entity field := by
  have hapart : ∀ pre ∈ watch, Apart pre scanDerivedNodes ∧ Apart pre scanDerivedInstances := by
    decide
  intro pre hpre hstarts
  have hkey := isPrefix_fieldKey scan entity field
  rcases hscan with rfl | rfl
  · exact (hapart pre hpre).1.not_isPrefix hstarts hkey
  · exact (hapart pre hpre).2.not_isPrefix hstarts hkey

theorem noSelfConflict_iff_markersAbsent (runner : Runner) (hopen : store.isClosed = false)
    (hvalid : store.table.Valid) (order : SliceSort factLess) :
    NoSelfConflict runner evictionController () store order ↔ MarkersAbsent store.table := by
  have hwatch : NonOverlapping evictionController.watch := by decide
  have hreconcile : evictionController.reconcile ()
      (scannedFacts order store evictionController.watch) =
        (.ok (changesUnder store.table.allFacts ∅), ()) := by
    rw [scannedFacts_eq_visible hopen hvalid order hwatch]
    change (Except.ok (reconcile (visible watch _)), ()) = _
    rw [reconcile_visible]
  rw [noSelfConflict_iff hopen hvalid hwatch]
  simp only [hreconcile, Prod.mk.injEq, Except.ok.injEq]
  constructor
  · rintro h nodeID capacityBytes availableBytes hcapacity havailable hnonzero hhard
    have hemit := fun change hput hcases => h _ () ⟨rfl, trivial⟩ change
      (mem_changesUnder.mpr ⟨nodeID, capacityBytes, availableBytes, hcapacity, havailable, hnonzero,
        mem_reconcileNodePressure.mpr (Or.inr ⟨hhard, hcases⟩)⟩) hput
    refine ⟨?_, fun candidate hcandidate => ?_⟩
    · exact hemit (.put (keyDerivedNodePressure nodeID) (lit "memory")) rfl
        (Or.inr ⟨Map.has_empty nodeID, rfl⟩)
        (put_unwatched nodeID (Or.inl rfl))
    · exact hemit (.put (keyDerivedInstanceControllerStopped candidate.instanceID) (lit "true"))
        rfl (Or.inl (mem_map.mpr ⟨candidate, hcandidate, rfl⟩))
        (put_unwatched candidate.instanceID (Or.inr rfl))
  · rintro h changes next ⟨rfl, -⟩ change hchange hput -
    obtain ⟨nodeID, _, _, hcapacity, havailable, hnonzero, hmem⟩ := mem_changesUnder.mp hchange
    rcases mem_reconcileNodePressure.mp hmem with ⟨-, -, rfl⟩ | ⟨hhard, hcases⟩
    · cases hput
    obtain ⟨hpressure, hstopped⟩ := h nodeID _ _ hcapacity havailable hnonzero hhard
    rcases hcases with hevict | ⟨-, rfl⟩
    · obtain ⟨candidate, hcandidate, rfl⟩ := mem_map.mp hevict
      exact hstopped candidate hcandidate
    · exact hpressure

end EvictionController

/-! ## Failures -/

theorem mem_groupedChanges_key {groupID : Str} {changes : List Change}
    (h : change ∈ groupedChanges groupID changes) :
    ∃ original ∈ changes, change.key = original.key ∧ change.type = original.type := by
  obtain ⟨original, horiginal, rfl⟩ := mem_map.mp h
  exact ⟨original, horiginal, rfl, rfl⟩

namespace FailureController

/-- A key that the controller scans. -/
def Watched (key : Str) : Prop := ∃ pre ∈ watch, pre <+: key

theorem watched_derivedInstance (instanceID field : Str) :
    Watched (fieldKey scanDerivedInstances instanceID field) :=
  ⟨scanDerivedInstances, by decide, isPrefix_fieldKey _ _ _⟩

theorem watched_observedInstance (instanceID field : Str) :
    Watched (fieldKey scanObservedInstances instanceID field) :=
  ⟨scanObservedInstances, by decide, isPrefix_fieldKey _ _ _⟩

theorem watched_of_grouped {groupID : Str} {changes : List Change}
    (h : change ∈ groupedChanges groupID changes)
    (hall : changes.Forall fun original => Watched original.key) : Watched change.key := by
  obtain ⟨original, horiginal, hkey, -⟩ := mem_groupedChanges_key h
  exact hkey ▸ forall_iff_forall_mem.mp hall original horiginal

variable {Source : Type} {settings : FailureSettings} {environment : FailureEnvironment Source}

theorem watched_of_handled {instanceID : Str} {cycle : FailureCycle Source}
    {handled : List Change × FailureCycle Source} (h : Handled settings instanceID cycle handled)
    (hchange : change ∈ handled.1) : Watched change.key := by
  cases h with
  | nothing => cases hchange
  | drained | recovered =>
    exact watched_of_grouped hchange ⟨watched_derivedInstance _ _, watched_derivedInstance _ _⟩
  | replaced =>
    exact watched_of_grouped hchange ⟨watched_derivedInstance _ _,
      ⟨scanObservedInstances, by decide, prefix_append _ _⟩, watched_observedInstance _ _,
      watched_observedInstance _ _⟩

theorem watched_of_mem_proposedChanges {source : Source}
    (h : change ∈ (proposedChanges settings environment source facts).1) : Watched change.key := by
  have hcounter : ∀ serviceName, Watched (keyDerivedCrashLoopCounter serviceName) :=
    fun serviceName => ⟨scanDerivedCrashLoops, by decide, prefix_append _ _⟩
  simp only [proposedChanges, mem_append] at h
  rcases h with (hinstance | hemitted) | hreset
  · obtain ⟨_, _, hchange⟩ := exists_of_mem_processInstances hinstance
    exact watched_of_handled (processInstanceForRecovery_handled _) hchange
  · obtain ⟨serviceName, -, rfl⟩ := mem_map.mp hemitted
    exact hcounter serviceName
  · obtain ⟨serviceName, -, rfl⟩ := mem_map.mp hreset
    exact hcounter serviceName

theorem capOutputChanges_subset {limit : Nat} {changes selected : List Change}
    (h : capOutputChanges limit changes = .ok selected) : selected ⊆ changes := by
  unfold capOutputChanges at h
  split at h
  next =>
    cases htaken : takeWholeGroups changes limit with
    | error large => exact absurd (htaken ▸ h) (by simp [Except.map])
    | ok taken =>
      rw [htaken] at h
      obtain rfl := Except.ok.inj h
      exact (takeWholeGroups_front htaken).1.subset
  next =>
    obtain rfl := Except.ok.inj h
    exact List.Subset.refl _

theorem noSelfConflict (runner : Runner) (settings : FailureSettings)
    (environment : FailureEnvironment Source) (describe : GroupTooLarge → Str) (source : Source)
    (hopen : store.isClosed = false) (hvalid : store.table.Valid) (order : SliceSort factLess) :
    NoSelfConflict runner (failureController settings environment describe) source store
      order := by
  rw [noSelfConflict_iff hopen hvalid (by change NonOverlapping watch; decide)]
  intro changes _ hreconcile change hchange _ hunwatched
  exfalso
  set facts := scannedFacts order store (failureController settings environment describe).watch
  have hcapped : capOutputChanges maxFailureControllerChangesPerCycle
      (proposedChanges settings environment source facts).1 = .ok changes := by
    have hresult := congrArg Prod.fst hreconcile
    simp only [failureController, reconcile] at hresult
    cases hcap : capOutputChanges maxFailureControllerChangesPerCycle
        (proposedChanges settings environment source facts).1 with
    | error large =>
      rw [hcap] at hresult
      exact absurd hresult (by simp [Except.mapError])
    | ok selected =>
      rw [hcap] at hresult
      exact congrArg Except.ok (Except.ok.inj hresult)
  obtain ⟨pre, hpre, hstarts⟩ :=
    watched_of_mem_proposedChanges (capOutputChanges_subset hcapped hchange)
  exact hunwatched pre hpre hstarts

end FailureController

end CCattler.Controllers
