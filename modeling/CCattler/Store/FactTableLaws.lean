import CCattler.Store.FactTable
import CCattler.Store.TrieLaws

/-! # Laws of the data-lock sections

Every writing section is a branch committed at one revision, so what a single
operation of a branch can do decides what any call can do.
-/

namespace CCattler.Store

open Go List

variable {operations : List Op} {key value : Str}

namespace FactTable

variable {table : FactTable}

/-! ## One operation of a branch -/

theorem holds_iff :
    table.holds key value = true ↔ ∃ fact, table.facts key = some fact ∧ fact.value = value := by
  cases h : table.facts key <;> simp [holds, h]

section

variable (table : FactTable)

@[simp] theorem advance_facts : table.advance.facts = table.facts := rfl

@[simp] theorem advance_currentRevision :
    table.advance.currentRevision = table.currentRevision + 1 := rfl

@[simp] theorem wouldMutate_advance (operation : Op) :
    table.advance.wouldMutate operation = table.wouldMutate operation := rfl

end

section

variable (table : FactTable) (operation : Op)

/-- What an operation writes at its key: the new fact, or nothing. -/
def written (revision : Int) : Option Fact :=
  match operation.type with
  | .put => some ⟨operation.key, operation.value, revision,
      ((table.facts operation.key).map Fact.createRevision).getD revision, 0⟩
  | .delete => none

/-- The index after an operation wrote. -/
def reindexed : PrefixTrie :=
  match operation.type with
  | .put => table.keyIndex.insert operation.key
  | .delete => (table.keyIndex.remove operation.key).1

/-- The event of an operation that wrote. -/
def eventOf (revision : Int) : Event :=
  match operation.type with
  | .put => ⟨.put, ⟨operation.key, operation.value, revision,
      ((table.facts operation.key).map Fact.createRevision).getD revision, 0⟩,
      table.facts operation.key⟩
  | .delete => ⟨.delete, ⟨operation.key, [], revision, 0, 0⟩, table.facts operation.key⟩

end

section

variable (table : FactTable) (operation : Op) (revision : Int)

@[simp] theorem eventOf_key : (table.eventOf operation revision).fact.key = operation.key := by
  unfold eventOf
  split <;> rfl

@[simp] theorem eventOf_revision : (table.eventOf operation revision).fact.revision = revision := by
  unfold eventOf
  split <;> rfl

end

/-- The table after an operation wrote. -/
def afterWrite (table : FactTable) (operation : Op) (revision : Int) : FactTable where
  facts := Function.update table.facts operation.key (table.written operation revision)
  keyIndex := table.reindexed operation
  currentRevision := table.currentRevision

section

variable (table : FactTable) (operation : Op) (revision : Int)

/-- An operation either changes nothing and is silent, or writes its key and
announces it. -/
theorem executeOperation_eq : table.executeOperation operation revision =
      if table.wouldMutate operation then
        (table.afterWrite operation revision, some (table.eventOf operation revision))
      else (table, none) := by
  obtain ⟨type, key, value⟩ := operation
  cases type with
  | put =>
    cases h : table.holds key value with
    | true => simp [executeOperation, executePutOperation, wouldMutate, h]
    | false =>
      simp only [executeOperation, executePutOperation, wouldMutate, h]
      rfl
  | delete =>
    rcases h : table.facts key with _ | _
    · simp [executeOperation, executeDeleteOperation, wouldMutate, h]
    · simp [executeOperation, executeDeleteOperation, wouldMutate, h, applyDelete, afterWrite,
        written, reindexed, eventOf]

theorem executeOperation_currentRevision :
    (table.executeOperation operation revision).1.currentRevision = table.currentRevision := by
  rw [executeOperation_eq]
  split <;> rfl

end

theorem executeOperation_facts_of_ne {operation : Op} {revision : Int} (h : key ≠ operation.key) :
    (table.executeOperation operation revision).1.facts key = table.facts key := by
  rw [executeOperation_eq]
  split
  next => simp [afterWrite, h]
  next => rfl

/-! ## A branch -/

@[simp] theorem executeTransactionOperations_nil (table : FactTable) (revision : Int) :
    table.executeTransactionOperations [] revision = (table, []) := rfl

theorem executeTransactionOperations_cons (table : FactTable) (operation : Op) (rest : List Op)
    (revision : Int) :
    table.executeTransactionOperations (operation :: rest) revision =
      (((table.executeOperation operation revision).1.executeTransactionOperations rest revision).1,
        (table.executeOperation operation revision).2.toList ++
          ((table.executeOperation operation revision).1.executeTransactionOperations
            rest revision).2) := rfl

theorem executeTransactionOperations_currentRevision (table : FactTable) (operations : List Op)
    (revision : Int) :
    (table.executeTransactionOperations operations revision).1.currentRevision =
      table.currentRevision := by
  induction operations generalizing table with
  | nil => rfl
  | cons operation rest ih =>
    exact (ih _).trans (executeOperation_currentRevision table operation revision)

theorem executeTransactionOperations_of_wouldMutate_false
    (h : table.transactionWouldMutateState operations = false) (revision : Int) :
    table.executeTransactionOperations operations revision = (table, []) := by
  induction operations with
  | nil => rfl
  | cons operation rest ih =>
    rw [transactionWouldMutateState, any_cons, Bool.or_eq_false_iff] at h
    have hfirst : table.executeOperation operation revision = (table, none) := by
      rw [executeOperation_eq, h.1]
      rfl
    rw [executeTransactionOperations_cons, hfirst, ih h.2]
    rfl

/-- The invariant rule for a transaction's operations. -/
theorem executeTransactionOperations_induction {revision : Int} {P : FactTable → Prop}
    (hstep : ∀ current operation, operation ∈ operations → P current →
      P (current.executeOperation operation revision).1) (hstart : P table) :
    P (table.executeTransactionOperations operations revision).1 ∧
      ∀ event ∈ (table.executeTransactionOperations operations revision).2,
        ∃ current operation, P current ∧ event = current.eventOf operation revision := by
  induction operations generalizing table with
  | nil => exact ⟨hstart, by simp⟩
  | cons operation rest ih =>
    obtain ⟨hend, hevents⟩ := ih
      (fun current later hlater => hstep current later (mem_cons_of_mem _ hlater))
      (hstep table operation mem_cons_self hstart)
    refine ⟨hend, fun event hevent => ?_⟩
    rcases mem_append.mp hevent with hhere | hlater
    · rw [executeOperation_eq] at hhere
      split at hhere
      next => exact ⟨table, operation, hstart, mem_singleton.mp hhere⟩
      next => simp at hhere
    · exact hevents event hlater

/-- A branch that changes nothing takes no revision. -/
theorem commitBranch_eq (table : FactTable) (operations : List Op) : table.commitBranch operations =
      if table.transactionWouldMutateState operations then
        table.advance.executeTransactionOperations operations (table.currentRevision + 1)
      else (table, []) := by
  unfold commitBranch
  split
  next => rfl
  next h =>
    exact executeTransactionOperations_of_wouldMutate_false (by simpa using h) 0

/-! ## Calls as branches -/

/-- The branch that a call commits. -/
def branchOf (table : FactTable) : Operation → List Op
  | .put key value => [⟨.put, key, value⟩]
  | .delete key => [⟨.delete, key, []⟩]
  | .transaction compares onSuccess onFailure =>
    if compares.length + onSuccess.length + onFailure.length >
        memoryStoreTransactionOperationLimit then []
    else if table.evaluateTransactionPreconditions compares then onSuccess else onFailure
  | .get _ | .scan _ | .scanWithRevision _ | .grantLease => []

theorem commitBranch_singleton (table : FactTable) (operation : Op) :
    table.commitBranch [operation] =
      if table.wouldMutate operation then
        (table.advance.afterWrite operation (table.currentRevision + 1),
          [table.eventOf operation (table.currentRevision + 1)])
      else (table, []) := by
  rw [commitBranch_eq, transactionWouldMutateState, any_cons, any_nil, Bool.or_false]
  split
  next h =>
    rw [executeTransactionOperations_cons, executeOperation_eq, wouldMutate_advance, if_pos h]
    rfl
  next => rfl

theorem put_of_holds (h : table.holds key value = true) :
    (table.put key value).table = table ∧ (table.put key value).pendingEvents = [] := by
  obtain ⟨_, hfact, hvalue⟩ := holds_iff.mp h
  simp [put, hfact, hvalue]

theorem put_of_not_holds (h : table.holds key value = false) : (table.put key value).table =
        table.advance.afterWrite ⟨.put, key, value⟩ (table.currentRevision + 1) ∧
      (table.put key value).pendingEvents =
        [table.eventOf ⟨.put, key, value⟩ (table.currentRevision + 1)] := by
  unfold put
  split
  next _ hfact =>
    rw [if_neg (fun hvalue => by simp [holds, hfact, hvalue] at h)]
    exact ⟨rfl, rfl⟩
  next => exact ⟨rfl, rfl⟩

theorem delete_of_none (h : table.facts key = none) :
    (table.delete key).table = table ∧ (table.delete key).pendingEvents = [] := by
  simp [delete, h]

theorem delete_of_some {fact : Fact} (h : table.facts key = some fact) : (table.delete key).table =
        table.advance.afterWrite ⟨.delete, key, []⟩ (table.currentRevision + 1) ∧
      (table.delete key).pendingEvents =
        [table.eventOf ⟨.delete, key, []⟩ (table.currentRevision + 1)] := by
  simp [delete, h, applyDelete, afterWrite, written, reindexed, eventOf]

variable {operation : Operation}

theorem perform_eq_commitBranch (table : FactTable)
    (h : operation ≠ .grantLease) :
    table.perform operation = table.commitBranch (table.branchOf operation) := by
  cases operation with
  | put key value =>
    rw [branchOf, commitBranch_singleton, perform]
    cases hholds : table.holds key value with
    | true =>
      rw [(put_of_holds hholds).1, (put_of_holds hholds).2]
      simp [wouldMutate, hholds]
    | false =>
      rw [(put_of_not_holds hholds).1, (put_of_not_holds hholds).2]
      simp [wouldMutate, hholds]
  | delete key =>
    rw [branchOf, commitBranch_singleton, perform]
    rcases hfact : table.facts key with _ | _
    · rw [(delete_of_none hfact).1, (delete_of_none hfact).2]
      simp [wouldMutate, hfact]
    · rw [(delete_of_some hfact).1, (delete_of_some hfact).2]
      simp [wouldMutate, hfact]
  | transaction compares onSuccess onFailure =>
    simp only [perform, transaction, branchOf]
    split <;> rfl
  | grantLease => exact absurd rfl h
  | _ => rfl

theorem perform_grantLease (table : FactTable) :
    table.perform .grantLease = (table.advance, []) := rfl

theorem mem_of_mem_branchOf {compares : List Compare} {onSuccess onFailure : List Op} {op : Op}
    (h : op ∈ table.branchOf (.transaction compares onSuccess onFailure)) :
    op ∈ onSuccess ++ onFailure := by
  simp only [branchOf] at h
  split at h
  next => simp at h
  next => split at h <;> simp [h]

theorem branchOf_key_mem {op : Op} (h : op ∈ table.branchOf operation) :
    op.key ∈ operation.writtenKeys := by
  cases operation with
  | put key value =>
    rw [branchOf, mem_singleton] at h
    simp [h, Operation.writtenKeys]
  | delete key =>
    rw [branchOf, mem_singleton] at h
    simp [h, Operation.writtenKeys]
  | transaction compares onSuccess onFailure =>
    exact mem_map_of_mem (mem_of_mem_branchOf h)
  | _ => simp [branchOf] at h

/-! ## Frames -/

section

variable (h : ∀ operation ∈ operations, operation.key ≠ key)
include h

theorem executeTransactionOperations_facts_of_notMem (revision : Int) :
    (table.executeTransactionOperations operations revision).1.facts key = table.facts key := by
  refine (executeTransactionOperations_induction
    (P := fun current => current.facts key = table.facts key) ?_ rfl).1
  intro current operation hoperation hsame
  rw [executeOperation_facts_of_ne (h operation hoperation).symm, hsame]

theorem commitBranch_facts_of_notMem :
    (table.commitBranch operations).1.facts key = table.facts key := by
  rw [commitBranch_eq]
  split
  next => exact executeTransactionOperations_facts_of_notMem h _
  next => rfl

end

/-- The value an operation leaves at its key. -/
def outcome (operation : Op) : Option Str :=
  match operation.type with
  | .put => some operation.value
  | .delete => none

theorem value_of_wouldMutate_false {operation : Op} (h : table.wouldMutate operation = false) :
    (table.facts operation.key).map Fact.value = outcome operation := by
  obtain ⟨type, key, value⟩ := operation
  cases type with
  | put =>
    simp only [wouldMutate, Bool.not_eq_false'] at h
    obtain ⟨_, hfact, hvalue⟩ := holds_iff.mp h
    simp [hfact, hvalue, outcome]
  | delete =>
    simp only [wouldMutate, Option.isSome_eq_false_iff, Option.isNone_iff_eq_none] at h
    simp [h, outcome]

theorem executeOperation_value (table : FactTable) (operation : Op) (revision : Int) :
    ((table.executeOperation operation revision).1.facts operation.key).map Fact.value =
      outcome operation := by
  rw [executeOperation_eq]
  split
  next =>
    simp only [afterWrite, Function.update_self, written, outcome]
    split <;> rfl
  next h => exact value_of_wouldMutate_false (by simpa using h)

/-- The value of a key all of whose operations agree. -/
theorem commitBranch_value_of_same {value : Option Str}
    (h : ∃ operation ∈ operations, operation.key = key)
    (hsame : ∀ operation ∈ operations, operation.key = key → outcome operation = value) :
    ((table.commitBranch operations).1.facts key).map Fact.value = value := by
  have hexecute : ∀ (current : FactTable) (revision : Int),
      ((current.executeTransactionOperations operations revision).1.facts key).map Fact.value =
        value := by
    intro current revision
    induction operations generalizing current with
    | nil => simp at h
    | cons first rest ih =>
      rw [executeTransactionOperations_cons]
      by_cases hlater : ∃ operation ∈ rest, operation.key = key
      · exact ih hlater (fun operation hmem => hsame operation (mem_cons_of_mem _ hmem)) _
      · obtain rfl : first.key = key := by simpa [hlater] using h
        rw [executeTransactionOperations_facts_of_notMem fun later hmem heq =>
          hlater ⟨later, hmem, heq⟩, executeOperation_value]
        exact hsame first mem_cons_self rfl
  unfold commitBranch
  split <;> exact hexecute _ _

theorem commitBranch_value (hnodup : (operations.map Op.key).Nodup) {operation : Op}
    (h : operation ∈ operations) :
    ((table.commitBranch operations).1.facts operation.key).map Fact.value = outcome operation := by
  refine commitBranch_value_of_same ⟨operation, h, rfl⟩ fun other hother heq => ?_
  rw [inj_on_of_nodup_map hnodup hother h heq]

theorem perform_facts_of_notMem (h : key ∉ operation.writtenKeys) :
    (table.perform operation).1.facts key = table.facts key := by
  by_cases hgrant : operation = .grantLease
  · rw [hgrant, perform_grantLease, advance_facts]
  · rw [perform_eq_commitBranch table hgrant]
    exact commitBranch_facts_of_notMem fun op hop heq => h (heq ▸ branchOf_key_mem hop)

theorem run_facts_of_notMem {operations : List Operation}
    (h : ∀ operation ∈ operations, key ∉ operation.writtenKeys) :
    (table.run operations).facts key = table.facts key := by
  induction operations generalizing table with
  | nil => rfl
  | cons operation rest ih =>
    refine (ih fun later hlater => h later (mem_cons_of_mem _ hlater)).trans ?_
    exact perform_facts_of_notMem (h operation mem_cons_self)

end FactTable

end CCattler.Store
