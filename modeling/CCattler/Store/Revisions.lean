import CCattler.Store.Valid

/-! # Revisions

The decision to draw a revision looks at the operations one by one against the table
before the call, while execution lets each see the effects of the earlier ones.
-/

namespace CCattler.Store

open Go List FactTable

variable {fact : Fact}

namespace FactTable

variable {table : FactTable}

/-- Everything a branch changes carries its revision and is announced with it. -/
structure StampedBy (table : FactTable) (revision : Int)
    (after : FactTable × List Event) : Prop where
  stamps : ∀ key fact, after.1.facts key ≠ table.facts key → after.1.facts key = some fact →
    fact.revision = revision
  announces : ∀ key, after.1.facts key ≠ table.facts key → ∃ event ∈ after.2, event.fact.key = key
  events : ∀ event ∈ after.2, event.fact.revision = revision

theorem stampedBy_executeOperation (table : FactTable) (operation : Op) (revision : Int) :
    StampedBy table revision ((table.executeOperation operation revision).1,
      (table.executeOperation operation revision).2.toList) := by
  rw [executeOperation_eq]
  split
  next =>
    have hfacts := table.afterWrite_facts operation revision
    refine ⟨fun key fact hchanged hfact => ?_, fun key hchanged => ?_, ?_⟩
    · rw [hfacts] at hchanged hfact
      split at hfact
      next => exact (written_eq_some hfact).2.1
      next hne => exact absurd (if_neg hne) hchanged
    · refine ⟨_, mem_singleton_self _, ?_⟩
      rw [hfacts] at hchanged
      by_contra hne
      rw [eventOf_key] at hne
      exact hchanged (if_neg (Ne.symm hne))
    · simp
  next => exact ⟨by simp, by simp, by simp⟩

/-- A key that differs after two parts of a branch was changed by one of them. -/
theorem StampedBy.trans {revision : Int} {first second : FactTable × List Event}
    (hfirst : StampedBy table revision first) (hsecond : StampedBy first.1 revision second) :
    StampedBy table revision (second.1, first.2 ++ second.2) where
  stamps key fact hchanged hfact := by
    by_cases hlater : second.1.facts key = first.1.facts key
    · simp only [hlater] at hchanged hfact
      exact hfirst.stamps key fact hchanged hfact
    · exact hsecond.stamps key fact hlater hfact
  announces key hchanged := by
    by_cases hlater : second.1.facts key = first.1.facts key
    · simp only [hlater] at hchanged
      obtain ⟨event, hevent, hkey⟩ := hfirst.announces key hchanged
      exact ⟨event, mem_append_left _ hevent, hkey⟩
    · obtain ⟨event, hevent, hkey⟩ := hsecond.announces key hlater
      exact ⟨event, mem_append_right _ hevent, hkey⟩
  events event hevent := by
    rcases mem_append.mp hevent with hearly | hlate
    · exact hfirst.events event hearly
    · exact hsecond.events event hlate

theorem stampedBy_executeTransactionOperations (table : FactTable) (operations : List Op)
    (revision : Int) :
    StampedBy table revision (table.executeTransactionOperations operations revision) := by
  induction operations generalizing table with
  | nil => exact ⟨by simp, by simp, by simp⟩
  | cons operation rest ih =>
    exact (stampedBy_executeOperation table operation revision).trans (ih _)

/-- A call draws one revision exactly when an operation of its branch would change the
table, and otherwise does nothing. -/
structure RevisionStep (table : FactTable) (branch : List Op)
    (after : FactTable × List Event) : Prop where
  draws : table.transactionWouldMutateState branch = true →
    after.1.currentRevision = table.currentRevision + 1
  stamped : StampedBy table (table.currentRevision + 1) after
  idle : table.transactionWouldMutateState branch = false → after = (table, [])

theorem revisionStep_commitBranch (table : FactTable) (branch : List Op) :
    RevisionStep table branch (table.commitBranch branch) := by
  rw [commitBranch_eq]
  split
  next hmutates =>
    -- drawing the revision does not touch the facts
    have hstamped := stampedBy_executeTransactionOperations table.advance branch
      (table.currentRevision + 1)
    refine ⟨fun _ => executeTransactionOperations_currentRevision _ _ _,
      ⟨hstamped.stamps, hstamped.announces, hstamped.events⟩, fun hidle => ?_⟩
    exact absurd (hmutates.symm.trans hidle) (by simp)
  next hidle =>
    exact ⟨fun hmutates => absurd hmutates hidle, ⟨by simp, by simp, by simp⟩, fun _ => rfl⟩

/-! ## Facts of an earlier state -/

theorem perform_currentRevision_le (table : FactTable) (operation : Operation) :
    table.currentRevision ≤ (table.perform operation).1.currentRevision := by
  by_cases hgrant : operation = .grantLease
  · rw [hgrant, perform_grantLease, advance_currentRevision]
    omega
  · rw [perform_eq_commitBranch table hgrant, commitBranch_eq]
    split
    next =>
      rw [executeTransactionOperations_currentRevision, advance_currentRevision]
      omega
    next => exact le_rfl

theorem perform_facts_of_old {operation : Operation} {key : Str}
    (hfact : (table.perform operation).1.facts key = some fact)
    (hold : fact.revision ≤ table.currentRevision) : table.facts key = some fact := by
  by_cases hgrant : operation = .grantLease
  · rw [hgrant, perform_grantLease] at hfact
    exact hfact
  · by_contra hnew
    rw [perform_eq_commitBranch table hgrant] at hfact
    have hstep := revisionStep_commitBranch table (table.branchOf operation)
    have hrevision := hstep.stamped.stamps key fact (fun heq => hnew (heq ▸ hfact)) hfact
    omega

/-- Revisions only rise, and what is no newer than the earlier table was in it. -/
structure GrowsTo (table later : FactTable) : Prop where
  revision_le : table.currentRevision ≤ later.currentRevision
  persisted : ∀ {key fact}, later.facts key = some fact →
    fact.revision ≤ table.currentRevision → table.facts key = some fact

theorem GrowsTo.refl (table : FactTable) : table.GrowsTo table :=
  ⟨le_rfl, fun hfact _ => hfact⟩

theorem GrowsTo.trans {first second third : FactTable} (hfirst : first.GrowsTo second)
    (hsecond : second.GrowsTo third) : first.GrowsTo third where
  revision_le := hfirst.revision_le.trans hsecond.revision_le
  persisted hfact hold :=
    hfirst.persisted (hsecond.persisted hfact (hold.trans hfirst.revision_le)) hold

theorem growsTo_perform (table : FactTable) (operation : Operation) :
    table.GrowsTo (table.perform operation).1 where
  revision_le := table.perform_currentRevision_le operation
  persisted := perform_facts_of_old

/-- A compare with a revision that was read holds of nothing but the fact read. -/
theorem GrowsTo.facts_of_meets {later : FactTable} (h : table.GrowsTo later)
    (hstamped : table.Stamped) {key : Str} (hfact : table.facts key = some fact)
    (hmeets : later.meets ⟨key, fact.revision⟩ = true) : later.facts key = some fact := by
  have hpos := (hstamped.create_pos hfact).trans (hstamped.create_le hfact)
  rw [meets, if_neg (by simp only; omega), Option.any_eq_true] at hmeets
  obtain ⟨other, hother, hrevision⟩ := hmeets
  have hsame : other.revision = fact.revision := by simpa using hrevision
  have hold := h.persisted hother (hsame ▸ hstamped.revision_le hfact)
  rw [hfact] at hold
  rw [hother, Option.some.inj hold]

theorem run_facts_of_old {operations : List Operation} {key : Str}
    (hfact : (table.run operations).facts key = some fact)
    (hold : fact.revision ≤ table.currentRevision) : table.facts key = some fact := by
  induction operations generalizing table with
  | nil => exact hfact
  | cons operation rest ih =>
    have hlater := ih hfact (hold.trans (table.perform_currentRevision_le operation))
    exact perform_facts_of_old hlater hold

end FactTable

/-- A branch that puts a key and deletes it again draws a revision and emits two events. -/
theorem net_no_op_draws_revision :
    let branch : List Op := [⟨.put, lit "a", lit "1"⟩, ⟨.delete, lit "a", []⟩]
    let after := MemoryStore.new.table.perform (.transaction [] branch [])
    after.1.facts = MemoryStore.new.table.facts ∧
      MemoryStore.new.table.currentRevision = 0 ∧ after.1.currentRevision = 1 ∧
      after.2.length = 2 := by
  refine ⟨?_, by decide, by decide, by decide⟩
  funext key
  by_cases hkey : key = lit "a"
  · subst hkey
    decide
  · exact perform_facts_of_notMem (by simp [Operation.writtenKeys, hkey])

/-- Facts are stamped in order, a call draws a revision exactly when an operation of its
branch would change the state, and an idle branch changes nothing. -/
theorem revision_discipline (operations : List Operation) :
    let table := (MemoryStore.new.run operations).table
    (∀ key fact, table.facts key = some fact → 1 ≤ fact.createRevision ∧
      fact.createRevision ≤ fact.revision ∧ fact.revision ≤ table.currentRevision) ∧
    (∀ operation, operation ≠ .grantLease →
      FactTable.RevisionStep table (table.branchOf operation) (table.perform operation) ∧
      ((table.perform operation).1.facts ≠ table.facts →
        (table.perform operation).1.currentRevision = table.currentRevision + 1)) ∧
    (∀ branch revision, table.transactionWouldMutateState branch = false →
      table.executeTransactionOperations branch revision = (table, [])) := by
  intro table
  have hvalid : table.Valid := MemoryStore.valid_run_new operations
  refine ⟨fun key fact hfact => ?_, fun operation hoperation => ?_, fun branch revision hidle => ?_⟩
  · exact ⟨hvalid.stamped.create_pos hfact, hvalid.stamped.create_le hfact,
      hvalid.stamped.revision_le hfact⟩
  · rw [perform_eq_commitBranch table hoperation]
    have hstep := revisionStep_commitBranch table (table.branchOf operation)
    refine ⟨hstep, fun hchanged => hstep.draws ?_⟩
    by_contra hidle
    rw [hstep.idle (by simpa using hidle)] at hchanged
    exact hchanged rfl
  · exact executeTransactionOperations_of_wouldMutate_false hidle revision

end CCattler.Store
