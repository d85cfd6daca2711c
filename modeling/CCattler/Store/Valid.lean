import CCattler.Store.FactTableLaws
import CCattler.Store.Memory

/-! # The invariant of the fact table

Facts carry their keys and revisions in range, and the index holds the non-empty keys.
Every call keeps this.
-/

namespace CCattler.Store

open Go List

namespace FactTable

/-- Every fact names its key and was stamped by a revision already handed out. -/
structure Stamped (table : FactTable) : Prop where
  key_eq : ∀ {key fact}, table.facts key = some fact → fact.key = key
  create_pos : ∀ {key fact}, table.facts key = some fact → 1 ≤ fact.createRevision
  create_le : ∀ {key fact}, table.facts key = some fact → fact.createRevision ≤ fact.revision
  revision_le : ∀ {key fact}, table.facts key = some fact → fact.revision ≤ table.currentRevision
  current_nonneg : 0 ≤ table.currentRevision

/-- The index holds the keys of the map. The empty key is never indexed. -/
def Indexed (table : FactTable) : Prop :=
  ∃ keys : Finset Str, table.keyIndex.Indexes keys ∧
    ∀ key, key ∈ keys ↔ key ≠ [] ∧ (table.facts key).isSome

structure Valid (table : FactTable) : Prop where
  stamped : table.Stamped
  indexed : table.Indexed

theorem valid_new : new.Valid where
  stamped := ⟨by simp [new], by simp [new], by simp [new], by simp [new], le_rfl⟩
  indexed := ⟨∅, PrefixTrie.indexes_new, by simp [new]⟩

variable {table : FactTable}

/-! ## Single operations -/

theorem Stamped.advance (h : table.Stamped) : table.advance.Stamped where
  key_eq := h.key_eq
  create_pos := h.create_pos
  create_le := h.create_le
  revision_le hfact := by
    have := h.revision_le hfact
    simp only [advance_currentRevision]
    omega
  current_nonneg := by
    have := h.current_nonneg
    simp only [advance_currentRevision]
    omega

/-- The key and revisions of what a write stores. -/
theorem written_eq_some {operation : Op} {revision : Int} {fact : Fact}
    (h : table.written operation revision = some fact) :
    fact.key = operation.key ∧ fact.revision = revision ∧ (fact.createRevision = revision ∨
        ∃ old, table.facts operation.key = some old ∧
          fact.createRevision = old.createRevision) := by
  unfold written at h
  split at h
  next =>
    obtain rfl := Option.some.inj h
    refine ⟨rfl, rfl, ?_⟩
    cases hold : table.facts operation.key with
    | none => exact Or.inl rfl
    | some old => exact Or.inr ⟨old, rfl, rfl⟩
  next => exact absurd h (by simp)

theorem afterWrite_facts (table : FactTable) (operation : Op) (revision : Int) (key : Str) :
    (table.afterWrite operation revision).facts key =
      if key = operation.key then table.written operation revision else table.facts key := by
  simp only [afterWrite, Function.update_apply]

theorem Stamped.afterWrite (h : table.Stamped) (hpos : 1 ≤ table.currentRevision)
    (operation : Op) : (table.afterWrite operation table.currentRevision).Stamped := by
  have hfacts := table.afterWrite_facts operation table.currentRevision
  -- a written fact is stamped now and created now or by the fact it replaces
  have hwritten : ∀ {fact}, table.written operation table.currentRevision = some fact →
      1 ≤ fact.createRevision ∧ fact.createRevision ≤ fact.revision := by
    intro fact hfact
    obtain ⟨-, _, hcreate | ⟨_, hold, hcreate⟩⟩ := written_eq_some hfact
    · omega
    · have := h.create_pos hold
      have := h.create_le hold
      have := h.revision_le hold
      omega
  refine ⟨?_, ?_, ?_, ?_, h.current_nonneg⟩
  all_goals
    intro _ fact hfact
    rw [hfacts] at hfact
    split at hfact
  · next heq => rw [(written_eq_some hfact).1, heq]
  · exact h.key_eq hfact
  · exact (hwritten hfact).1
  · exact h.create_pos hfact
  · exact (hwritten hfact).2
  · exact h.create_le hfact
  · exact (written_eq_some hfact).2.1.le
  · exact h.revision_le hfact

theorem Indexed.afterWrite (h : table.Indexed) {operation : Op}
    (hmutates : table.wouldMutate operation = true) (revision : Int) :
    (table.afterWrite operation revision).Indexed := by
  obtain ⟨keys, hindex, hmem⟩ := h
  obtain ⟨type, key, _⟩ := operation
  by_cases hnil : key = []
  · -- the empty key counts at the root or is looked up in vain
    subst hnil
    refine ⟨keys, ?_, ?_⟩
    · cases type with
      | put => exact hindex.insert_nil
      | delete =>
        change PrefixTrie.Indexes (table.keyIndex.remove []).1 keys
        rw [hindex.remove_of_notMem hindex.nonempty]
        exact hindex
    · intro other
      rw [hmem, afterWrite_facts]
      by_cases hother : other = [] <;> simp [hother]
  · cases type with
    | put =>
      refine ⟨insert key keys, ?_, ?_⟩
      · by_cases hkey : key ∈ keys
        · rw [Finset.insert_eq_of_mem hkey]
          exact hindex.insert_of_mem hkey
        · exact hindex.insert_of_notMem hkey hnil
      · intro other
        rw [Finset.mem_insert, hmem, afterWrite_facts]
        by_cases hother : other = key <;> simp [hother, written, hnil]
    | delete =>
      have hkey : key ∈ keys := (hmem key).mpr ⟨hnil, by simpa [wouldMutate] using hmutates⟩
      refine ⟨keys.erase key, (hindex.remove_of_mem hkey).1, ?_⟩
      intro other
      rw [Finset.mem_erase, hmem, afterWrite_facts]
      by_cases hother : other = key <;> simp [hother, written]

theorem Valid.executeOperation (h : table.Valid) (hpos : 1 ≤ table.currentRevision)
    (operation : Op) : (table.executeOperation operation table.currentRevision).1.Valid := by
  rw [executeOperation_eq]
  split
  next hmutates => exact ⟨h.stamped.afterWrite hpos operation, h.indexed.afterWrite hmutates _⟩
  next => exact h

/-! ## Calls and runs -/

theorem Valid.advance (h : table.Valid) : table.advance.Valid :=
  ⟨h.stamped.advance, h.indexed⟩

/-- A commit keeps validity; its events stem from valid tables. -/
theorem Valid.commitBranch_and_events (h : table.Valid) (operations : List Op) :
    (table.commitBranch operations).1.Valid ∧ ∀ event ∈ (table.commitBranch operations).2,
      ∃ (current : FactTable) (operation : Op) (revision : Int),
        current.Valid ∧ event = current.eventOf operation revision := by
  rw [commitBranch_eq]
  split
  next =>
    -- the counter stays at the transaction's revision while the branch runs
    refine (executeTransactionOperations_induction
      (P := fun current => current.Valid ∧ current.currentRevision = table.currentRevision + 1)
      ?_ ⟨h.advance, rfl⟩).imp And.left fun hevents event hevent => ?_
    · rintro current operation - ⟨hvalid, hcurrent⟩
      have hpos : 1 ≤ current.currentRevision := by
        have := h.stamped.current_nonneg
        omega
      rw [← hcurrent]
      exact ⟨hvalid.executeOperation hpos operation, executeOperation_currentRevision _ _ _⟩
    · obtain ⟨current, operation, ⟨hvalid, -⟩, heq⟩ := hevents event hevent
      exact ⟨current, operation, _, hvalid, heq⟩
  next => exact ⟨h, by simp⟩

theorem Valid.commitBranch (h : table.Valid) (operations : List Op) :
    (table.commitBranch operations).1.Valid := (h.commitBranch_and_events operations).1

theorem Valid.perform (h : table.Valid) (operation : Operation) :
    (table.perform operation).1.Valid := by
  by_cases hgrant : operation = .grantLease
  · rw [hgrant]
    exact h.advance
  · rw [perform_eq_commitBranch table hgrant]
    exact h.commitBranch _

theorem Valid.run (h : table.Valid) (operations : List Operation) :
    (table.run operations).Valid := by
  induction operations generalizing table with
  | nil => exact h
  | cons operation rest ih => exact ih (h.perform operation)

/-! ## Scans -/

theorem copyFactPointers_map {pointer : Str → Option Fact} {keys : List Str}
    (h : ∀ key ∈ keys, (pointer key).isSome) :
    copyFactPointers (keys.map pointer) = some (keys.filterMap pointer) := by
  induction keys with
  | nil => rfl
  | cons key rest ih =>
    obtain ⟨_, hfact⟩ := Option.isSome_iff_exists.mp (h key mem_cons_self)
    rw [map_cons, hfact, copyFactPointers,
      ih (fun other hother => h other (mem_cons_of_mem _ hother)),
      filterMap_cons_some hfact]
    rfl

theorem Valid.keysWithPrefix_isSome (h : table.Valid) {scanPrefix key : Str}
    (hkey : key ∈ table.keyIndex.keysWithPrefix scanPrefix) : (table.facts key).isSome := by
  obtain ⟨_, hindex, hmem⟩ := h.indexed
  exact ((hmem key).mp ((hindex.mem_keysWithPrefix scanPrefix).mp hkey).1).2

/-- The facts a scan returns. -/
def scanned (table : FactTable) (scanPrefix : Str) : List Fact :=
  (table.keyIndex.keysWithPrefix scanPrefix).filterMap table.facts

theorem Valid.scan_eq (h : table.Valid) (scanPrefix : Str) :
    table.scan scanPrefix = some (table.scanned scanPrefix) :=
  copyFactPointers_map fun _ hkey => h.keysWithPrefix_isSome hkey

theorem Valid.scanWithRevision_eq (h : table.Valid) (scanPrefix : Str) :
    table.scanWithRevision scanPrefix = some ⟨table.scanned scanPrefix, table.currentRevision⟩ := by
  have hscan := h.scan_eq scanPrefix
  rw [scan] at hscan
  rw [scanWithRevision, hscan]
  rfl

theorem Valid.mem_scanned (h : table.Valid) {scanPrefix : Str} {fact : Fact} :
    fact ∈ table.scanned scanPrefix ↔
      fact.key ≠ [] ∧ table.facts fact.key = some fact ∧ scanPrefix <+: fact.key := by
  obtain ⟨_, hindex, hmem⟩ := h.indexed
  rw [scanned, mem_filterMap]
  constructor
  · rintro ⟨key, hkey, hfact⟩
    obtain ⟨hin, hpre⟩ := (hindex.mem_keysWithPrefix scanPrefix).mp hkey
    rw [h.stamped.key_eq hfact]
    exact ⟨((hmem key).mp hin).1, hfact, hpre⟩
  · rintro ⟨hne, hfact, hpre⟩
    refine ⟨fact.key, (hindex.mem_keysWithPrefix scanPrefix).mpr ⟨?_, hpre⟩, hfact⟩
    exact (hmem fact.key).mpr ⟨hne, by rw [hfact]; rfl⟩

theorem Valid.scanned_pairwise (h : table.Valid) (scanPrefix : Str) :
    (table.scanned scanPrefix).Pairwise (fun earlier later => earlier.key < later.key) := by
  obtain ⟨_, hindex, -⟩ := h.indexed
  rw [scanned, pairwise_filterMap]
  refine (hindex.keysWithPrefix_pairwise scanPrefix).imp ?_
  intro earlier later hlt _ hfact _ hother
  rw [h.stamped.key_eq hfact, h.stamped.key_eq hother]
  exact hlt

end FactTable

/-- A table that satisfies the invariant. -/
structure ValidTable extends FactTable where
  valid : toFactTable.Valid

theorem ValidTable.toFactTable_injective : Function.Injective ValidTable.toFactTable := by
  rintro ⟨_, _⟩ ⟨_, _⟩ rfl
  rfl

namespace MemoryStore

theorem valid_run_new (operations : List Operation) : (new.run operations).table.Valid := by
  rw [(run_new_table operations).1]
  exact FactTable.valid_new.run operations

theorem scanWithRevision_eq {store : MemoryStore} (hopen : store.isClosed = false)
    (hvalid : store.table.Valid) (scanPrefix : Str) :
    store.scanWithRevision scanPrefix =
      some (.ok ⟨store.table.scanned scanPrefix, store.table.currentRevision⟩) := by
  rw [scanWithRevision, hopen, hvalid.scanWithRevision_eq]
  rfl

end MemoryStore

end CCattler.Store
