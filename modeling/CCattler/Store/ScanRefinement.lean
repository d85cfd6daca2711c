import CCattler.Store.Valid

/-! # Scans refine the fact map

The store keeps its keys twice, in a map and in a byte trie. Reading through the
trie is reading the map: a scan is the map restricted to a prefix, in key order.
-/

namespace CCattler.Store

open Go

/-- The facts of a map under a prefix, each once and in ascending key order. -/
structure SortedRestriction (facts : Str → Option Fact) (scanPrefix : Str)
    (result : List Fact) : Prop where
  keyed : ∀ key fact, facts key = some fact → fact.key = key
  ascending : result.Pairwise (fun earlier later => earlier.key < later.key)
  exact : ∀ fact, fact ∈ result ↔ ∃ key, facts key = some fact ∧ scanPrefix <+: key

/-- The trie holds the keys of the map, and a node for every path to one. -/
structure IndexAgrees (table : FactTable) : Prop where
  keys : ∀ key, key ∈ table.keyIndex.keysWithPrefix [] ↔ (table.facts key).isSome
  paths : ∀ key, (table.facts key).isSome → ∀ path, path <+: key →
    (table.keyIndex.root.descend path).isSome

namespace FactTable

variable {table : FactTable}

theorem Valid.sortedRestriction_scanned (h : table.Valid) (hnil : table.facts [] = none)
    (scanPrefix : Str) : SortedRestriction table.facts scanPrefix (table.scanned scanPrefix) where
  keyed _ _ hfact := h.stamped.key_eq hfact
  ascending := h.scanned_pairwise scanPrefix
  exact fact := by
    rw [h.mem_scanned]
    constructor
    · rintro ⟨-, hfact, hpre⟩
      exact ⟨fact.key, hfact, hpre⟩
    · rintro ⟨key, hfact, hpre⟩
      obtain rfl := h.stamped.key_eq hfact
      refine ⟨fun hkey => ?_, hfact, hpre⟩
      rw [hkey, hnil] at hfact
      exact absurd hfact (by simp)

theorem Valid.indexAgrees (h : table.Valid) (hnil : table.facts [] = none) : IndexAgrees table := by
  obtain ⟨keys, hindex, hmem⟩ := h.indexed
  have hkeys : ∀ key, key ∈ keys ↔ (table.facts key).isSome := by
    intro key
    rw [hmem]
    refine ⟨And.right, fun hsome => ⟨fun hkey => ?_, hsome⟩⟩
    rw [hkey, hnil] at hsome
    exact absurd hsome (by simp)
  refine ⟨fun key => ?_, fun key hsome path hpath => ?_⟩
  · rw [hindex.mem_keysWithPrefix, hkeys]
    simp
  · obtain ⟨_, rfl⟩ := hpath
    have hview := hindex.view_of_mem ((hkeys _).mpr hsome)
    rw [TrieNode.view_append] at hview
    obtain ⟨_, hfound, -⟩ := Option.bind_eq_some_iff.mp hview
    rw [hfound]
    rfl

end FactTable

/-- A scan returns the map's facts under the prefix in key order, after any calls that
write only non-empty keys. -/
theorem scan_refines_facts (operations : List Operation)
    (hkeys : ∀ operation ∈ operations, [] ∉ operation.writtenKeys) (scanPrefix : Str) :
    (∃ result, (MemoryStore.new.run operations).scan scanPrefix = some (.ok result) ∧
      SortedRestriction (MemoryStore.new.run operations).table.facts scanPrefix result) ∧
    (∀ pointer ∈ (MemoryStore.new.run operations).table.collectFactPointers scanPrefix,
      pointer.isSome) ∧
    IndexAgrees (MemoryStore.new.run operations).table := by
  obtain ⟨htable, hopen⟩ := MemoryStore.run_new_table operations
  have hvalid : (FactTable.new.run operations).Valid := FactTable.valid_new.run operations
  have hnil : (FactTable.new.run operations).facts [] = none :=
    FactTable.run_facts_of_notMem hkeys
  rw [MemoryStore.scan, hopen, htable]
  refine ⟨⟨_, ?_, hvalid.sortedRestriction_scanned hnil scanPrefix⟩, ?_, hvalid.indexAgrees hnil⟩
  · rw [hvalid.scan_eq]
    rfl
  · intro pointer hpointer
    obtain ⟨_, hkey, rfl⟩ := List.mem_map.mp hpointer
    exact hvalid.keysWithPrefix_isSome hkey

/-- Keys that extend one another, a re-insert, and a delete followed by a put in
one transaction. -/
theorem scan_refines_facts_nested_keys :
    let operations : List Operation :=
      [.put (lit "a/b") (lit "1"), .put (lit "a") (lit "2"), .put (lit "a/b/c") (lit "3"),
        .delete (lit "a/b"), .put (lit "a/b") (lit "4"),
        .transaction [] [⟨.delete, lit "a", []⟩, ⟨.put, lit "a", lit "5"⟩] []]
    (∀ operation ∈ operations, [] ∉ operation.writtenKeys) ∧
    ∃ result, (MemoryStore.new.run operations).scan (lit "a/") = some (.ok result) ∧
      SortedRestriction (MemoryStore.new.run operations).table.facts (lit "a/") result := by
  refine ⟨by decide, ?_⟩
  exact (scan_refines_facts _ (by decide) (lit "a/")).1

end CCattler.Store
