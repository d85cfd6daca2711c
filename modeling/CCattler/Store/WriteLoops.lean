import CCattler.Go.Map
import CCattler.Store.Client

/-! # Loops of writes

What a table holds after a loop of puts or of deletes. A key that is put more than
once holds what was put last.
-/

namespace CCattler.Store

open Go Concurrency

namespace ValidTable

variable (table : ValidTable)

/-- The table after a loop of puts. -/
def putAll (entries : List (Str × Str)) : ValidTable :=
  ⟨table.toFactTable.putAll entries, table.valid.putAll entries⟩

@[simp] theorem value_putAll (entries : List (Str × Str)) (key : Str) :
    (table.putAll entries).value key = (FactTable.lastValue entries key).or (table.value key) :=
  FactTable.putAll_value table.toFactTable entries key

theorem perform_get (key : Str) : perform (.get key) table = (match table.facts key with
        | none => .error .keyNotFound
        | some fact => .ok fact, table) := by
  simp only [perform, FactTable.get]
  cases table.facts key <;> rfl

end ValidTable

/-! ## What a scan returns -/

theorem ValidTable.mem_scanned_pairs {table : ValidTable} {scanPrefix : Str}
    (hscan : scanPrefix ≠ []) {name value : Str} :
    (name, value) ∈ (table.scanned scanPrefix).map
        (fun fact => (fact.key.trimPrefix scanPrefix, fact.value)) ↔
      table.value (scanPrefix ++ name) = some value := by
  rw [List.mem_map]
  constructor
  · intro ⟨fact, hmem, heq⟩
    obtain ⟨⟨_, hkey⟩, hvalue⟩ :=
      (table.valid.exists_scanned_iff hscan).mp ⟨fact, hmem, rfl, rfl⟩
    rw [← hkey, Str.trimPrefix_append, Prod.mk.injEq] at heq
    rw [← heq.1, ← heq.2, hkey]
    exact hvalue
  · intro hvalue
    obtain ⟨fact, hmem, hkey, rfl⟩ :=
      (table.valid.exists_scanned_iff hscan).mpr ⟨List.prefix_append _ _, hvalue⟩
    exact ⟨fact, hmem, by rw [hkey, Str.trimPrefix_append]⟩

theorem ValidTable.nodup_scanned_names (table : ValidTable) (scanPrefix : Str) :
    ((table.scanned scanPrefix).map (fun fact => fact.key.trimPrefix scanPrefix)).Nodup := by
  have hnodup : (table.scanned scanPrefix).Nodup := by
    refine (table.valid.scanned_pairwise scanPrefix).imp fun hlt heq => ?_
    rw [heq] at hlt
    exact List.lt_irrefl _ hlt
  refine List.Nodup.map_on (fun fact hfact other hother heq => ?_) hnodup
  obtain ⟨-, hread, _, hkey⟩ := table.valid.mem_scanned.mp hfact
  obtain ⟨-, hreadOther, _, hkeyOther⟩ := table.valid.mem_scanned.mp hother
  rw [← hkey, ← hkeyOther, Str.trimPrefix_append, Str.trimPrefix_append] at heq
  rw [← hkey, heq, hkeyOther, hreadOther] at hread
  exact (Option.some.inj hread).symm

/-- A map built of a scan looks up the store. -/
theorem ValidTable.lookup_scanned {table : ValidTable} {scanPrefix : Str}
    (hscan : scanPrefix ≠ []) (name : Str) :
    (Map.ofPairs ((table.scanned scanPrefix).map
      (fun fact => (fact.key.trimPrefix scanPrefix, fact.value)))).lookup name =
        table.value (scanPrefix ++ name) := by
  refine Option.ext fun value => ?_
  rw [Map.lookup_ofPairs_iff, mem_scanned_pairs hscan]
  intro _ hfirst _ hsecond hname
  have hvalue := (mem_scanned_pairs hscan).mp hfirst
  rw [hname, (mem_scanned_pairs hscan).mp hsecond] at hvalue
  exact (Option.some.inj hvalue).symm

end CCattler.Store
