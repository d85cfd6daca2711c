import CCattler.Store.Valid

/-! # The store as a map from keys to values

Components that only read what a key holds see a table through its values.
Revisions, events and the index do not show there.
-/

namespace CCattler.Store.FactTable

open Go List Option

variable {table : FactTable}

/-- What a key holds. -/
def value (table : FactTable) (key : Str) : Option Str := (table.facts key).map Fact.value

@[simp] theorem value_isSome (table : FactTable) (key : Str) :
    (table.value key).isSome = (table.facts key).isSome :=
  isSome_map

variable {key value : Str}

theorem value_eq_some :
    table.value key = some value ↔ ∃ fact, table.facts key = some fact ∧ fact.value = value := by
  rw [FactTable.value, map_eq_some_iff]

theorem Valid.exists_scanned_iff (h : table.Valid) {scanPrefix : Str} (hscan : scanPrefix ≠ []) :
    (∃ fact ∈ table.scanned scanPrefix, fact.key = key ∧ fact.value = value) ↔
      scanPrefix <+: key ∧ table.value key = some value := by
  rw [value_eq_some]
  constructor
  · rintro ⟨fact, hfact, rfl, rfl⟩
    obtain ⟨-, hread, hbelow⟩ := h.mem_scanned.mp hfact
    exact ⟨hbelow, fact, hread, rfl⟩
  · rintro ⟨hbelow, fact, hread, rfl⟩
    obtain rfl := h.stamped.key_eq hread
    refine ⟨fact, h.mem_scanned.mpr ⟨fun hempty => hscan ?_, hread, hbelow⟩, rfl, rfl⟩
    exact prefix_nil.mp (hempty ▸ hbelow)

@[simp] theorem value_new (key : Str) : new.value key = none := rfl

theorem value_put (table : FactTable) (key value other : Str) :
    (table.put key value).table.value other =
      if other = key then some value else table.value other := by
  cases hholds : table.holds key value with
  | true =>
    rw [(put_of_holds hholds).1]
    obtain ⟨_, hfact, hvalue⟩ := holds_iff.mp hholds
    split
    next heq => rw [heq, FactTable.value, hfact, map_some, hvalue]
    next => rfl
  | false =>
    rw [(put_of_not_holds hholds).1, FactTable.value, afterWrite_facts]
    by_cases heq : other = key
    · simp [heq, written]
    · rw [if_neg heq, if_neg heq]
      rfl

theorem value_delete (table : FactTable) (key other : Str) :
    (table.delete key).table.value other = if other = key then none else table.value other := by
  cases hfact : table.facts key with
  | none =>
    rw [(delete_of_none hfact).1]
    split
    next heq => rw [heq, FactTable.value, hfact, map_none]
    next => rfl
  | some fact =>
    rw [(delete_of_some hfact).1, FactTable.value, afterWrite_facts]
    by_cases heq : other = key
    · simp [heq, written]
    · rw [if_neg heq, if_neg heq]
      rfl

/-! ## Puts one after another -/

/-- The puts of a list of keys and values. -/
def puts (entries : List (Str × Str)) : List Operation :=
  entries.map (fun entry => .put entry.1 entry.2)

section

variable (table : FactTable)

/-- The table after a loop of puts. -/
def putAll (entries : List (Str × Str)) : FactTable :=
  table.run (puts entries)

@[simp] theorem putAll_nil : table.putAll [] = table := rfl

theorem putAll_cons (entry : Str × Str) (rest : List (Str × Str)) :
    table.putAll (entry :: rest) = ((table.put entry.1 entry.2).table).putAll rest := rfl

theorem putAll_append (first second : List (Str × Str)) :
    table.putAll (first ++ second) = (table.putAll first).putAll second := by
  simp [FactTable.putAll, puts, run]

end

theorem Valid.putAll (h : table.Valid) (entries : List (Str × Str)) :
    (table.putAll entries).Valid :=
  h.run _

variable {entries : List (Str × Str)}

theorem putAll_facts_of_notMem (h : ∀ entry ∈ entries, entry.1 ≠ key) :
    (table.putAll entries).facts key = table.facts key := by
  apply run_facts_of_notMem
  intro _ hoperation hwritten
  obtain ⟨entry, hentry, rfl⟩ := mem_map.mp hoperation
  exact h entry hentry (mem_singleton.mp hwritten).symm

/-- No key is written with two values. -/
def Consistent (entries : List (Str × Str)) : Prop :=
  ∀ first ∈ entries, ∀ second ∈ entries, first.1 = second.1 → first.2 = second.2

theorem Consistent.sublist {fewer : List (Str × Str)} (h : Consistent entries)
    (hsub : fewer ⊆ entries) : Consistent fewer :=
  fun first hfirst second hsecond => h first (hsub hfirst) second (hsub hsecond)

/-- What the last entry for a key puts. -/
def lastValue (entries : List (Str × Str)) (key : Str) : Option Str :=
  (entries.reverse.find? (fun entry => entry.1 = key)).map Prod.snd

@[simp] theorem lastValue_nil (key : Str) : lastValue [] key = none := rfl

theorem lastValue_append (earlier later : List (Str × Str)) (key : Str) :
    lastValue (earlier ++ later) key = (lastValue later key).or (lastValue earlier key) := by
  cases h : later.reverse.find? (fun entry => entry.1 = key) <;> simp [lastValue, h]

theorem lastValue_singleton (entry : Str × Str) (key : Str) :
    lastValue [entry] key = if entry.1 = key then some entry.2 else none := by
  by_cases h : entry.1 = key <;> simp [lastValue]

theorem lastValue_eq_none_iff :
    lastValue entries key = none ↔ ∀ entry ∈ entries, entry.1 ≠ key := by
  simp [lastValue]

theorem mem_of_lastValue (h : lastValue entries key = some value) : (key, value) ∈ entries := by
  obtain ⟨⟨found, _⟩, hfind, rfl⟩ := map_eq_some_iff.mp h
  have hmem := mem_of_find?_eq_some hfind
  obtain rfl : found = key := by simpa using List.find?_some hfind
  exact mem_reverse.mp hmem

theorem lastValue_of_mem (hentries : Consistent entries) (h : (key, value) ∈ entries) :
    lastValue entries key = some value := by
  cases hlast : lastValue entries key with
  | none => exact absurd rfl (lastValue_eq_none_iff.mp hlast _ h)
  | some last => exact congrArg some (hentries _ (mem_of_lastValue hlast) _ h rfl)

theorem putAll_value (table : FactTable) (entries : List (Str × Str)) (key : Str) :
    (table.putAll entries).value key = (lastValue entries key).or (table.value key) := by
  induction entries generalizing table with
  | nil => simp
  | cons entry rest ih =>
    rw [putAll_cons, ih, value_put, ← singleton_append, lastValue_append, lastValue_singleton]
    by_cases h : entry.1 = key
    · simp [h]
    · simp [h, Ne.symm h]

theorem putAll_value_of_notMem (h : ∀ entry ∈ entries, entry.1 ≠ key) :
    (table.putAll entries).value key = table.value key := by
  rw [putAll_value, lastValue_eq_none_iff.mpr h, none_or]

theorem putAll_value_iff (hentries : Consistent entries) :
    (table.putAll entries).value key = some value ↔
      (key, value) ∈ entries ∨ ((∀ entry ∈ entries, entry.1 ≠ key) ∧
        table.value key = some value) := by
  rw [putAll_value, or_eq_some_iff, lastValue_eq_none_iff]
  exact or_congr_left ⟨mem_of_lastValue, lastValue_of_mem hentries⟩

theorem put_of_none (hnone : table.facts key = none) (value : Str) :
    (table.put key value).table.currentRevision = table.currentRevision + 1 ∧
      (table.put key value).table.facts = Function.update table.facts key
        (some ⟨key, value, table.currentRevision + 1, table.currentRevision + 1, 0⟩) := by
  simp [put, applyPut, hnone]

/-- Fresh entries get consecutive revisions. -/
theorem putAll_facts_of_fresh (hnodup : (entries.map Prod.fst).Nodup)
    (hfresh : ∀ entry ∈ entries, table.facts entry.1 = none) {entry : Str × Str} {index : Nat}
    (hentry : entries[index]? = some entry) :
    (table.putAll entries).facts entry.1 = some ⟨entry.1, entry.2,
      table.currentRevision + index + 1, table.currentRevision + index + 1, 0⟩ := by
  induction entries generalizing table index with
  | nil => cases hentry
  | cons first rest ih =>
    obtain ⟨hnew, hrest⟩ := nodup_cons.mp hnodup
    obtain ⟨hrevision, hfacts⟩ := put_of_none (hfresh first mem_cons_self) first.2
    have hother : ∀ later ∈ rest, later.1 ≠ first.1 := fun later hlater heq =>
      hnew (heq ▸ mem_map_of_mem hlater)
    rw [putAll_cons]
    cases index with
    | zero =>
      obtain rfl : first = entry := by simpa using hentry
      rw [putAll_facts_of_notMem hother, hfacts]
      simp
    | succ index =>
      have hlater := ih hrest (fun later hlater => by
        rw [hfacts, Function.update_of_ne (hother later hlater)]
        exact hfresh later (mem_cons_of_mem _ hlater)) (by simpa using hentry)
      rw [hlater]
      simp only [Option.some.injEq, Fact.mk.injEq, true_and, and_true]
      omega

/-- Entries with ascending keys are what a new table holds after they were put. -/
theorem putAll_new_value_iff
    (hsorted : entries.Pairwise (fun earlier later => earlier.1 < later.1)) :
    (new.putAll entries).value key = some value ↔ (key, value) ∈ entries := by
  have hkeys : (entries.map Prod.fst).Nodup := by
    refine pairwise_map.mpr (hsorted.imp ?_)
    intro earlier later hlt heq
    exact List.lt_irrefl _ (heq ▸ hlt)
  have hconsistent : Consistent entries := fun first hfirst second hsecond heq =>
    congrArg Prod.snd (inj_on_of_nodup_map hkeys hfirst hsecond heq)
  rw [putAll_value_iff hconsistent]
  simp

theorem putAll_isSome_iff : ((table.putAll entries).value key).isSome ↔
      (∃ entry ∈ entries, entry.1 = key) ∨ (table.value key).isSome := by
  rw [putAll_value]
  simp [lastValue]

end CCattler.Store.FactTable
