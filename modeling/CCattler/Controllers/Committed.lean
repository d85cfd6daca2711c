import CCattler.Controllers.WatchedFacts
import CCattler.Store.WriteLoops

/-! # A cycle whose changes are applied

The store after the changes of one cycle, as the next cycle sees it. Changes have their
way at the keys they agree on and leave the others alone.
-/

namespace CCattler.Controllers

open Go Store List

def Change.operation (change : Change) : Op := ⟨change.type, change.key, change.value⟩

/-- The table after the changes of a cycle. -/
def applied (table : ValidTable) (changes : List Change) : ValidTable :=
  ⟨(table.commitBranch (changes.map Change.operation)).1, table.valid.commitBranch _⟩

variable {table : ValidTable} {changes : List Change}

theorem applied_facts_of_notMem {key : Str} (h : ∀ change ∈ changes, change.key ≠ key) :
    (applied table changes).facts key = table.facts key := by
  refine FactTable.commitBranch_facts_of_notMem fun operation hoperation => ?_
  obtain ⟨change, hchange, rfl⟩ := mem_map.mp hoperation
  exact h change hchange

theorem applied_value {key : Str} {value : Option Str} (h : ∃ change ∈ changes, change.key = key)
    (hsame : ∀ change ∈ changes, change.key = key → FactTable.outcome change.operation = value) :
    (applied table changes).value key = value := by
  refine FactTable.commitBranch_value_of_same ?_ fun operation hoperation => ?_
  · obtain ⟨change, hchange, hkey⟩ := h
    exact ⟨change.operation, mem_map_of_mem hchange, hkey⟩
  · obtain ⟨change, hchange, rfl⟩ := mem_map.mp hoperation
    exact hsame change hchange

variable {watch : List Str} (hwatch : NonOverlapping watch) {scan : Str} (hscan : scan ∈ watch)
include hwatch hscan

theorem watched_applied (h : ∀ change ∈ changes, ¬ scan <+: change.key) :
    factsWithPrefix (visible watch (applied table changes).allFacts) scan =
      factsWithPrefix (visible watch table.allFacts) scan := by
  refine factsWithPrefix_congr (applied table changes).valid table.valid hwatch hscan ?_
  intro key hstarts
  exact applied_facts_of_notMem fun change hchange heq => h change hchange (heq ▸ hstarts)

theorem lookup_watched (name : Str) :
    (Map.ofPairs ((factsWithPrefix (visible watch table.allFacts) scan).map
      (fun fact => (fact.key.trimPrefix scan, fact.value)))).lookup name =
        table.value (scan ++ name) := by
  rw [watched_eq_scanned table.valid hwatch hscan,
    ValidTable.lookup_scanned fun hnil => hwatch.1 (hnil ▸ hscan)]

end CCattler.Controllers
