import Mathlib.Data.List.Sort
import Mathlib.Data.Set.Card

/-! # Bringing a map to a target in batches

A map is brought to a target one batch of keys after another. A value that moves is
there all the time just when it is written at a new key no later than it is overwritten
at an old one.
-/

namespace Concurrency.Batches

open List

variable {Key Value : Type} [DecidableEq Key]

/-- The map after the keys were brought to their targets. -/
def moved (target stored : Key → Option Value) (keys : List Key) : Key → Option Value :=
  fun key => if key ∈ keys then target key else stored key

/-- How many keys come before a key. -/
def place (pending : List Key) (key : Key) : Nat := pending.idxOf key

variable {target stored : Key → Option Value} {pending keys : List Key} {key : Key}

theorem moved_of_mem (h : key ∈ keys) : moved target stored keys key = target key := if_pos h

theorem moved_of_notMem (h : key ∉ keys) : moved target stored keys key = stored key := if_neg h

theorem moved_moved (first second : List Key) :
    moved target (moved target stored first) second = moved target stored (first ++ second) := by
  funext key
  by_cases hsecond : key ∈ second
  · rw [moved_of_mem hsecond, moved_of_mem (mem_append_right _ hsecond)]
  · rw [moved_of_notMem hsecond]
    by_cases hfirst : key ∈ first
    · rw [moved_of_mem hfirst, moved_of_mem (mem_append_left _ hfirst)]
    · rw [moved_of_notMem hfirst, moved_of_notMem]
      exact fun hmem => (mem_append.mp hmem).elim hfirst hsecond

theorem moved_take_ne_iff (hnodup : pending.Nodup)
    (hpending : ∀ key, key ∈ pending ↔ stored key ≠ target key) (count : Nat) (key : Key) :
    moved target stored (pending.take count) key ≠ target key ↔ key ∈ pending.drop count := by
  have hsplit : key ∈ pending ↔ key ∈ pending.take count ∨ key ∈ pending.drop count := by
    rw [← mem_append, take_append_drop]
  by_cases htaken : key ∈ pending.take count
  · rw [moved_of_mem htaken]
    refine iff_of_false (fun hne => hne rfl) fun hdropped => ?_
    exact disjoint_take_drop hnodup le_rfl htaken hdropped
  · rw [moved_of_notMem htaken, ← hpending, hsplit]
    exact ⟨fun h => h.resolve_left htaken, Or.inr⟩

/-- A value wanted at the end is held all along iff it stays or comes to a place in time,
where `batch` tells when a key is taken. -/
theorem held_after_batches_iff {Place : Type} (slot : Place → Key) {taken : Nat → List Key}
    {batch : Key → Nat} {value : Value}
    (htaken : ∀ key count, key ∈ taken count ↔ stored key ≠ target key ∧ batch key < count)
    (hwanted : ∃ place, target (slot place) = some value) :
    (∀ count, ∃ place, moved target stored (taken count) (slot place) = some value) ↔
      ∃ old new, stored (slot old) = some value ∧ target (slot new) = some value ∧
        (old = new ∨ batch (slot new) ≤ batch (slot old)) := by
  constructor
  · intro hheld
    -- the first batch that writes the value anywhere
    obtain ⟨new, hnew, hfirst⟩ := (measure fun place => batch (slot place)).wf.has_min
      {place | target (slot place) = some value} hwanted
    obtain ⟨place, hvalue⟩ := hheld (batch (slot new))
    by_cases hmem : slot place ∈ taken (batch (slot new))
    · rw [moved_of_mem hmem] at hvalue
      exact absurd ((htaken _ _).mp hmem).2 (hfirst place hvalue)
    · rw [moved_of_notMem hmem] at hvalue
      by_cases hsame : stored (slot place) = target (slot place)
      · exact ⟨place, place, hvalue, hsame ▸ hvalue, Or.inl rfl⟩
      · refine ⟨place, new, hvalue, hnew, Or.inr (Nat.le_of_not_lt fun hlt => ?_)⟩
        exact hmem ((htaken _ _).mpr ⟨hsame, hlt⟩)
  · rintro ⟨old, new, hstored, htarget, hintime⟩ count
    by_cases hmem : slot old ∈ taken count
    · refine ⟨new, ?_⟩
      by_cases hnew : slot new ∈ taken count
      · rw [moved_of_mem hnew, htarget]
      · have hsettled : stored (slot new) = target (slot new) := by
          by_contra hne
          have hlt := ((htaken _ _).mp hmem).2
          refine hnew ((htaken _ _).mpr ⟨hne, ?_⟩)
          rcases hintime with rfl | hle
          · exact hlt
          · exact hle.trans_lt hlt
        rw [moved_of_notMem hnew, hsettled, htarget]
    · exact ⟨old, by rw [moved_of_notMem hmem, hstored]⟩

theorem mem_take_iff_place_lt (h : key ∈ pending) (count : Nat) :
    key ∈ pending.take count ↔ place pending key < count :=
  mem_take_iff_idxOf_lt h

/-- The place of a key in a list sorted by an order is the number of its elements
that come before it. -/
theorem place_eq_ncard {less : Key → Key → Prop} [Std.Asymm less] (hsorted : pending.Pairwise less)
    (hmem : key ∈ pending) :
    place pending key = {other | other ∈ pending ∧ less other key}.ncard := by
  obtain ⟨before, after, rfl, hbefore⟩ := eq_append_cons_of_mem hmem
  have hset : {other | other ∈ before ++ key :: after ∧ less other key} =
      (before.toFinset : Set Key) := by
    obtain ⟨-, hafter, hacross⟩ := pairwise_append.mp hsorted
    ext other
    simp only [coe_toFinset, mem_append, mem_cons]
    constructor
    · rintro ⟨hother | rfl | hother, hless⟩
      · exact hother
      · exact absurd hless (Std.Asymm.asymm _ _ hless)
      · exact absurd hless (Std.Asymm.asymm _ _ ((pairwise_cons.mp hafter).1 other hother))
    · intro hother
      exact ⟨Or.inl hother, hacross other hother key mem_cons_self⟩
  have hnodup : before.Nodup := by
    refine (hsorted.sublist (sublist_append_left before _)).imp ?_
    rintro first second hless rfl
    exact Std.Asymm.asymm _ _ hless hless
  rw [place, hset, Set.ncard_coe_finset, toFinset_card_of_nodup hnodup,
    idxOf_append_of_notMem hbefore, idxOf_cons_self, Nat.add_zero]

end Concurrency.Batches
