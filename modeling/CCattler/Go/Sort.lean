import Mathlib.Data.List.Sort

/-! # Slice sorting and searching

`sort.Slice` promises nothing about the order of equal elements, so a call of it is
given as an argument wherever that order could be seen.
-/

namespace Go

universe u

variable {α : Type u}

section

variable (less : α → α → Bool) (items : List α)

def sliceStable : List α :=
  items.insertionSort (fun first second => less second first = false)

theorem sliceStable_perm : (sliceStable less items).Perm items :=
  List.perm_insertionSort _ items

end

/-- A stable sort sorts, for a total preorder. -/
theorem sliceStable_sorted {less : α → α → Bool}
    (htotal : ∀ first second, less second first = false ∨ less first second = false)
    (htrans : ∀ first second third, less second first = false → less third second = false →
      less third first = false) (items : List α) :
    (sliceStable less items).Pairwise (fun first second => less second first = false) := by
  have : Std.Total (fun first second => less second first = false) := ⟨htotal⟩
  have : IsTrans α (fun first second => less second first = false) := ⟨htrans⟩
  exact List.pairwise_insertionSort _ items

section ThenBy

variable {β : Type*} [LT β] [LE β] [Std.LawfulOrderLT β] [Std.IsLinearOrder β]

/-- In the order of a key, and among equal keys in another order. -/
def ThenBy (key : α → β) (rest : α → α → Prop) (first second : α) : Prop :=
  key first < key second ∨ key first = key second ∧ rest first second

theorem ite_lt_eq_false_iff [DecidableEq β] [DecidableLT β] {first second : β} {rest : Bool} :
    (if second ≠ first then decide (second < first) else rest) = false ↔
      first < second ∨ first = second ∧ rest = false := by
  rcases Std.lt_trichotomy first second with hlt | rfl | hgt
  · simp [hlt, (Std.ne_of_lt hlt).symm, Std.not_gt_of_lt hlt]
  · simp [Std.lt_irrefl]
  · simp [hgt, Std.ne_of_lt hgt, (Std.ne_of_lt hgt).symm, Std.not_gt_of_lt hgt]

variable {key : α → β} {rest : α → α → Prop}

theorem thenBy_total (h : ∀ first second, rest first second ∨ rest second first)
    (first second : α) : ThenBy key rest first second ∨ ThenBy key rest second first := by
  rcases Std.lt_trichotomy (key first) (key second) with hlt | heq | hgt
  · exact Or.inl (Or.inl hlt)
  · exact (h first second).imp (fun hrest => Or.inr ⟨heq, hrest⟩)
      fun hrest => Or.inr ⟨heq.symm, hrest⟩
  · exact Or.inr (Or.inl hgt)

theorem thenBy_trans
    (h : ∀ first second third, rest first second → rest second third → rest first third)
    (first second third : α) (hfirst : ThenBy key rest first second)
    (hsecond : ThenBy key rest second third) : ThenBy key rest first third := by
  rcases hfirst with hlt | ⟨heq, hrest⟩
  · rcases hsecond with hlt' | ⟨heq', -⟩
    · exact Or.inl (Std.lt_trans hlt hlt')
    · exact Or.inl (heq' ▸ hlt)
  · rcases hsecond with hlt' | ⟨heq', hrest'⟩
    · exact Or.inl (heq ▸ hlt')
    · exact Or.inr ⟨heq.trans heq', h _ _ _ hrest hrest'⟩

/-- Sorted by a key, and among equal keys by the items themselves. -/
theorem sliceStable_byKey [DecidableEq β] [DecidableLT β] [LT α] [LE α] [Std.LawfulOrderLT α]
    [Std.IsLinearOrder α] [DecidableLT α] (key : α → β) (items : List α) :
    (sliceStable (fun first second => if key first ≠ key second then
      decide (key first < key second) else decide (first < second)) items).Pairwise
        (ThenBy key (· ≤ ·)) := by
  have hless : ∀ first second : α, (if key second ≠ key first then
      decide (key second < key first) else decide (second < first)) = false ↔
        ThenBy key (· ≤ ·) first second := by
    simp only [ite_lt_eq_false_iff, decide_eq_false_iff_not, Std.not_lt, ThenBy, implies_true]
  refine (sliceStable_sorted ?_ ?_ items).imp (hless _ _).mp
  · simp only [hless]
    exact thenBy_total fun _ _ => Std.le_total
  · simp only [hless]
    exact thenBy_trans fun _ _ _ => Std.le_trans

end ThenBy

/-- A call of `sort.Slice`: some sorted rearrangement of its argument. -/
structure SliceSort (less : α → α → Bool) where
  sort : List α → List α
  sort_perm : ∀ items, (sort items).Perm items
  sort_sorted : ∀ items, (sort items).Pairwise (fun first second => less second first = false)

namespace SliceSort

variable {less : α → α → Bool}

/-- Stable sorting is one of the ways to sort. -/
def stable (htotal : ∀ first second, less second first = false ∨ less first second = false)
    (htrans : ∀ first second third, less second first = false → less third second = false →
      less third first = false) : SliceSort less where
  sort := sliceStable less
  sort_perm := sliceStable_perm less
  sort_sorted := sliceStable_sorted htotal htrans

theorem mem_sort (order : SliceSort less) {item : α} {items : List α} :
    item ∈ order.sort items ↔ item ∈ items := (order.sort_perm items).mem_iff

/-- Under a strict order the sorted list is unique. -/
theorem sort_eq (order : SliceSort less) {items sorted : List α} (hperm : sorted.Perm items)
    (hsorted : sorted.Pairwise (fun first second => less first second = true))
    (hasymm : ∀ first second, less first second = true → less second first = false) :
    order.sort items = sorted := by
  -- distinct elements of the sorted list are comparable one way or the other
  have hcompare : ∀ ⦃first⦄, first ∈ sorted → ∀ ⦃second⦄, second ∈ sorted →
      first = second ∨ less first second = true ∨ less second first = true :=
    List.Pairwise.forall_of_forall_of_flip (fun _ _ => Or.inl rfl)
      (hsorted.imp fun h => Or.inr (Or.inl h)) (hsorted.imp fun h => Or.inr (Or.inr h))
  have hwhole := (order.sort_perm items).trans hperm.symm
  refine hwhole.eq_of_pairwise ?_ (order.sort_sorted items)
    (hsorted.imp fun {first second} h => hasymm first second h)
  intro first second hfirst hsecond hle hge
  rcases hcompare (hwhole.mem_iff.mp hfirst) hsecond with heq | hless | hless
  · exact heq
  · exact absurd (hless.symm.trans hge) (by simp)
  · exact absurd (hless.symm.trans hle) (by simp)

end SliceSort

/-- The loop of `sort.Search`; the first length bounds the number of turns. -/
def searchFrom (test : Nat → Bool) : Nat → Nat → Nat → Nat
  | 0, low, _ => low
  | turns + 1, low, high =>
    if low < high then
      let middle := (low + high) / 2
      if test middle then searchFrom test turns low middle
      else searchFrom test turns (middle + 1) high
    else low

def search (length : Nat) (test : Nat → Bool) : Nat := searchFrom test length 0 length

variable {test : Nat → Bool} {length : Nat}
  (hmono : ∀ first second, first ≤ second → second < length → test first = true →
    test second = true)
include hmono

/-- Binary search finds the least index that passes. -/
theorem searchFrom_spec : ∀ {turns low high}, high - low ≤ turns → low ≤ high → high ≤ length →
      (∀ index < low, test index = false) →
      (∀ index, high ≤ index → index < length → test index = true) →
      let found := searchFrom test turns low high
      found ≤ length ∧ (∀ index < found, test index = false) ∧
        ∀ index, found ≤ index → index < length → test index = true := by
  intro turns
  induction turns with
  | zero =>
    intro low high hturns hle hlength hbelow habove
    obtain rfl : low = high := by omega
    exact ⟨hlength, hbelow, habove⟩
  | succ turns ih =>
    intro low high hturns hle hlength hbelow habove
    simp only [searchFrom]
    split
    next =>
      split
      next htest =>
        apply ih (by omega) (by omega) (by omega) hbelow
        intro index hindex hin
        exact hmono _ index hindex hin htest
      next htest =>
        apply ih (by omega) (by omega) hlength ?_ habove
        -- a true test below the middle would be true at the middle
        intro index hindex
        by_contra htrue
        exact htest (hmono index _ (by omega) (by omega) (by simpa using htrue))
    next =>
      obtain rfl : low = high := by omega
      exact ⟨hlength, hbelow, habove⟩

theorem search_spec :
    search length test ≤ length ∧ (∀ index < search length test, test index = false) ∧
      ∀ index, search length test ≤ index → index < length → test index = true :=
  searchFrom_spec hmono (by omega) (Nat.zero_le _) le_rfl (by simp)
    (fun index hle hlt => absurd hlt (by omega))

end Go
