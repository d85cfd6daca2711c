import CCattler.Go.Sort
import CCattler.Store.Types

/-! # Prefix search in sorted fact slices

On a slice sorted by key, binary search selects exactly the facts with the prefix.
-/

namespace CCattler.Store

open Go List

/-- The comparison of `SortFacts`. -/
def factLess (first second : Fact) : Bool := decide (first.key < second.key)

/-- `FindPrefixRange`: the range of the facts with the prefix, or `(0, 0)`. -/
def findPrefixRange (facts : List Fact) (pre : Str) : Nat × Nat :=
  if facts = [] ∨ pre = [] then (0, 0)
  else
    let startIndex := search facts.length
      (fun index => decide (pre ≤ (facts.getD index Fact.zero).key))
    let block := (facts.drop startIndex).takeWhile (fun fact => fact.key.hasPrefix pre)
    if block = [] then (0, 0) else (startIndex, startIndex + block.length)

def factsWithPrefix (facts : List Fact) (pre : Str) : List Fact :=
  let range := findPrefixRange facts pre
  (facts.take range.2).drop range.1

/-! ## Keys with a prefix form a block -/

variable {pre : Str}

theorem isPrefix_of_between {key extension : Str} (hlow : pre ≤ key) (hhigh : key ≤ extension)
    (hpre : pre <+: extension) : pre <+: key := by
  induction pre generalizing key extension with
  | nil => exact nil_prefix
  | cons byte rest ih =>
    obtain ⟨tail, rfl⟩ := hpre
    cases key with
    | nil => exact absurd hlow (by simp)
    | cons first others =>
      rw [cons_le_cons_iff] at hlow
      rw [cons_append, cons_le_cons_iff] at hhigh
      rcases hlow with hlt | ⟨rfl, hlow⟩
      · rcases hhigh with hgt | ⟨rfl, -⟩
        · exact absurd (UInt8.lt_trans hlt hgt) (UInt8.lt_irrefl _)
        · exact absurd hlt (UInt8.lt_irrefl _)
      · rcases hhigh with hgt | ⟨-, hhigh⟩
        · exact absurd hgt (UInt8.lt_irrefl _)
        · rw [cons_prefix_cons]
          exact ⟨rfl, ih hlow hhigh (prefix_append rest tail)⟩

theorem le_of_isPrefix {key : Str} (h : pre <+: key) : pre ≤ key := by
  obtain ⟨_, rfl⟩ := h
  exact le_append_left

/-- Facts in strictly ascending order of their keys. -/
def KeySorted (facts : List Fact) : Prop :=
  facts.Pairwise (fun earlier later => earlier.key < later.key)

/-- Facts in ascending order of their keys, which may repeat. -/
def KeyOrdered (facts : List Fact) : Prop :=
  facts.Pairwise (fun earlier later => earlier.key ≤ later.key)

variable {facts : List Fact}

theorem KeySorted.keyOrdered (h : KeySorted facts) : KeyOrdered facts := h.imp List.le_of_lt

/-- From the first key at or above the prefix on, the facts with the prefix come
first. -/
theorem filter_eq_takeWhile (hsorted : KeyOrdered facts) (hlow : ∀ fact ∈ facts, pre ≤ fact.key) :
    facts.filter (fun fact => fact.key.hasPrefix pre) =
      facts.takeWhile (fun fact => fact.key.hasPrefix pre) := by
  induction facts with
  | nil => rfl
  | cons first rest ih =>
    obtain ⟨hfirst, hrest⟩ := pairwise_cons.mp hsorted
    by_cases hpre : first.key.hasPrefix pre = true
    · simp only [filter_cons, takeWhile_cons, hpre, if_true]
      rw [ih hrest fun fact hfact => hlow fact (mem_cons_of_mem _ hfact)]
    · simp only [filter_cons, takeWhile_cons, hpre, Bool.false_eq_true, if_false]
      rw [filter_eq_nil_iff]
      -- a later key with the prefix would squeeze the first one into the block
      intro fact hfact hlater
      apply hpre
      rw [Str.hasPrefix_iff] at hlater ⊢
      exact isPrefix_of_between (hlow first mem_cons_self) (hfirst fact hfact) hlater

theorem filter_eq_nil_of_lt (h : ∀ fact ∈ facts, fact.key < pre) :
    facts.filter (fun fact => fact.key.hasPrefix pre) = [] := by
  rw [filter_eq_nil_iff]
  intro fact hfact hpre
  exact absurd (le_of_isPrefix (Str.hasPrefix_iff.mp hpre)) (List.not_le.mpr (h fact hfact))

/-! ## The search -/

/-- The index that `sort.Search` returns for the prefix. -/
def searchIndex (facts : List Fact) (pre : Str) : Nat :=
  search facts.length (fun index => decide (pre ≤ (facts.getD index Fact.zero).key))

/-- The keys below the index are below the prefix, the others are not. -/
theorem searchIndex_spec (pre : Str) (hsorted : KeyOrdered facts) :
    (∀ fact ∈ facts.take (searchIndex facts pre), fact.key < pre) ∧
      ∀ fact ∈ facts.drop (searchIndex facts pre), pre ≤ fact.key := by
  have hget : ∀ index (h : index < facts.length), facts.getD index Fact.zero = facts[index] :=
    fun index h => by simp [h]
  obtain ⟨_, hbelow, habove⟩ := @search_spec
    (fun index => decide (pre ≤ (facts.getD index Fact.zero).key)) facts.length (by
      intro first second hle hlt hfirst
      simp only [hget first (by omega), hget second hlt, decide_eq_true_eq] at hfirst ⊢
      rcases Nat.lt_or_eq_of_le hle with hless | rfl
      · exact List.le_trans hfirst (pairwise_iff_getElem.mp hsorted first second _ hlt hless)
      · exact hfirst)
  rw [← searchIndex] at hbelow habove
  constructor
  · intro fact hfact
    obtain ⟨index, hindex, rfl⟩ := mem_take_iff_getElem.mp hfact
    have hfalse := hbelow index (by omega)
    simp only [hget index (by omega), decide_eq_false_iff_not, List.not_le] at hfalse
    exact hfalse
  · intro fact hfact
    obtain ⟨index, hindex, rfl⟩ := mem_drop_iff_getElem.mp hfact
    have htrue := habove (searchIndex facts pre + index) (by omega) (by omega)
    simp only [hget (searchIndex facts pre + index) (by omega), decide_eq_true_eq] at htrue
    exact htrue

theorem factsWithPrefix_eq_takeWhile (hne : pre ≠ []) : factsWithPrefix facts pre =
    (facts.drop (searchIndex facts pre)).takeWhile (fun fact => fact.key.hasPrefix pre) := by
  unfold factsWithPrefix findPrefixRange
  by_cases hnil : facts = []
  · simp [hnil]
  rw [if_neg (by simp [hnil, hne]), ← searchIndex]
  simp only
  split
  next hempty => simp [hempty]
  next hblock =>
    have hlength : searchIndex facts pre ≤ facts.length := by
      by_contra hlong
      exact hblock (by rw [drop_of_length_le (by omega)]; rfl)
    rw [take_add, drop_left' (by simpa using hlength)]
    exact (prefix_iff_eq_take.mp ( takeWhile_prefix _)).symm

theorem filter_eq_block (hsorted : KeyOrdered facts) (hne : pre ≠ []) :
    facts.filter (fun fact => fact.key.hasPrefix pre) = factsWithPrefix facts pre := by
  obtain ⟨hfront, hback⟩ := searchIndex_spec pre hsorted
  rw [factsWithPrefix_eq_takeWhile hne,
    ← filter_eq_takeWhile (hsorted.sublist (drop_sublist _ facts)) hback]
  nth_rewrite 1 [← take_append_drop (searchIndex facts pre) facts]
  rw [filter_append, filter_eq_nil_of_lt hfront, nil_append]

theorem factsWithPrefix_eq_filter (hsorted : KeySorted facts) (hne : pre ≠ []) :
    factsWithPrefix facts pre = facts.filter (fun fact => fact.key.hasPrefix pre) :=
  (filter_eq_block hsorted.keyOrdered hne).symm

/-- The matching facts are one block, which starts where the search ends. -/
theorem factsWithPrefix_is_block (facts : List Fact) (pre : Str) (hsorted : KeyOrdered facts)
    (hne : pre ≠ []) :
    factsWithPrefix facts pre = facts.filter (fun fact => fact.key.hasPrefix pre) ∧
      ∃ rest, facts =
        facts.take (searchIndex facts pre) ++ factsWithPrefix facts pre ++ rest := by
  refine ⟨(filter_eq_block hsorted hne).symm, ?_⟩
  obtain ⟨rest, hrest⟩ := takeWhile_prefix (l := facts.drop (searchIndex facts pre))
    (fun fact => fact.key.hasPrefix pre)
  refine ⟨rest, ?_⟩
  rw [factsWithPrefix_eq_takeWhile hne, append_assoc, hrest, take_append_drop]

/-- A repeated key, a key equal to the prefix, and one that differs right after it. -/
theorem factsWithPrefix_of_repeated :
    let facts := [lit "a", lit "b", lit "b/x", lit "b/x", lit "b0"].map
      (fun key => Fact.mk key [] 1 1 0)
    KeyOrdered facts ∧ factsWithPrefix facts (lit "b/") =
      facts.filter (fun fact => fact.key.hasPrefix (lit "b/")) :=
  have hsorted : KeyOrdered _ := by
    unfold KeyOrdered
    decide
  ⟨hsorted, (factsWithPrefix_is_block _ (lit "b/") hsorted (by decide)).1⟩

end CCattler.Store
