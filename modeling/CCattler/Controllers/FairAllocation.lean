import Mathlib.Algebra.Order.BigOperators.Group.List
import CCattler.Controllers.Instance

/-! # Fair creation

The budget is given out in equal shares, and what these leave goes one by one to the
service with the largest unmet demand.
-/

namespace CCattler.Controllers

open Go List

section

variable (deficits : List ServiceDeficit) (budget : Int)

/-- What each service may create; nothing is given out without a positive budget. -/
def allocation : List Int :=
  if deficits = [] ∨ budget ≤ 0 then deficits.map (fun _ => 0) else allocateBudget deficits budget

/-- `*creationsRemaining` after the call. -/
def creationsRemaining : Int :=
  if deficits = [] ∨ budget ≤ 0 then budget else budget - (allocateBudget deficits budget).sum

def totalDeficit : Int := (deficits.map ServiceDeficit.deficit).sum

end

variable {deficits : List ServiceDeficit} {allocated : List Int}

/-- The largest unmet demand is found unless every demand is met. -/
theorem foldl_largest (pairs : List (ServiceDeficit × Int)) :
    let best := pairs.zipIdx.foldl (fun (best : Option Nat × Int) entry =>
      let unmetDemand := entry.1.1.deficit - entry.1.2
      if unmetDemand > best.2 ∨ (unmetDemand = best.2 ∧ unmetDemand > 0) then
        (some entry.2, unmetDemand)
      else best) (none, 0)
    0 ≤ best.2 ∧ (best.1 = none → best.2 = 0 ∧ ∀ pair ∈ pairs, pair.1.deficit ≤ pair.2) ∧
      ∀ index, best.1 = some index →
        ∃ pair, pairs[index]? = some pair ∧ pair.2 < pair.1.deficit := by
  induction pairs using reverseRecOn with
  | nil => simp
  | append_singleton pairs last ih =>
    simp only [zipIdx_append, foldl_append, zipIdx_singleton, foldl_cons, foldl_nil] at ih ⊢
    obtain ⟨hnonneg, hnone, hsome⟩ := ih
    split
    next hbetter =>
      refine ⟨by omega, by simp, fun index hindex => ⟨last, ?_, by omega⟩⟩
      rw [← Option.some.inj hindex]
      simp
    next hworse =>
      refine ⟨hnonneg, fun hbest => ?_, fun index hindex => ?_⟩
      · obtain ⟨hzero, hmet⟩ := hnone hbest
        refine ⟨hzero, fun pair hpair => ?_⟩
        rcases mem_append.mp hpair with hold | hlast
        · exact hmet pair hold
        · rw [mem_singleton.mp hlast]
          omega
      · obtain ⟨pair, hpair, hunmet⟩ := hsome index hindex
        exact ⟨pair, by rw [getElem?_append_left (List.getElem?_eq_some_iff.mp hpair).1, hpair],
          hunmet⟩

theorem forall₂_modify {α β : Type} {R : α → β → Prop} {xs : List α} {ys : List β} {f : β → β}
    (h : Forall₂ R xs ys) (index : Nat)
    (hstep : ∀ x y, xs[index]? = some x → ys[index]? = some y → R x (f y)) :
    Forall₂ R xs (ys.modify index f) := by
  induction h generalizing index with
  | nil => simp
  | cons hhead htail ih =>
    cases index with
    | zero => exact .cons (hstep _ _ rfl rfl) htail
    | succ index => exact .cons hhead (ih index hstep)

theorem sum_modify_succ {counts : List Int} {index : Nat} (h : index < counts.length) :
    (counts.modify index (fun count => count + 1)).sum = counts.sum + 1 := by
  induction counts generalizing index with
  | nil => simp at h
  | cons count rest ih =>
    cases index with
    | zero => simp [add_right_comm]
    | succ index => simp [ih (Nat.lt_of_succ_lt_succ h), add_assoc]

theorem sum_le_totalDeficit (h : Forall₂ (fun entry count => count ≤ entry.deficit) deficits
    allocated) : allocated.sum ≤ totalDeficit deficits := by
  refine Forall₂.sum_le_sum ?_
  rw [forall₂_map_right_iff]
  exact h.flip

/-- The loop spends the budget as far as there is demand, and takes nothing back. -/
theorem allocateRemainder_spec (low : ServiceDeficit → Int) (remaining : Nat)
    (h : Forall₂ (fun entry count => low entry ≤ count ∧ count ≤ entry.deficit) deficits
      allocated) :
    Forall₂ (fun entry count => low entry ≤ count ∧ count ≤ entry.deficit) deficits
        (allocateRemainder deficits remaining allocated) ∧
      (allocateRemainder deficits remaining allocated).sum =
        min (allocated.sum + remaining) (totalDeficit deficits) := by
  have hsum := sum_le_totalDeficit (h.imp fun _ _ hin => hin.2)
  induction remaining generalizing allocated with
  | zero => exact ⟨h, by simpa [allocateRemainder] using hsum⟩
  | succ remaining ih =>
    obtain ⟨-, hnone, hsome⟩ := foldl_largest (deficits.zip allocated)
    unfold allocateRemainder largestUnmetDemand
    split
    next hbest =>
      -- every demand is met
      have hmet : totalDeficit deficits ≤ allocated.sum := by
        refine Forall₂.sum_le_sum ?_
        rw [forall₂_map_left_iff]
        exact forall₂_iff_zip.mpr ⟨h.length_eq, fun hpair => (hnone hbest).2 _ hpair⟩
      exact ⟨h, by omega⟩
    next index hbest =>
      obtain ⟨pair, hpair, hunmet⟩ := hsome index hbest
      obtain ⟨hentry, hcount⟩ := getElem?_zip_eq_some.mp hpair
      have hmore := forall₂_modify (f := fun count => count + 1) h index (by
        intro entry count hsame hold
        rw [hentry] at hsame
        rw [hcount] at hold
        have := (forall₂_iff_zip.mp h).2 (mem_of_getElem? hpair)
        cases hsame
        cases hold
        omega)
      obtain ⟨hin, htotal⟩ := ih hmore (sum_le_totalDeficit (hmore.imp fun _ _ hin => hin.2))
      rw [sum_modify_succ (List.getElem?_eq_some_iff.mp hcount).1] at htotal
      refine ⟨hin, htotal.trans ?_⟩
      push_cast
      omega

/-- Every service gets its equal share or all it needs, and the budget is spent as far as
it is positive and there is demand. -/
theorem allocation_fair (deficits : List ServiceDeficit) (budget : Int)
    (hpositive : ∀ entry ∈ deficits, 0 < entry.deficit) :
    Forall₂ (fun entry count => 0 ≤ count ∧ count ≤ entry.deficit ∧
        min entry.deficit (budget.tdiv deficits.length) ≤ count)
        deficits (allocation deficits budget) ∧
      (allocation deficits budget).sum = min (max budget 0) (totalDeficit deficits) ∧
      creationsRemaining deficits budget = budget - (allocation deficits budget).sum := by
  have hdemand : 0 ≤ totalDeficit deficits := by
    refine sum_nonneg fun deficit hmem => ?_
    obtain ⟨entry, hentry, rfl⟩ := mem_map.mp hmem
    exact (hpositive entry hentry).le
  unfold allocation creationsRemaining
  split
  next hnone =>
    have hzero : (deficits.map (fun _ => (0 : Int))).sum = 0 := by simp
    refine ⟨?_, ?_, by omega⟩
    · rw [forall₂_map_right_iff, forall₂_same]
      intro entry hentry
      have hshare : budget.tdiv deficits.length ≤ 0 := by
        rcases hnone with rfl | hbudget
        · cases hentry
        · have hspent : 0 ≤ (-budget).tdiv deficits.length :=
            Int.tdiv_nonneg (by omega) (Int.natCast_nonneg _)
          rw [Int.neg_tdiv] at hspent
          omega
      exact ⟨le_rfl, (hpositive entry hentry).le, by omega⟩
    · rcases hnone with rfl | hbudget
      · simp [totalDeficit]
      · omega
  next hsome =>
    have hshare : 0 ≤ budget.tdiv deficits.length :=
      Int.tdiv_nonneg (by omega) (Int.natCast_nonneg _)
    have hbase : (deficits.map (fun entry =>
        min (budget.tdiv deficits.length) entry.deficit)).sum ≤ budget := by
      calc _ ≤ (deficits.length : Int) * budget.tdiv deficits.length := by
            simpa using sum_le_card_nsmul (deficits.map (fun entry =>
              min (budget.tdiv deficits.length) entry.deficit)) (budget.tdiv deficits.length)
              (by simp)
        _ ≤ budget := Int.mul_tdiv_self_le (by omega)
    obtain ⟨hin, htotal⟩ := allocateRemainder_spec
      (fun entry => min (budget.tdiv deficits.length) entry.deficit) _
      (forall₂_map_right_iff.mpr (forall₂_same.mpr fun entry _ => ⟨le_rfl, min_le_right _ _⟩))
    refine ⟨?_, ?_, rfl⟩
    · refine forall₂_iff_zip.mpr ⟨hin.length_eq, fun {entry _} hmem => ?_⟩
      have hentry := hpositive entry (of_mem_zip hmem).1
      have := (forall₂_iff_zip.mp hin).2 hmem
      omega
    · rw [allocateBudget]
      omega

theorem allocation_of_three : let deficits := [3, 5, 1].map (ServiceDeficit.mk (lit "web"))
    (allocation deficits 7).sum = min (max 7 0) (totalDeficit deficits) :=
  (allocation_fair _ 7 (by decide)).2.1

/-- A negative budget is not spent. -/
theorem negative_budget_unspent :
    (allocation [⟨lit "web", 1⟩] (-1)).sum ≠ min (-1) (totalDeficit [⟨lit "web", 1⟩]) := by
  decide

end CCattler.Controllers
