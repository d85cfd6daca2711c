import Mathlib.Data.List.Basic

/-! # Package `container/heap`

The heap operations on a slice, for a comparison of elements and a `Swap` that
may store the new position in the element it moves.
-/

namespace Go.Heap

universe u

variable {α : Type u}

/-- `heap.Interface` on a slice: `Less` compares elements, and `Swap` puts an
element at a position with `place`. -/
structure Interface (α : Type u) where
  less : α → α → Bool
  place : Nat → α → α

variable (heap : Interface α)

/-- `Less` at two positions of the slice. -/
def lessAt (items : List α) (first second : Nat) : Bool :=
  match items[first]?, items[second]? with
  | some a, some b => heap.less a b
  | _, _ => false

def swap (items : List α) (first second : Nat) : List α :=
  match items[first]?, items[second]? with
  | some a, some b => (items.set first (heap.place first b)).set second (heap.place second a)
  | _, _ => items

def smallerChild (items : List α) (index size : Nat) : Nat :=
  if 2 * index + 2 < size ∧ lessAt heap items (2 * index + 2) (2 * index + 1) = true then
    2 * index + 2
  else 2 * index + 1

/-- The loop of `down`, with the position it ends at. -/
def downFrom (size : Nat) : Nat → List α → Nat → List α × Nat
  | 0, items, index => (items, index)
  | turns + 1, items, index =>
    let child := smallerChild heap items index size
    if 2 * index + 1 ≥ size then (items, index)
    else if lessAt heap items child index = false then (items, index)
    else downFrom size turns (swap heap items index child) child

/-- `down`, and whether the element moved. -/
def down (items : List α) (index size : Nat) : List α × Bool :=
  let moved := downFrom heap size size items index
  (moved.1, decide (moved.2 > index))

/-- The loop of `up`; the position shrinks in every turn. -/
def upFrom : Nat → List α → Nat → List α
  | 0, items, _ => items
  | turns + 1, items, index =>
    let parent := (index - 1) / 2
    if parent = index ∨ lessAt heap items index parent = false then items
    else upFrom turns (swap heap items parent index) parent

section

variable (items : List α)

def up (index : Nat) : List α := upFrom heap (index + 1) items index

def init : List α :=
  (List.range (items.length / 2)).reverse.foldl
    (fun current index => (down heap current index items.length).1) items

def fix (index : Nat) : List α :=
  let sifted := down heap items index items.length
  if sifted.2 then sifted.1 else up heap sifted.1 index

/-- `heap.Remove`: the shorter slice, and the element that `Pop` takes off its end. -/
def remove (index : Nat) : List α × Option α :=
  let last := items.length - 1
  let moved :=
    if last = index then items
    else
      let sifted := down heap (swap heap items index last) index last
      if sifted.2 then sifted.1 else up heap sifted.1 index
  (moved.dropLast, moved.getLast?)

/-- The same heap over elements that only carry whether they were ever moved. -/
def Interface.marking : Interface (α × Bool) where
  less first second := heap.less first.1 second.1
  place _ item := (item.1, true)

/-- The elements as `Init` leaves them, each with whether it was moved. -/
def moves : List (α × Bool) := init heap.marking (items.map (·, false))

end

/-! ## What moving elements keeps -/

section Moves

variable {heap} {P : List α → Prop}
  (hswap : ∀ items first second, P items → P (swap heap items first second))
include hswap

theorem downFrom_induction (size : Nat) {turns : Nat} : ∀ {items : List α} {index : Nat}, P items →
    P (downFrom heap size turns items index).1 := by
  induction turns with
  | zero => exact id
  | succ turns ih =>
    intro items index h
    simp only [downFrom]
    split
    · exact h
    · split
      · exact h
      · exact ih (hswap _ _ _ h)

theorem upFrom_induction {turns : Nat} : ∀ {items : List α} {index : Nat}, P items →
    P (upFrom heap turns items index) := by
  induction turns with
  | zero => exact id
  | succ turns ih =>
    intro items index h
    simp only [upFrom]
    split
    · exact h
    · exact ih (hswap _ _ _ h)

variable {items : List α} (h : P items)
include h

theorem down_induction (index size : Nat) : P (down heap items index size).1 :=
  downFrom_induction hswap size h

theorem init_induction : P (init heap items) :=
  List.foldlRecOn _ _ h fun _ hcurrent index _ => down_induction hswap hcurrent index _

theorem sift_induction (index size : Nat) : P (if (down heap items index size).2 then
    (down heap items index size).1 else up heap (down heap items index size).1 index) := by
  have hdown := down_induction hswap h index size
  split
  · exact hdown
  · exact upFrom_induction hswap hdown

theorem fix_induction (index : Nat) : P (fix heap items index) :=
  sift_induction hswap h index items.length

/-- `Remove` takes the last element of a slice that swaps lead to. -/
theorem exists_remove (index : Nat) :
    ∃ moved, P moved ∧ remove heap items index = (moved.dropLast, moved.getLast?) := by
  refine ⟨_, ?_, rfl⟩
  split
  · exact h
  · exact sift_induction hswap (hswap _ _ _ h) index _

end Moves

/-! ## Two heaps over the same order -/

section Images

variable {β : Type*} {heap} {image : Interface β} {f : Nat → α → β}
  (hless : ∀ i j a b, image.less (f i a) (f j b) = heap.less a b)
  (hplace : ∀ i j a, image.place j (f i a) = f j (heap.place j a))
include hless

theorem lessAt_mapIdx (items : List α) (first second : Nat) :
    lessAt image (items.mapIdx f) first second = lessAt heap items first second := by
  unfold lessAt
  rw [List.getElem?_mapIdx, List.getElem?_mapIdx]
  cases items[first]? <;> cases items[second]? <;> simp [hless]

omit hless in
include hplace in
theorem swap_mapIdx (items : List α) (first second : Nat) :
    swap image (items.mapIdx f) first second = (swap heap items first second).mapIdx f := by
  unfold swap
  rw [List.getElem?_mapIdx, List.getElem?_mapIdx]
  cases items[first]? <;> cases items[second]? <;> simp [hplace, List.mapIdx_set]

include hplace

theorem downFrom_mapIdx (size : Nat) {turns : Nat} : ∀ (items : List α) (index : Nat),
    (downFrom image size turns (items.mapIdx f) index).1 =
      (downFrom heap size turns items index).1.mapIdx f := by
  induction turns with
  | zero => exact fun _ _ => rfl
  | succ turns ih =>
    intro items index
    have hchild : smallerChild image (items.mapIdx f) index size =
        smallerChild heap items index size := by
      simp only [smallerChild, lessAt_mapIdx hless]
    simp only [downFrom, hchild, lessAt_mapIdx hless, swap_mapIdx hplace]
    split
    · rfl
    · split
      · rfl
      · exact ih _ _

/-- `Init` makes the same moves in the image of a slice. -/
theorem init_mapIdx (items : List α) :
    init image (items.mapIdx f) = (init heap items).mapIdx f := by
  unfold init
  rw [List.length_mapIdx]
  refine List.foldl_hom (fun current : List α => current.mapIdx f) ?_
  exact fun current index => downFrom_mapIdx hless hplace _ current index

end Images

/-- A swap rearranges what `place` does not change. -/
theorem map_swap_perm {β : Type*} {f : α → β}
    (hplace : ∀ index item, f (heap.place index item) = f item) (items : List α)
    (first second : Nat) :
    ((swap heap items first second).map f).Perm (items.map f) := by
  unfold swap
  split
  next hfirst hsecond =>
    obtain ⟨hfirst, rfl⟩ := List.getElem?_eq_some_iff.mp hfirst
    obtain ⟨hsecond, rfl⟩ := List.getElem?_eq_some_iff.mp hsecond
    have hperm := @List.set_set_perm _ (items.map f) first second (by simpa) (by simpa)
    simpa only [List.map_set, hplace, List.getElem_map] using hperm
  next => exact .refl _

end Go.Heap
