import Mathlib.Data.List.AList
import CCattler.Go.Strings

/-! # Maps keyed by strings

Go maps are Mathlib's association lists with distinct keys. An `IterationOrder` stands
for the runtime's choice in the few loops where the order can be seen.
-/

namespace Go

open List

universe u

/-- `map[string]T`. -/
abbrev Map (ν : Type u) := AList (fun _ : Str => ν)

/-- `sort.Strings`. -/
def sortStrings (items : List Str) : List Str := items.insertionSort (· ≤ ·)

variable {items : List Str}

theorem sortStrings_pairwise (h : items.Nodup) : (sortStrings items).Pairwise (· < ·) := by
  have hsorted : (sortStrings items).Pairwise (· ≤ ·) := pairwise_insertionSort _ _
  have hnodup : (sortStrings items).Nodup := (perm_insertionSort _ _).nodup_iff.mpr h
  exact hsorted.imp₂ (fun _ _ hle => (List.le_iff_lt_or_eq.mp hle).resolve_right) hnodup

theorem mem_take_of_sorted (h : items.Pairwise (· ≤ ·)) {item : Str} {limit : Nat} :
    item ∈ items.take limit ↔ item ∈ items ∧ items.countP (· < item) < limit := by
  induction items generalizing limit with
  | nil => simp
  | cons first rest ih =>
    obtain ⟨hfirst, hrest⟩ := pairwise_cons.mp h
    cases limit with
    | zero => simp
    | succ limit =>
      simp only [take_succ_cons, mem_cons, countP_cons, ih hrest]
      by_cases heq : item = first
      · subst heq
        have hnone : rest.countP (· < item) = 0 :=
          countP_eq_zero.mpr fun other hother => by simpa using hfirst other hother
        simp [hnone, List.lt_irrefl]
      · have hless : item ∈ rest → first < item := fun hmem =>
          (List.le_iff_lt_or_eq.mp (hfirst item hmem)).resolve_right (Ne.symm heq)
        by_cases hmem : item ∈ rest <;> simp [heq, hmem, hless]

/-- The first strings in ascending order are those with few smaller ones. -/
theorem mem_take_sortStrings {item : Str} {limit : Nat} :
    item ∈ (sortStrings items).take limit ↔ item ∈ items ∧ items.countP (· < item) < limit := by
  have hperm : (items.insertionSort (· ≤ ·)).Perm items := perm_insertionSort _ _
  rw [sortStrings, mem_take_of_sorted (pairwise_insertionSort _ _), hperm.mem_iff, hperm.countP_eq]

theorem flatMap_ite {α β : Type*} (test : α → Prop) [DecidablePred test] (f : α → List β)
    (items : List α) : items.flatMap (fun item => if test item then f item else []) =
      (items.filter (fun item => test item)).flatMap f := by
  induction items with
  | nil => rfl
  | cons item rest ih =>
    rw [flatMap_cons, ih]
    by_cases htest : test item <;> simp [htest]

theorem map_filterMap_sublist {α β γ : Type*} {f : α → Option β} {g : β → γ} {k : α → γ}
    {items : List α} (h : ∀ item found, f item = some found → g found = k item) :
    ((items.filterMap f).map g).Sublist (items.map k) := by
  induction items with
  | nil => exact .slnil
  | cons item rest ih =>
    cases hfound : f item with
    | none =>
      rw [filterMap_cons_none hfound]
      exact ih.cons _
    | some found =>
      rw [filterMap_cons_some hfound, map_cons, h item found hfound]
      exact ih.cons_cons _

/-- A loop establishes what one of its rounds does. -/
theorem foldl_iff {α β : Type*} {f : β → α → β} {items : List α} {p : β → Prop} {q : α → Prop}
    (hstep : ∀ state, ∀ item ∈ items, p (f state item) ↔ p state ∨ q item) (start : β) :
    p (items.foldl f start) ↔ p start ∨ ∃ item ∈ items, q item := by
  induction items generalizing start with
  | nil => simp
  | cons first rest ih =>
    rw [foldl_cons, ih fun state item hitem => hstep state item (mem_cons_of_mem _ hitem),
      hstep start first mem_cons_self, exists_mem_cons_iff, or_assoc]

variable {key : Str}

namespace Map

variable {ν : Type u}

section

variable (m : Map ν) (key : Str)

/-- `m[key]` with the given zero value. -/
def get (zero : ν) : ν := (m.lookup key).getD zero

/-- The membership form `_, ok := m[key]`. -/
def has : Bool := (m.lookup key).isSome

/-- `m[key] = value`. -/
def set (value : ν) : Map ν := AList.insert key value m

/-- Replace the element at a key by a function of its present value. -/
def update (zero : ν) (f : ν → ν) : Map ν :=
  m.set key (f (m.get key zero))

end

variable (pairs : List (Str × ν))

/-- The loop `m[key] = append(m[key], item)` over a list of keys and items. -/
def gather : Map (List ν) :=
  pairs.foldl (fun m pair => m.update pair.1 [] (fun items => items ++ [pair.2])) ∅

/-- The loop `m[key] = value` over a list of keys and values. -/
def ofPairs : Map ν :=
  pairs.foldl (fun m pair => m.set pair.1 pair.2) ∅

/-- `len(m)`. -/
def len (m : Map ν) : Nat := m.keys.length

/-- The keys in ascending byte order. -/
def sortedKeys (m : Map ν) : List Str := sortStrings m.keys

theorem lookup_set (m : Map ν) (key other : Str) (value : ν) :
    (m.set key value).lookup other = if other = key then some value else m.lookup other := by
  by_cases h : other = key
  · subst h
    simp [set]
  · simp [set, h]

variable {m : Map ν}

@[simp] theorem has_eq_true : m.has key = true ↔ key ∈ m.keys := by
  rw [has, AList.lookup_isSome, AList.mem_keys]

@[simp] theorem has_empty (key : Str) : (∅ : Map ν).has key = false := by
  simp [has]

variable {value : ν}

theorem mem_keys_of_lookup (h : m.lookup key = some value) : key ∈ m.keys := by
  rw [← AList.mem_keys, ← AList.lookup_isSome, h]
  rfl

theorem mem_keys_set {other : Str} :
    other ∈ (m.set key value).keys ↔ other = key ∨ other ∈ m.keys := by
  rw [← AList.mem_keys, ← AList.mem_keys, set, AList.mem_insert]

theorem mem_keys_foldl_set {keys : List Str} :
    key ∈ (keys.foldl (fun m other => m.set other value) m).keys ↔ key ∈ m.keys ∨ key ∈ keys := by
  rw [foldl_iff (p := fun m : Map ν => key ∈ m.keys) (q := (key = ·)) fun m other _ =>
    mem_keys_set.trans or_comm]
  simp

theorem lookup_update (m : Map ν) (key other : Str) (zero : ν) (f : ν → ν) :
    (m.update key zero f).lookup other =
      if other = key then some (f (m.get key zero)) else m.lookup other :=
  lookup_set m key other _

theorem get_update (m : Map ν) (key other : Str) (zero : ν) (f : ν → ν) :
    (m.update key zero f).get other zero =
      if other = key then f (m.get key zero) else m.get other zero := by
  rw [get, lookup_update]
  split <;> rfl

theorem mem_keys_update {other : Str} {zero : ν} {f : ν → ν} :
    other ∈ (m.update key zero f).keys ↔ other = key ∨ other ∈ m.keys :=
  mem_keys_set

theorem get_set_true {m : Map Bool} {other : Str} :
    (m.set other true).get key false = true ↔ m.get key false = true ∨ key = other := by
  rw [get, lookup_set]
  by_cases hkey : key = other <;> simp [hkey, get]

theorem get_gather (key : Str) : (gather pairs).get key [] =
      (pairs.filter (fun pair => pair.1 = key)).map Prod.snd := by
  have hfold : ∀ (pairs : List (Str × ν)) (m : Map (List ν)),
      (pairs.foldl (fun m pair => m.update pair.1 [] (fun items => items ++ [pair.2])) m).get
          key [] =
        m.get key [] ++ (pairs.filter (fun pair => pair.1 = key)).map Prod.snd := by
    intro pairs
    induction pairs with
    | nil => simp
    | cons pair rest ih =>
      intro m
      rw [foldl_cons, ih, get_update]
      by_cases hkey : key = pair.1
      · simp [hkey]
      · rw [if_neg hkey, filter_cons_of_neg (by simpa using Ne.symm hkey)]
  rw [gather, hfold]
  rfl

variable {pairs : List (Str × ν)}

theorem mem_gather {item : ν} : item ∈ (gather pairs).get key [] ↔ (key, item) ∈ pairs := by
  simp only [get_gather, mem_map, mem_filter, decide_eq_true_eq]
  constructor
  · rintro ⟨⟨_, _⟩, ⟨hmem, rfl⟩, rfl⟩
    exact hmem
  · intro hmem
    exact ⟨_, ⟨hmem, rfl⟩, rfl⟩

theorem mem_of_lookup_ofPairs (h : (ofPairs pairs).lookup key = some value) :
    (key, value) ∈ pairs := by
  revert h
  refine foldlRecOn (motive := fun m : Map ν => m.lookup key = some value → (key, value) ∈ pairs)
    _ _ (by simp) ?_
  intro m hm pair hpair h
  rw [lookup_set] at h
  split at h
  next hkey =>
    rw [hkey, ← Option.some.inj h]
    exact hpair
  next => exact hm h

theorem mem_keys_ofPairs : key ∈ (ofPairs pairs).keys ↔ ∃ value, (key, value) ∈ pairs := by
  rw [ofPairs, foldl_iff (p := fun m : Map ν => key ∈ m.keys) (q := (key = Prod.fst ·))
    fun m pair _ => mem_keys_set.trans or_comm]
  simp

theorem lookup_ofPairs_iff
    (h : ∀ first ∈ pairs, ∀ second ∈ pairs, first.1 = second.1 → first.2 = second.2) :
    (ofPairs pairs).lookup key = some value ↔ (key, value) ∈ pairs := by
  refine ⟨mem_of_lookup_ofPairs, fun hpair => ?_⟩
  obtain ⟨found, hfound⟩ := Option.isSome_iff_exists.mp
    (AList.lookup_isSome.mpr (AList.mem_keys.mpr (mem_keys_ofPairs.mpr ⟨value, hpair⟩)))
  rw [hfound]
  exact congrArg some (h _ (mem_of_lookup_ofPairs hfound) _ hpair rfl)

theorem mem_keys_of_mem_get {m : Map (List ν)} {item : ν} (h : item ∈ m.get key []) :
    key ∈ m.keys := by
  unfold get at h
  cases hlookup : m.lookup key with
  | none => simp [hlookup] at h
  | some found => exact mem_keys_of_lookup hlookup

theorem sortedKeys_pairwise (m : Map ν) : m.sortedKeys.Pairwise (· < ·) :=
  sortStrings_pairwise m.nodupKeys

theorem mem_sortedKeys : key ∈ m.sortedKeys ↔ key ∈ m.keys :=
  mem_insertionSort _

end Map

/-- The order in which one `range` loop over a map visits the keys. The runtime
may choose any. -/
structure IterationOrder where
  visit : List Str → List Str
  visit_perm : ∀ keys, (visit keys).Perm keys

/-- The keys are visited as they are stored. -/
def IterationOrder.identity : IterationOrder := ⟨id, fun _ => .rfl⟩

/-! ## Maps with integer keys -/

/-- A map with integer keys is kept as the list of its assignments; the last one
to an index counts. -/
def assigned (assignments : List (Int × Str)) (index : Int) : Option Str :=
  assignments.reverse.lookup index

variable {assignments : List (Int × Str)}

variable {index : Int} {value : Str}

theorem assigned_eq_some_iff : assigned assignments index = some value ↔
      ∃ earlier later, assignments = earlier ++ (index, value) :: later ∧
        ∀ assignment ∈ later, assignment.1 ≠ index := by
  rw [assigned, lookup_eq_some_iff]
  constructor
  · rintro ⟨later, earlier, heq, hlater⟩
    refine ⟨earlier.reverse, later.reverse, ?_, ?_⟩
    · rw [← reverse_reverse assignments, heq]
      simp
    · intro assignment hmem heq
      have := hlater assignment (mem_reverse.mp hmem)
      simp [heq] at this
  · rintro ⟨earlier, later, rfl, hlater⟩
    refine ⟨later.reverse, earlier.reverse, by simp, ?_⟩
    intro assignment hmem
    have := hlater assignment (mem_reverse.mp hmem)
    simpa using Ne.symm this

theorem mem_of_assigned (h : assigned assignments index = some value) :
    (index, value) ∈ assignments := by
  obtain ⟨_, _, rfl, -⟩ := assigned_eq_some_iff.mp h
  simp

theorem assigned_of_unique (h : (index, value) ∈ assignments)
    (hunique : ∀ other, (index, other) ∈ assignments → other = value) :
    assigned assignments index = some value := by
  cases hassigned : assigned assignments index with
  | none =>
    have hnone := lookup_eq_none_iff.mp hassigned (index, value) (mem_reverse.mpr h)
    simp at hnone
  | some found => exact congrArg some (hunique found (mem_of_assigned hassigned))

end Go
