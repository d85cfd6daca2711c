import Mathlib.Data.Finset.Card
import Mathlib.Data.Finset.Filter
import Mathlib.Data.List.Pairwise
import CCattler.Store.Trie

/-! # The trie represents a set of keys

What a trie shows along every path is determined by its set of keys. Insertion and
removal act on that set, and a prefix query lists it in order.
-/

namespace CCattler.Store

open Go List Option TrieNode

variable {depth : Nat} {seen : Str × Int}

namespace TrieNode

theorem induction {P : TrieNode → Prop}
    (step : ∀ children factKey count, (∀ b child, children b = some child → P child) →
      P (mk children factKey count)) (node : TrieNode) : P node :=
  @TrieNode.rec P (fun option => ∀ child, option = some child → P child)
    (fun children factKey count ih => step children factKey count ih)
    (fun _ h => absurd h (by simp))
    (fun child ih _ h => Option.some.inj h ▸ ih) node

variable (node : TrieNode)

@[simp] theorem factKey_setChild (b : UInt8) (child : Option TrieNode) :
    (node.setChild b child).factKey = node.factKey := rfl

@[simp] theorem subtreeCount_setChild (b : UInt8) (child : Option TrieNode) :
    (node.setChild b child).subtreeCount = node.subtreeCount := rfl

variable (delta : Int)

@[simp] theorem factKey_addCount : (node.addCount delta).factKey = node.factKey := rfl

@[simp] theorem subtreeCount_addCount :
    (node.addCount delta).subtreeCount = node.subtreeCount + delta := rfl

@[simp] theorem children_addCount : (node.addCount delta).children = node.children := rfl

theorem children_setChild (b other : UInt8) (child : Option TrieNode) :
    (node.setChild b child).children other = if other = b then child else node.children other := by
  by_cases h : other = b
  · subst h
    simp [setChild, children]
  · simp [setChild, children, h]

theorem mem_allBytes (b : UInt8) : b ∈ allBytes :=
  mem_map.mpr ⟨b.toNat, mem_range.mpr b.toNat_lt, UInt8.ofNat_toNat⟩

theorem childless_iff : node.childless = true ↔ ∀ b, node.children b = none := by
  simp [childless, mem_allBytes]

/-! ## What a node shows along a path -/

/-- Key and count of the node at the end of a path. -/
def view (node : TrieNode) (path : Str) : Option (Str × Int) :=
  (node.descend path).map (fun found => (found.factKey, found.subtreeCount))

@[simp] theorem view_nil : node.view [] = some (node.factKey, node.subtreeCount) := rfl

theorem view_cons (b : UInt8) (rest : Str) :
    node.view (b :: rest) = (node.children b).bind (fun child => child.view rest) := by
  cases h : node.children b <;> simp [view, descend, h]

theorem view_setChild_cons (b other : UInt8) (child : Option TrieNode) (rest : Str) :
    (node.setChild b child).view (other :: rest) =
      if other = b then child.bind (fun found => found.view rest)
      else node.view (other :: rest) := by
  rw [view_cons, children_setChild]
  by_cases h : other = b
  · simp [h]
  · simp [h, view_cons]

theorem view_fresh_getD (path : Str) : (fresh.view path).getD ([], 0) = ([], 0) := by
  cases path <;> rfl

theorem view_append (path rest : Str) :
    node.view (path ++ rest) = (node.descend path).bind (fun found => found.view rest) := by
  induction path generalizing node with
  | nil => rfl
  | cons b path ih =>
    rw [cons_append, view_cons, descend]
    cases node.children b with
    | none => rfl
    | some child => exact ih child

section

variable {node found : TrieNode} {path : Str} (h : node.descend path = some found)
include h

theorem view_of_descend : node.view path = some (found.factKey, found.subtreeCount) := by
  rw [view, h, map_some]

theorem childless_descend : found.childless = true ↔ ∀ b, node.view (path ++ [b]) = none := by
  rw [childless_iff]
  refine forall_congr' fun b => ?_
  rw [view_append, h, bind_some, view_cons]
  cases found.children b <;> simp

end

theorem view_ensurePath (key path : Str) : (node.ensurePath key).view path =
      if path <+: key then some ((node.view path).getD ([], 0)) else node.view path := by
  induction key generalizing node path with
  | nil =>
    cases path with
    | nil => simp [ensurePath]
    | cons b rest => simp [ensurePath]
  | cons b key ih =>
    cases path with
    | nil => simp [ensurePath]
    | cons other rest =>
      rw [ensurePath, view_setChild_cons]
      by_cases h : other = b
      · subst h
        rw [if_pos rfl, bind_some, ih, view_cons]
        simp only [cons_prefix_cons, true_and]
        cases node.children other with
        -- a node created on the way shows no key and counts nothing
        | none =>
          split
          next => simp [view_fresh_getD]
          next hnot =>
            cases rest with
            | nil => exact absurd nil_prefix hnot
            | cons c rest => rfl
        | some child => rfl
      · rw [if_neg h, if_neg (by simp [h])]

/-- An update that keeps the children changes what is seen at its target only. -/
theorem view_modifyAt (f : TrieNode → TrieNode) (hf : ∀ node, (f node).children = node.children)
    (node : TrieNode) (key path : Str) :
    (node.modifyAt f key).view path =
      if path = key then
        (node.descend path).map (fun found => ((f found).factKey, (f found).subtreeCount))
      else node.view path := by
  induction key generalizing node path with
  | nil =>
    cases path with
    | nil => simp [modifyAt, descend]
    | cons b rest => simp [modifyAt, view_cons, hf]
  | cons b key ih =>
    cases hchild : node.children b with
    -- the path breaks off: there is no node to write to
    | none =>
      simp only [modifyAt, hchild]
      split
      next h =>
        subst h
        simp [view, descend, hchild]
      next => rfl
    | some child =>
      simp only [modifyAt, hchild]
      cases path with
      | nil => simp
      | cons other rest =>
        rw [view_setChild_cons]
        by_cases h : other = b
        · subst h
          simp only [↓reduceIte, bind_some, ih, List.cons.injEq, true_and,
            descend, view_cons, hchild]
        · simp [h]

theorem view_setFactKeyAt (label key path : Str) :
    (node.modifyAt (fun found => found.setFactKey label) key).view path =
      if path = key then (node.view path).map (fun seen => (label, seen.2))
      else node.view path := by
  rw [view_modifyAt (fun found => found.setFactKey label) (fun _ => rfl), view, Option.map_map]
  rfl

/-- Counts change along the key's path only. -/
theorem view_modifyAlong_addCount (node : TrieNode) (key path : Str) :
    (node.modifyAlong (fun found => found.addCount delta) key).view path =
      if path <+: key then (node.view path).map (fun seen => (seen.1, seen.2 + delta))
      else node.view path := by
  induction key generalizing node path with
  | nil =>
    cases path with
    | nil => simp [modifyAlong]
    | cons b rest => simp [modifyAlong, view_cons]
  | cons b key ih =>
    cases path with
    | nil => cases hchild : node.children b <;> simp [modifyAlong, hchild]
    | cons other rest =>
      cases hchild : node.children b with
      | none =>
        simp only [modifyAlong, hchild]
        by_cases h : other = b
        · subst h
          simp [view_cons, hchild]
        · simp [view_cons, h]
      | some child =>
        simp only [modifyAlong, hchild]
        rw [view_setChild_cons]
        by_cases h : other = b
        · subst h
          simp [ih, view_cons, hchild]
        · simp [h, view_cons]

theorem view_deleteChild (b : UInt8) (parent path : Str) :
    (node.modifyAt (fun found => found.setChild b none) parent).view path =
      if parent ++ [b] <+: path then none else node.view path := by
  induction parent generalizing node path with
  | nil =>
    cases path with
    | nil => simp [modifyAt]
    | cons other rest =>
      simp only [modifyAt, view_setChild_cons, nil_append, cons_prefix_cons,
        nil_prefix, and_true, bind_none]
      by_cases h : other = b
      · simp [h]
      · simp [h, Ne.symm h]
  | cons c parent ih =>
    cases hchild : node.children c with
    | none =>
      simp only [modifyAt, hchild]
      split
      next h =>
        obtain ⟨_, rfl⟩ := h
        simp [view_cons, hchild]
      next => rfl
    | some child =>
      simp only [modifyAt, hchild]
      cases path with
      | nil => simp
      | cons other rest =>
        rw [view_setChild_cons]
        by_cases h : other = c
        · subst h
          simp [ih, view_cons, hchild]
        · simp [h, Ne.symm h]

/-! ## Collection -/

theorem collectSorted_mk (children : UInt8 → Option TrieNode) (factKey : Str) (count : Int) :
    collectSorted (mk children factKey count) = (if factKey ≠ [] then [factKey] else []) ++
        allBytes.flatMap (fun b => collectChild (children b)) := by
  rw [collectSorted]

theorem mem_collectSorted (key : Str) :
    key ∈ node.collectSorted ↔ key ≠ [] ∧ ∃ path count, node.view path = some (key, count) := by
  induction node using TrieNode.induction with
  | step children factKey count ih =>
    rw [collectSorted_mk, mem_append, mem_flatMap]
    constructor
    · rintro (hhere | ⟨b, -, hbelow⟩)
      · split at hhere
        next hne =>
          rw [mem_singleton] at hhere
          subst hhere
          exact ⟨hne, [], count, rfl⟩
        next => simp at hhere
      · cases hchild : children b with
        | none => simp [hchild, collectChild] at hbelow
        | some child =>
          rw [hchild] at hbelow
          obtain ⟨hne, path, total, hview⟩ := (ih b child hchild).mp hbelow
          refine ⟨hne, b :: path, total, ?_⟩
          rw [view_cons]
          simpa [TrieNode.children, hchild] using hview
    · rintro ⟨hne, path, total, hview⟩
      cases path with
      | nil =>
        have hkey : factKey = key := congrArg Prod.fst (Option.some.inj hview)
        subst hkey
        exact Or.inl (by simp [hne])
      | cons b rest =>
        rw [view_cons] at hview
        obtain ⟨child, hchild, hview⟩ := bind_eq_some_iff.mp hview
        change children b = some child at hchild
        refine Or.inr ⟨b, mem_allBytes b, ?_⟩
        rw [hchild]
        exact (ih b child hchild).mpr ⟨hne, rest, total, hview⟩

theorem allBytes_pairwise : allBytes.Pairwise (· < ·) := by
  rw [allBytes, pairwise_map]
  refine List.Pairwise.imp_of_mem ?_ pairwise_lt_range
  intro a b ha hb _
  rw [mem_range] at ha hb
  rw [UInt8.lt_iff_toNat_lt, UInt8.toNat_ofNat', UInt8.toNat_ofNat']
  omega

theorem append_lt_append_cons (path : Str) (b : UInt8) (rest : Str) : path < path ++ b :: rest := by
  induction path with
  | nil => exact nil_lt_cons b rest
  | cons c path ih => exact cons_lt_cons_iff.mpr (Or.inr ⟨rfl, ih⟩)

theorem append_cons_lt_append_cons (path : Str) {b c : UInt8} (h : b < c) (restb restc : Str) :
    path ++ b :: restb < path ++ c :: restc := by
  induction path with
  | nil => exact cons_lt_cons_iff.mpr (Or.inl h)
  | cons d path ih => exact cons_lt_cons_iff.mpr (Or.inr ⟨rfl, ih⟩)

theorem collectSorted_pairwise (start : Str)
    (hpaths : ∀ path key count, node.view path = some (key, count) → key ≠ [] →
      key = start ++ path) : node.collectSorted.Pairwise (· < ·) := by
  induction node using TrieNode.induction generalizing start with
  | step children factKey count ih =>
    have hchildView : ∀ b child path, children b = some child →
        (mk children factKey count).view (b :: path) = child.view path := by
      intro b child path hchild
      simp [view_cons, TrieNode.children, hchild]
    have hbelow : ∀ b key, key ∈ collectChild (children b) → ∃ rest, key = start ++ b :: rest := by
      intro b key hmem
      cases hchild : children b with
      | none => simp [hchild, collectChild] at hmem
      | some child =>
        rw [hchild] at hmem
        obtain ⟨hne, path, total, hview⟩ := (mem_collectSorted child key).mp hmem
        rw [← hchildView b child path hchild] at hview
        exact ⟨path, hpaths _ key total hview hne⟩
    -- the node's own key comes first, then its children in byte order
    rw [collectSorted_mk, pairwise_append]
    refine ⟨?_, ?_, ?_⟩
    · split <;> simp
    · rw [pairwise_flatMap]
      constructor
      · intro b _
        cases hchild : children b with
        | none => simp [collectChild]
        | some child =>
          refine ih b child hchild (start ++ [b]) ?_
          intro path key total hview hne
          rw [← hchildView b child path hchild] at hview
          simpa using hpaths _ key total hview hne
      · refine allBytes_pairwise.imp ?_
        intro b c hlt key hkey other hother
        obtain ⟨restb, rfl⟩ := hbelow b key hkey
        obtain ⟨restc, rfl⟩ := hbelow c other hother
        exact append_cons_lt_append_cons start hlt restb restc
    · intro key hkey other hother
      split at hkey
      next hne =>
        rw [mem_singleton] at hkey
        subst hkey
        have hhere := hpaths [] key count rfl hne
        rw [append_nil] at hhere
        obtain ⟨b, -, hother⟩ := mem_flatMap.mp hother
        obtain ⟨rest, rfl⟩ := hbelow b other hother
        rw [hhere]
        exact append_lt_append_cons start b rest
      next => simp at hkey

end TrieNode

namespace PrefixTrie

/-! ## The represented key set -/

section

variable (keys : Finset Str) (path : Str)

/-- How many of the keys continue a path. -/
def countBelow : Nat :=
  (keys.filter (fun key => path <+: key)).card

/-- The key that ends at a path, if it is one of the keys. -/
def labelOf : Str := if path ∈ keys then path else []

/-- What a trie holding exactly these keys shows at a path. -/
def shown : Option (Str × Int) :=
  if countBelow keys path = 0 then none else some (labelOf keys path, countBelow keys path)

end

/-- The trie holds exactly the given keys; the root may also count the empty key. -/
structure Indexes (trie : PrefixTrie) (keys : Finset Str) : Prop where
  nonempty : [] ∉ keys
  root_key : trie.root.factKey = []
  root_count : (keys.card : Int) ≤ trie.root.subtreeCount
  below : ∀ path, path ≠ [] → trie.root.view path = shown keys path

theorem indexes_new : Indexes new ∅ where
  nonempty := by simp
  root_key := rfl
  root_count := le_refl _
  below := by
    intro path hne
    cases path with
    | nil => exact absurd rfl hne
    | cons b rest => rfl

variable {path : Str}

section

variable {keys : Finset Str}

theorem countBelow_eq_zero_iff : countBelow keys path = 0 ↔ ∀ key ∈ keys, ¬ path <+: key := by
  simp [countBelow]

variable {key : Str}

theorem countBelow_pos (hkey : key ∈ keys) (hpath : path <+: key) : countBelow keys path ≠ 0 :=
  fun h => countBelow_eq_zero_iff.mp h key hkey hpath

theorem countBelow_insert (hkey : key ∉ keys) (path : Str) :
    countBelow (insert key keys) path = countBelow keys path + if path <+: key then 1 else 0 := by
  unfold countBelow
  rw [Finset.filter_insert]
  split
  next => rw [Finset.card_insert_of_notMem (by simp [hkey])]
  next => rfl

theorem countBelow_erase (hkey : key ∈ keys) (path : Str) :
    countBelow keys path = countBelow (keys.erase key) path + if path <+: key then 1 else 0 := by
  rw [← countBelow_insert (Finset.notMem_erase key keys) path, Finset.insert_erase hkey]

theorem labelOf_insert_of_ne (h : path ≠ key) :
    labelOf (insert key keys) path = labelOf keys path := by
  simp [labelOf, h]

theorem labelOf_erase_of_ne (h : path ≠ key) :
    labelOf (keys.erase key) path = labelOf keys path := by
  simp [labelOf, h]

theorem shown_of_mem (hkey : key ∈ keys) :
    shown keys key = some (key, (countBelow keys key : Int)) := by
  rw [shown, if_neg (countBelow_pos hkey prefix_rfl), labelOf, if_pos hkey]

theorem shown_of_pos (h : countBelow keys path ≠ 0) :
    shown keys path = some (labelOf keys path, (countBelow keys path : Int)) := if_neg h

end

theorem shown_getD (keys : Finset Str) (path : Str) :
    (shown keys path).getD ([], 0) = (labelOf keys path, (countBelow keys path : Int)) := by
  unfold shown
  split
  next hzero =>
    have hnot : path ∉ keys := fun hmem => countBelow_pos hmem prefix_rfl hzero
    simp [labelOf, hnot, hzero]
  next => rfl

section

variable {keys : Finset Str} {key path : Str} (hkey : key ∉ keys)
include hkey

theorem shown_insert_off_path (hpath : ¬ path <+: key) :
    shown (insert key keys) path = shown keys path := by
  have hne : path ≠ key := fun h => hpath (h ▸ prefix_rfl)
  rw [shown, shown, countBelow_insert hkey, if_neg hpath, Nat.add_zero, labelOf_insert_of_ne hne]

theorem shown_insert_on_path (hpath : path <+: key) : shown (insert key keys) path =
      some (if path = key then key else labelOf keys path, (countBelow keys path : Int) + 1) := by
  have hcount := countBelow_insert hkey path
  rw [if_pos hpath] at hcount
  rw [shown_of_pos (by omega), hcount]
  congr 2
  by_cases h : path = key
  · rw [if_pos h, h, labelOf, if_pos (Finset.mem_insert_self key keys)]
  · rw [if_neg h, labelOf_insert_of_ne h]

end

variable {trie : PrefixTrie} {keys : Finset Str} {key : Str}

theorem view_root (trie : PrefixTrie) :
    trie.root.view [] = some (trie.root.factKey, trie.root.subtreeCount) := rfl

/-- A trie with the right view indexes the keys. -/
theorem Indexes.of_view (count : Int) (hnonempty : [] ∉ keys)
    (hroot : trie.root.view [] = some ([], count)) (hcount : (keys.card : Int) ≤ count)
    (hbelow : ∀ path, path ≠ [] → trie.root.view path = shown keys path) :
    Indexes trie keys where
  nonempty := hnonempty
  root_key := congrArg Prod.fst (Option.some.inj hroot)
  root_count := by
    have hseen : trie.root.subtreeCount = count := congrArg Prod.snd (Option.some.inj hroot)
    rw [hseen]
    exact hcount
  below := hbelow

theorem Indexes.root_view (h : Indexes trie keys) :
    trie.root.view [] = some ([], trie.root.subtreeCount) := by
  rw [view_root, h.root_key]

theorem Indexes.ne_nil (h : Indexes trie keys) (hkey : key ∈ keys) : key ≠ [] :=
  fun heq => h.nonempty (heq ▸ hkey)

theorem descend_of_view {node : TrieNode} (h : node.view path = some seen) :
    ∃ found, node.descend path = some found ∧ found.factKey = seen.1 ∧
      found.subtreeCount = seen.2 := by
  obtain ⟨found, hfound, rfl⟩ := map_eq_some_iff.mp h
  exact ⟨found, hfound, rfl, rfl⟩

/-! ## Insertion -/

theorem view_insert_present (hseen : trie.root.view key = some seen) (hlabel : seen.1 ≠ [])
    (path : Str) : (trie.insert key).root.view path = (trie.root.ensurePath key).view path := by
  have hend := view_ensurePath trie.root key key
  rw [if_pos prefix_rfl, hseen] at hend
  obtain ⟨found, hfound, hkey, -⟩ := descend_of_view hend
  have hnonempty : found.factKey ≠ [] := hkey ▸ hlabel
  simp [PrefixTrie.insert, hfound, hnonempty]

theorem view_insert_absent (trie : PrefixTrie) (key : Str)
    (hlabel : ((trie.root.view key).getD ([], 0)).1 = []) (path : Str) :
    (trie.insert key).root.view path =
      if path <+: key then
        some (if path = key then key else ((trie.root.view path).getD ([], 0)).1,
          ((trie.root.view path).getD ([], 0)).2 + 1)
      else trie.root.view path := by
  have hgrown := view_ensurePath trie.root key
  have hend := hgrown key
  rw [if_pos prefix_rfl] at hend
  obtain ⟨found, hfound, hkey, -⟩ := descend_of_view hend
  have hempty : found.factKey = [] := hkey.trans hlabel
  simp only [PrefixTrie.insert, hfound, hempty, if_true, incrementAncestors]
  rw [view_modifyAlong_addCount, view_setFactKeyAt, hgrown]
  by_cases hpath : path <+: key
  · rw [if_pos hpath, if_pos hpath, if_pos hpath]
    by_cases heq : path = key
    · rw [if_pos heq, if_pos heq]
      rfl
    · rw [if_neg heq, if_neg heq]
      rfl
  · have hne : path ≠ key := fun heq => hpath (heq ▸ prefix_rfl)
    rw [if_neg hpath, if_neg hpath, if_neg hne, if_neg hpath]

theorem Indexes.insert_of_mem (h : Indexes trie keys) (hkey : key ∈ keys) :
    Indexes (trie.insert key) keys := by
  have hne := h.ne_nil hkey
  have hseen := (h.below key hne).trans (shown_of_mem hkey)
  have hsame : ∀ path, (trie.insert key).root.view path = trie.root.view path := by
    intro path
    rw [view_insert_present hseen hne, view_ensurePath]
    split
    next hpath =>
      cases path with
      | nil => rfl
      | cons b rest =>
        rw [h.below _ (cons_ne_nil b rest), shown_of_pos (countBelow_pos hkey hpath)]
        rfl
    next => rfl
  refine Indexes.of_view _ h.nonempty ((hsame []).trans h.root_view) h.root_count ?_
  intro path hpath
  rw [hsame, h.below path hpath]

theorem Indexes.insert_of_notMem (h : Indexes trie keys) (hkey : key ∉ keys) (hne : key ≠ []) :
    Indexes (trie.insert key) (insert key keys) := by
  have hgetD : ∀ path, path ≠ [] → (trie.root.view path).getD ([], 0) =
      (labelOf keys path, (countBelow keys path : Int)) := by
    intro path hpath
    rw [h.below path hpath, shown_getD]
  have hview := view_insert_absent trie key (by
    rw [hgetD key hne, labelOf, if_neg hkey])
  refine Indexes.of_view (trie.root.subtreeCount + 1) ?_ ?_ ?_ ?_
  · simp [hne.symm, h.nonempty]
  · rw [hview, if_neg hne.symm, h.root_view]
    rfl
  · rw [Finset.card_insert_of_notMem hkey]
    have := h.root_count
    omega
  · intro path hpath
    rw [hview]
    split
    next hpre => rw [shown_insert_on_path hkey hpre, hgetD path hpath]
    next hpre => rw [shown_insert_off_path hkey hpre, h.below path hpath]

theorem Indexes.insert_nil (h : Indexes trie keys) : Indexes (trie.insert []) keys := by
  have hview := view_insert_absent trie [] (by rw [h.root_view]; rfl)
  refine Indexes.of_view (trie.root.subtreeCount + 1) h.nonempty ?_ ?_ ?_
  · rw [hview, if_pos rfl, h.root_view]
    rfl
  · have := h.root_count
    omega
  · intro path hpath
    rw [hview, if_neg (fun hpre => hpath (prefix_nil.mp hpre)), h.below path hpath]

/-! ## Removal -/

theorem countBelow_mono {longer : Str} (h : path <+: longer) (hpos : countBelow keys longer ≠ 0) :
    countBelow keys path ≠ 0 := by
  intro hzero
  refine hpos (countBelow_eq_zero_iff.mpr fun key hkey hlonger => ?_)
  exact countBelow_eq_zero_iff.mp hzero key hkey (h.trans hlonger)

theorem countBelow_step (hpos : countBelow keys path ≠ 0) (hend : path ∉ keys) :
    ∃ b, countBelow keys (path ++ [b]) ≠ 0 := by
  by_contra hnone
  push Not at hnone
  refine hpos (countBelow_eq_zero_iff.mpr fun key hkey hpath => ?_)
  obtain ⟨rest, rfl⟩ := hpath
  cases rest with
  | nil => exact hend (by simpa using hkey)
  | cons b rest =>
    refine countBelow_eq_zero_iff.mp (hnone b) _ hkey ⟨rest, by simp⟩

/-- The nodes of the removed key up to the given depth are still there. -/
def PrunedTo (key : Str) (keys : Finset Str) (depth : Nat) (trie : PrefixTrie) : Prop :=
  ∀ path, path ≠ [] → trie.root.view path =
    if path <+: key ∧ path.length ≤ depth then
      some (labelOf keys path, (countBelow keys path : Int))
    else shown keys path

theorem PrunedTo.zero (h : PrunedTo key keys 0 trie) (path : Str) (hpath : path ≠ []) :
    trie.root.view path = shown keys path := by
  rw [h path hpath, if_neg]
  rintro ⟨-, hlength⟩
  exact hpath (length_eq_zero_iff.mp (Nat.le_zero.mp hlength))

theorem PrunedTo.stop (h : PrunedTo key keys depth trie)
    (hneeded : countBelow keys (key.take depth) ≠ 0) (path : Str) (hpath : path ≠ []) :
    trie.root.view path = shown keys path := by
  rw [h path hpath]
  split
  next hpre =>
    have htake : path <+: key.take depth :=
      prefix_take_iff.mpr hpre
    rw [shown_of_pos (countBelow_mono htake hneeded)]
  next => rfl

theorem PrunedTo.step {b : UInt8} (h : PrunedTo key keys (depth + 1) trie)
    (hbyte : key[depth]? = some b) (hempty : countBelow keys (key.take (depth + 1)) = 0) :
    PrunedTo key keys depth
      ⟨trie.root.modifyAt (fun parent => parent.setChild b none) (key.take depth)⟩ := by
  obtain ⟨_, hget⟩ := List.getElem?_eq_some_iff.mp hbyte
  have htake : key.take depth ++ [b] = key.take (depth + 1) := by
    rw [← hget, take_append_getElem]
  intro path hpath
  rw [view_deleteChild, htake]
  by_cases hbelow : key.take (depth + 1) <+: path
  -- below the deleted node: nothing is shown any more, and no key is left there
  · have hzero : countBelow keys path = 0 := by
      by_contra hpos
      exact countBelow_mono hbelow hpos hempty
    have hlong : ¬ path.length ≤ depth := by
      have := hbelow.length_le
      rw [length_take] at this
      omega
    rw [if_pos hbelow, if_neg (fun hand => hlong hand.2), shown, if_pos hzero]
  · rw [if_neg hbelow, h path hpath]
    by_cases hpre : path <+: key
    · have hshort : path.length ≤ depth + 1 ↔ path.length ≤ depth := by
        refine ⟨fun hle => ?_, fun hle => by omega⟩
        by_contra hgt
        have hpre : path <+: key.take (depth + 1) := prefix_take_iff.mpr ⟨hpre, hle⟩
        have heq := hpre.eq_of_length (by rw [length_take]; omega)
        exact hbelow (heq ▸ prefix_rfl)
      simp [hshort]
    · simp [hpre]

/-- The upward loop stops at a node exactly if one of the remaining keys still
passes through it. -/
theorem PrunedTo.stops_iff (h : PrunedTo key keys (depth + 1) trie) (hdepth : depth < key.length)
    {node : TrieNode} (hnode : trie.root.descend (key.take (depth + 1)) = some node) :
    (node.factKey ≠ [] ∨ node.childless = false) ↔ countBelow keys (key.take (depth + 1)) ≠ 0 := by
  have hlen : (key.take (depth + 1)).length = depth + 1 := by
    rw [length_take]
    omega
  have hne : key.take (depth + 1) ≠ [] := ne_nil_of_length_eq_add_one hlen
  have hlabel : node.factKey = labelOf keys (key.take (depth + 1)) := by
    have hview := h _ hne
    rw [if_pos ⟨ take_prefix _ _, hlen.le⟩, view_of_descend hnode] at hview
    exact congrArg Prod.fst (Option.some.inj hview)
  -- one byte further the view is already the final one
  have hchild : ∀ b, trie.root.view (key.take (depth + 1) ++ [b]) =
      shown keys (key.take (depth + 1) ++ [b]) := by
    intro b
    rw [h _ (by simp), if_neg]
    rintro ⟨-, hle⟩
    rw [length_append, length_singleton] at hle
    omega
  have hchildless := childless_descend hnode
  constructor
  · rintro (hkey | hkids)
    · have hmem : key.take (depth + 1) ∈ keys := by
        by_contra hnot
        exact hkey (hlabel.trans (if_neg hnot))
      exact countBelow_pos hmem prefix_rfl
    · have hsome : ¬ ∀ b, trie.root.view (key.take (depth + 1) ++ [b]) = none := by
        rw [← hchildless, hkids]
        simp
      push Not at hsome
      obtain ⟨b, hb⟩ := hsome
      rw [hchild] at hb
      exact countBelow_mono (prefix_append _ [b]) fun hzero => hb (if_pos hzero)
  · intro hpos
    by_contra hgo
    push Not at hgo
    have hend : key.take (depth + 1) ∉ keys := by
      intro hmem
      rw [labelOf, if_pos hmem] at hlabel
      exact hne (hlabel.symm.trans hgo.1)
    obtain ⟨b, hb⟩ := countBelow_step hpos hend
    have hnone := hchildless.mp (by simpa using hgo.2) b
    rw [hchild, shown_of_pos hb] at hnone
    exact absurd hnone (by simp)

/-- The upward loop restores exactly the view of the remaining keys and leaves
the root as it is. -/
theorem PrunedTo.view_pruneFrom (hdepth : depth ≤ key.length) (h : PrunedTo key keys depth trie)
    (path : Str) :
    (pruneFrom key depth trie).root.view path =
      if path = [] then trie.root.view [] else shown keys path := by
  induction depth generalizing trie with
  | zero =>
    rw [pruneFrom]
    split
    next heq => rw [heq]
    next hpath => exact h.zero path hpath
  | succ depth ih =>
    have hnonempty : key.take (depth + 1) ≠ [] := by
      apply ne_nil_of_length_pos
      rw [length_take]
      omega
    have hview := h _ hnonempty
    rw [if_pos ⟨ take_prefix _ _, length_take_le _ _⟩] at hview
    obtain ⟨_, hnode, -⟩ := descend_of_view hview
    have hbyte : key[depth]? = some key[depth] := List.getElem?_eq_getElem (by omega)
    have hstops := h.stops_iff (by omega) hnode
    simp only [pruneFrom, hnode, hbyte]
    split
    next hstop =>
      split
      next heq => rw [heq]
      next hpath => exact h.stop (hstops.mp hstop) path hpath
    next hgo =>
      have hempty : countBelow keys (key.take (depth + 1)) = 0 := by
        by_contra hpos
        exact hgo (hstops.mpr hpos)
      have hroot : ¬ key.take depth ++ [key[depth]] <+: [] :=
        fun hpre => append_ne_nil_of_right_ne_nil _ (cons_ne_nil _ _) (prefix_nil.mp hpre)
      -- the deleted child lies below the root, so the root looks as before
      rw [ih (by omega) (h.step hbyte hempty), view_deleteChild, if_neg hroot]

theorem view_cleared (key path : Str) :
    (decrementAncestors ⟨trie.root.modifyAt (fun node => node.setFactKey []) key⟩ key).root.view
        path =
      if path <+: key then (trie.root.view path).map (fun seen =>
        (if path = key then [] else seen.1, seen.2 - 1))
      else trie.root.view path := by
  rw [decrementAncestors, view_modifyAlong_addCount, view_setFactKeyAt]
  by_cases hpath : path <+: key
  · rw [if_pos hpath, if_pos hpath]
    by_cases heq : path = key
    · simp only [heq, if_true, Option.map_map]
      rfl
    · simp only [heq]
      rfl
  · have hne : path ≠ key := fun heq => hpath (heq ▸ prefix_rfl)
    rw [if_neg hpath, if_neg hpath, if_neg hne]

variable (h : Indexes trie keys)
include h

theorem Indexes.prunedTo_cleared (hkey : key ∈ keys) : PrunedTo key (keys.erase key) key.length
      (decrementAncestors ⟨trie.root.modifyAt (fun node => node.setFactKey []) key⟩ key) := by
  intro path hpath
  rw [view_cleared, h.below path hpath]
  have hcount := countBelow_erase hkey path
  by_cases hpre : path <+: key
  · rw [if_pos hpre] at hcount
    rw [if_pos hpre, if_pos ⟨hpre, hpre.length_le⟩, shown_of_pos (by omega), hcount]
    by_cases heq : path = key
    · simp [heq, labelOf]
    · simp [heq, labelOf_erase_of_ne heq]
  · have hne : path ≠ key := fun heq => hpre (heq ▸ prefix_rfl)
    rw [if_neg hpre, Nat.add_zero] at hcount
    rw [if_neg hpre, if_neg (fun hand => hpre hand.1), shown, shown, hcount,
      labelOf_erase_of_ne hne]

theorem Indexes.remove_of_mem (hkey : key ∈ keys) :
    Indexes (trie.remove key).1 (keys.erase key) ∧ (trie.remove key).2 = true := by
  have hne := h.ne_nil hkey
  obtain ⟨found, hfound, hlabel, -⟩ :=
    descend_of_view ((h.below key hne).trans (shown_of_mem hkey))
  have hnonempty : found.factKey ≠ [] := fun hnil => hne (hlabel.symm.trans hnil)
  simp only [remove, hfound, hnonempty, if_false, and_true]
  have herase : [] ∉ keys.erase key := fun hmem => h.nonempty (Finset.mem_of_mem_erase hmem)
  have hview := (h.prunedTo_cleared hkey).view_pruneFrom le_rfl
  refine Indexes.of_view (trie.root.subtreeCount - 1) herase ?_ ?_ ?_
  · rw [pruneEmptyBranch, hview, if_pos rfl, view_cleared, if_pos nil_prefix, h.root_view,
      map_some, if_neg hne.symm]
  · rw [Finset.card_erase_of_mem hkey]
    have := h.root_count
    have := Finset.card_pos.mpr ⟨key, hkey⟩
    omega
  · intro _ hpath
    rw [pruneEmptyBranch, hview, if_neg hpath]

theorem Indexes.remove_of_notMem (hkey : key ∉ keys) : trie.remove key = (trie, false) := by
  unfold remove
  split
  next => rfl
  next found hfound =>
    have hview := view_of_descend hfound
    have hempty : found.factKey = [] := by
      cases key with
      | nil => exact (congrArg Prod.fst (Option.some.inj (h.root_view.symm.trans hview))).symm
      | cons b rest =>
        rw [h.below _ (cons_ne_nil b rest), shown] at hview
        split at hview
        next => exact absurd hview (by simp)
        next =>
          rw [labelOf, if_neg hkey] at hview
          exact (congrArg Prod.fst (Option.some.inj hview)).symm
    rw [if_pos hempty]

/-! ## Prefix scans -/

theorem Indexes.key_of_view {label : Str} {count : Int}
    (hview : trie.root.view path = some (label, count)) (hlabel : label ≠ []) :
    label = path ∧ path ∈ keys := by
  cases path with
  | nil =>
    have := congrArg Prod.fst (Option.some.inj (h.root_view.symm.trans hview))
    exact absurd this.symm hlabel
  | cons b rest =>
    rw [h.below _ (cons_ne_nil b rest), shown] at hview
    split at hview
    next => exact absurd hview (by simp)
    next =>
      have heq : labelOf keys (b :: rest) = label := congrArg Prod.fst (Option.some.inj hview)
      unfold labelOf at heq
      split at heq
      next hmem => exact ⟨heq.symm, hmem⟩
      next => exact absurd heq.symm hlabel

theorem Indexes.view_of_mem (hkey : key ∈ keys) :
    trie.root.view key = some (key, (countBelow keys key : Int)) :=
  (h.below key (h.ne_nil hkey)).trans (shown_of_mem hkey)

/-- Nothing is missed where the scan stops early on a subtree that counts no keys. -/
theorem Indexes.no_key_below {scanPrefix : Str} {found : TrieNode}
    (hfound : trie.root.descend scanPrefix = some found) (hcount : found.subtreeCount = 0)
    (hkey : key ∈ keys) : ¬ scanPrefix <+: key := by
  intro hpre
  have hview := view_of_descend hfound
  cases scanPrefix with
  | nil =>
    have hroot := h.root_count
    have hzero : trie.root.subtreeCount = found.subtreeCount :=
      congrArg Prod.snd (Option.some.inj (h.root_view.symm.trans hview))
    have := Finset.card_pos.mpr ⟨key, hkey⟩
    omega
  | cons b rest =>
    have hpos := countBelow_pos hkey hpre
    rw [h.below _ (cons_ne_nil b rest), shown_of_pos hpos] at hview
    have : (countBelow keys (b :: rest) : Int) = found.subtreeCount :=
      congrArg Prod.snd (Option.some.inj hview)
    omega

theorem Indexes.mem_keysWithPrefix (scanPrefix : Str) :
    key ∈ trie.keysWithPrefix scanPrefix ↔ key ∈ keys ∧ scanPrefix <+: key := by
  unfold keysWithPrefix
  split
  next hnone =>
    refine iff_of_false not_mem_nil ?_
    rintro ⟨hkey, _, rfl⟩
    have hview := h.view_of_mem hkey
    rw [view_append, hnone] at hview
    exact absurd hview (by simp)
  next found hfound =>
    split
    next hskip =>
      refine iff_of_false not_mem_nil fun hand => ?_
      exact h.no_key_below hfound hskip.1 hand.1 hand.2
    next =>
      have hsub : ∀ path, trie.root.view (scanPrefix ++ path) = found.view path := by
        intro path
        rw [view_append, hfound, bind_some]
      rw [mem_collectSorted]
      constructor
      · rintro ⟨hne, path, _, hview⟩
        obtain ⟨rfl, hmem⟩ := h.key_of_view ((hsub path).trans hview) hne
        exact ⟨hmem, prefix_append _ _⟩
      · rintro ⟨hkey, path, rfl⟩
        exact ⟨h.ne_nil hkey, path, _, (hsub path).symm.trans (h.view_of_mem hkey)⟩

theorem Indexes.keysWithPrefix_pairwise (scanPrefix : Str) :
    (trie.keysWithPrefix scanPrefix).Pairwise (· < ·) := by
  unfold keysWithPrefix
  split
  next => exact List.Pairwise.nil
  next found hfound =>
    split
    next => exact List.Pairwise.nil
    next =>
      refine collectSorted_pairwise found scanPrefix fun path label count hview hne => ?_
      have hwhole : trie.root.view (scanPrefix ++ path) = some (label, count) := by
        rw [view_append, hfound, bind_some, hview]
      exact (h.key_of_view hwhole hne).1

end PrefixTrie

end CCattler.Store
