import CCattler.Controllers.Optimistic

/-! # Atomic change groups

Capping selects whole groups, but the write-domain filter before it looks at single
changes and can cut a group in two.
-/

namespace CCattler.Controllers

open Go Store List

/-! ## The order of changes -/

theorem changeLess_eq_false_iff {first second : Change} : changeLess second first = false ↔
      ThenBy Change.group (ThenBy Change.key fun first second =>
        opTypeRank first.type ≤ opTypeRank second.type) first second := by
  simp only [changeLess, ite_lt_eq_false_iff, decide_eq_false_iff_not, not_lt, ThenBy]

theorem changeLess_total :
    ∀ first second, changeLess second first = false ∨ changeLess first second = false := by
  simp only [changeLess_eq_false_iff]
  exact thenBy_total (thenBy_total fun _ _ => Nat.le_total _ _)

theorem changeLess_trans : ∀ first second third, changeLess second first = false →
    changeLess third second = false → changeLess third first = false := by
  simp only [changeLess_eq_false_iff]
  exact thenBy_trans (thenBy_trans fun _ _ _ => Nat.le_trans)

/-- Changes in ascending order of their groups. -/
def GroupSorted (changes : List Change) : Prop :=
  changes.Pairwise (fun first second => first.group ≤ second.group)

theorem groupSorted_sort (changes : List Change) :
    GroupSorted (sortChangesByGroupAndKey changes) := by
  refine (sliceStable_sorted changeLess_total changeLess_trans changes).imp ?_
  intro _ _ hle
  rcases changeLess_eq_false_iff.mp hle with hlt | ⟨heq, -⟩
  · exact List.le_of_lt hlt
  · exact heq ▸ List.le_refl _

theorem sort_perm (changes : List Change) : (sortChangesByGroupAndKey changes).Perm changes :=
  sliceStable_perm _ changes

/-! ## Stretches of one group -/

theorem flatten_changeGroups (changes : List Change) :
    (changeGroups changes).flatten = changes := by
  induction changes with
  | nil => rfl
  | cons change rest ih =>
    unfold changeGroups
    split
    next heq => rw [← ih, heq]; rfl
    next others heq => rw [← ih, heq]; rfl
    next next _ others heq =>
      rw [heq] at ih
      split
      · rw [flatten_cons, cons_append, ← flatten_cons, ih]
      · rw [flatten_cons, ih]; rfl

/-- A stretch is not empty, has one group, and is a single change if ungrouped. -/
structure IsStretch (stretch : List Change) : Prop where
  nonempty : stretch ≠ []
  same : ∀ first ∈ stretch, ∀ second ∈ stretch, first.group = second.group
  single : ∀ change ∈ stretch, change.group = [] → stretch.length = 1

theorem isStretch_singleton (change : Change) : IsStretch [change] :=
  ⟨by simp, by simp, by simp⟩

variable {change : Change}

theorem IsStretch.cons {next : Change} {more : List Change} (h : IsStretch (next :: more))
    (hgroup : change.group ≠ []) (hnext : next.group = change.group) :
    IsStretch (change :: next :: more) := by
  have hsame : ∀ other ∈ change :: next :: more, other.group = change.group := by
    intro other hother
    rcases mem_cons.mp hother with rfl | hmem
    · rfl
    · exact (h.same other hmem next mem_cons_self).trans hnext
  refine ⟨by simp, fun first hfirst second hsecond => ?_, fun other hother hnil => ?_⟩
  · rw [hsame first hfirst, hsame second hsecond]
  · exact absurd ((hsame other hother).symm.trans hnil) hgroup

theorem changeGroups_isStretch (changes : List Change) :
    ∀ stretch ∈ changeGroups changes, IsStretch stretch := by
  induction changes with
  | nil => simp [changeGroups]
  | cons change rest ih =>
    intro stretch hstretch
    unfold changeGroups at hstretch
    split at hstretch
    next =>
      rw [mem_singleton.mp hstretch]
      exact isStretch_singleton change
    next others heq =>
      exact absurd rfl (ih [] (heq ▸ mem_cons_self)).nonempty
    next next more others heq =>
      have hhead := ih (next :: more) (heq ▸ mem_cons_self)
      split at hstretch
      next hjoin =>
        rcases mem_cons.mp hstretch with rfl | hother
        · exact hhead.cons hjoin.1 hjoin.2
        · exact ih stretch (heq ▸ mem_cons_of_mem _ hother)
      next =>
        rcases mem_cons.mp hstretch with rfl | hother
        · exact isStretch_singleton change
        · exact ih stretch (heq ▸ hother)

/-- A block of one group, before changes of other groups, is a stretch. -/
theorem changeGroups_block {label : Str} {block rest : List Change} (hlabel : label ≠ [])
    (hne : block ≠ []) (hsame : ∀ change ∈ block, change.group = label)
    (hrest : ∀ change ∈ rest, change.group ≠ label) :
    changeGroups (block ++ rest) = block :: changeGroups rest := by
  induction block with
  | nil => exact absurd rfl hne
  | cons first more ih =>
    obtain ⟨rfl, hmore⟩ := forall_mem_cons.mp hsame
    cases more with
    | nil =>
      rw [singleton_append, changeGroups]
      split
      next heq => rw [heq]
      next others heq =>
        exact absurd rfl (changeGroups_isStretch rest [] (heq ▸ mem_cons_self)).nonempty
      next next more others heq =>
        have hnext : next ∈ rest := by
          rw [← flatten_changeGroups rest, heq]
          simp
        rw [if_neg fun hjoin => hrest next hnext hjoin.2, heq]
    | cons second more =>
      rw [cons_append, changeGroups, ih (by simp) hmore]
      exact if_pos ⟨hlabel, hmore second mem_cons_self⟩

/-- Changes in different stretches share no non-empty group. -/
def Separated (first second : List Change) : Prop :=
  ∀ change ∈ first, ∀ other ∈ second, change.group = other.group → change.group = []

variable {changes : List Change}

theorem changeGroups_separated (hsorted : GroupSorted changes) :
    (changeGroups changes).Pairwise Separated := by
  induction changes with
  | nil => exact List.Pairwise.nil
  | cons change rest ih =>
    obtain ⟨hchange, hrest⟩ := pairwise_cons.mp hsorted
    have hseparated := ih hrest
    have hflat := flatten_changeGroups rest
    unfold changeGroups
    split
    next => exact pairwise_singleton _ _
    next others heq =>
      exact absurd rfl (changeGroups_isStretch rest [] (heq ▸ mem_cons_self)).nonempty
    next next more others heq =>
      rw [heq] at hseparated hflat
      have hstretch := changeGroups_isStretch rest (next :: more) (heq ▸ mem_cons_self)
      obtain ⟨hhead, hothers⟩ := pairwise_cons.mp hseparated
      split
      next hjoin =>
        refine pairwise_cons.mpr ⟨fun stretch hmem member hmember other hother hsame => ?_, hothers⟩
        rcases mem_cons.mp hmember with rfl | hold
        · have := hhead stretch hmem next mem_cons_self other hother (hjoin.2.trans hsame)
          rw [← hjoin.2, this]
        · exact hhead stretch hmem member hold other hother hsame
      next hcut =>
        refine pairwise_cons.mpr ⟨fun stretch hmem member hmember other hother hsame => ?_,
          hseparated⟩
        rw [mem_singleton.mp hmember] at hsame ⊢
        by_contra hgrouped
        -- the next change has another group, which the sorted order keeps below the other one
        have hnext : next.group ≠ change.group := fun h => hcut ⟨hgrouped, h⟩
        rcases mem_cons.mp hmem with rfl | hlater
        · exact hnext ((hstretch.same next mem_cons_self other hother).trans hsame.symm)
        · have hnextMem : next ∈ rest := hflat ▸ by simp
          have hle : next.group ≤ other.group := by
            rw [← hflat, flatten_cons, pairwise_append] at hrest
            exact hrest.2.2 next mem_cons_self other (mem_flatten.mpr ⟨stretch, hlater, hother⟩)
          exact hnext (List.le_antisymm (hsame ▸ hle) (hchange next hnextMem))

/-! ## Selection -/

variable {limit : Nat} {selected : List Change}

theorem takeWholeGroupsFrom_append {taken others : List (List Change)}
    (hfits : selected.length + taken.flatten.length ≤ limit) :
    takeWholeGroupsFrom limit selected (taken ++ others) =
      takeWholeGroupsFrom limit (selected ++ taken.flatten) others := by
  induction taken generalizing selected with
  | nil => simp
  | cons stretch rest ih =>
    rw [flatten_cons, length_append] at hfits
    rw [cons_append, takeWholeGroupsFrom, if_neg (by omega), if_neg (by omega),
      ih (by rw [length_append]; omega), flatten_cons, append_assoc]

/-- Stretches are taken as long as they fit; one larger than the limit is an error. -/
theorem takeWholeGroupsFrom_cases (limit : Nat) (selected : List Change)
    (stretches : List (List Change)) (hstart : selected.length ≤ limit) :
    ∃ taken others, stretches = taken ++ others ∧ selected.length + taken.flatten.length ≤ limit ∧
      ((others = [] ∧ takeWholeGroupsFrom limit selected stretches =
          .ok (selected ++ taken.flatten, 0)) ∨
        ∃ stretch rest, others = stretch :: rest ∧
          limit < selected.length + taken.flatten.length + stretch.length ∧
          ((limit < stretch.length ∧ ∃ large,
              takeWholeGroupsFrom limit selected stretches = .error large) ∨
            (stretch.length ≤ limit ∧ takeWholeGroupsFrom limit selected stretches =
              .ok (selected ++ taken.flatten, others.flatten.length)))) := by
  induction stretches generalizing selected with
  | nil => exact ⟨[], [], rfl, by simpa using hstart, Or.inl ⟨rfl, by simp [takeWholeGroupsFrom]⟩⟩
  | cons stretch rest ih =>
    -- the loop looks at the size of a group before it looks at the room left
    by_cases hlarge : limit < stretch.length
    · refine ⟨[], stretch :: rest, rfl, by simpa using hstart, Or.inr ⟨stretch, rest, rfl, ?_, ?_⟩⟩
      · omega
      · exact Or.inl ⟨hlarge, _, by rw [takeWholeGroupsFrom, if_pos hlarge]⟩
    · by_cases hover : limit < selected.length + stretch.length
      · refine ⟨[], stretch :: rest, rfl, by simpa using hstart,
          Or.inr ⟨stretch, rest, rfl, by simpa using hover, Or.inr ⟨by omega, ?_⟩⟩⟩
        rw [takeWholeGroupsFrom, if_neg (by omega), if_pos hover, flatten_nil, append_nil]
      · obtain ⟨taken, others, hsplit, hfits, hcases⟩ :=
          ih (selected ++ stretch) (by rw [length_append]; omega)
        rw [length_append] at hfits
        refine ⟨stretch :: taken, others, by rw [hsplit]; rfl, ?_, ?_⟩
        · rw [flatten_cons, length_append]
          omega
        · rw [takeWholeGroupsFrom, if_neg (by omega), if_neg (by omega)]
          simpa only [flatten_cons, length_append, append_assoc, Nat.add_assoc] using hcases

variable {changes : List Change}

/-- Where no stretch is too large, the cap keeps the stretches up to the first that does not
fit. -/
theorem capOutputChanges_taken {limit : Nat}
    (h : ∀ stretch ∈ changeGroups changes, stretch.length ≤ limit) :
    ∃ taken others, changeGroups changes = taken ++ others ∧
      capOutputChanges limit changes = .ok taken.flatten ∧ taken.flatten.length ≤ limit ∧
      ∀ stretch rest, others = stretch :: rest → limit < taken.flatten.length + stretch.length := by
  by_cases hlong : limit < changes.length
  · obtain ⟨taken, others, hcut, hfits, hcases⟩ :=
      takeWholeGroupsFrom_cases limit [] (changeGroups changes) (Nat.zero_le _)
    simp only [length_nil, Nat.zero_add, nil_append] at hfits hcases
    rw [show takeWholeGroupsFrom limit [] (changeGroups changes) = takeWholeGroups changes limit
      from rfl] at hcases
    refine ⟨taken, others, hcut, ?_⟩
    rw [capOutputChanges, if_pos hlong]
    rcases hcases with ⟨rfl, hok⟩ | ⟨stretch, rest, rfl, hover, ⟨hlarge, -⟩ | ⟨-, hok⟩⟩
    · exact ⟨by rw [hok]; rfl, hfits, by simp⟩
    · exact absurd (h stretch (by simp [hcut])) (not_le.mpr hlarge)
    · refine ⟨by rw [hok]; rfl, hfits, ?_⟩
      rintro _ _ ⟨⟩
      exact hover
  · refine ⟨changeGroups changes, [], (append_nil _).symm, ?_, ?_, by simp⟩
    · rw [capOutputChanges, if_neg hlong, flatten_changeGroups]
    · rw [flatten_changeGroups]
      exact not_lt.mp hlong

/-- A change is kept iff its group fits after those before it. -/
theorem mem_capped_iff {limit : Nat} {selected : List Change} {front rest : List (List Change)}
    {block : List Change} (hsizes : ∀ stretch ∈ changeGroups changes, stretch.length ≤ limit)
    (hcut : changeGroups changes = front ++ block :: rest) (hmem : change ∈ block)
    (hfront : change ∉ front.flatten) (hok : capOutputChanges limit changes = .ok selected) :
    change ∈ selected ↔ front.flatten.length + block.length ≤ limit := by
  obtain ⟨taken, others, htaken, hselected, hfits, hover⟩ := capOutputChanges_taken hsizes
  obtain rfl := Except.ok.inj (hok.symm.trans hselected)
  rcases append_eq_append_iff.mp (hcut.symm.trans htaken) with ⟨more, rfl, hothers⟩ |
    ⟨more, rfl, hothers⟩
  · cases more with
    | nil =>
      have hlast := hover block rest (by simpa using hothers.symm)
      simp only [append_nil] at *
      exact iff_of_false hfront (not_le.mpr hlast)
    | cons stretch more =>
      obtain ⟨rfl, -⟩ := cons.inj hothers
      refine iff_of_true (by simp [hmem]) ?_
      rw [flatten_append, flatten_cons, length_append, length_append] at hfits
      omega
  · have hbefore : change ∉ taken.flatten := fun h => hfront (by simp [h])
    refine iff_of_false hbefore (not_le.mpr ?_)
    cases more with
    | nil => simpa using hover block rest (by simpa using hothers)
    | cons stretch more =>
      have hnext := hover stretch (more ++ block :: rest) hothers
      rw [flatten_append, flatten_cons, length_append, length_append]
      omega

section

variable (changes : List Change) (group : Str)

/-- How many changes come up to and including a group in the sorted order. -/
def countUpTo : Nat :=
  (changes.filter (fun change => change.group ≤ group)).length

/-- How many changes come before a group in the sorted order. -/
def countBefore : Nat :=
  (changes.filter (fun change => change.group < group)).length

def groupSize : Nat :=
  (changes.filter (fun change => change.group = group)).length

end

section Cut

variable {changes : List Change} {taken others : List (List Change)} {group : Str}

section

variable (hsorted : GroupSorted changes) (hcut : changeGroups changes = taken ++ others)
  {front behind : Change} (hfront : front ∈ taken.flatten) (hbehind : behind ∈ others.flatten)
include hsorted hcut hfront hbehind

theorem le_across_cut : front.group ≤ behind.group := by
  have hflat := flatten_changeGroups changes
  rw [hcut, flatten_append] at hflat
  rw [GroupSorted, ← hflat, pairwise_append] at hsorted
  exact hsorted.2.2 front hfront behind hbehind

theorem ne_across_cut (hgrouped : front.group ≠ []) : front.group ≠ behind.group := by
  have hseparated := changeGroups_separated hsorted
  rw [hcut, pairwise_append] at hseparated
  obtain ⟨first, hfirst, hfrontMem⟩ := mem_flatten.mp hfront
  obtain ⟨second, hsecond, hbehindMem⟩ := mem_flatten.mp hbehind
  intro hsame
  exact hgrouped
    (hseparated.2.2 first hfirst second hsecond front hfrontMem behind hbehindMem hsame)

end

theorem changes_eq_cut (hcut : changeGroups changes = taken ++ others) :
    changes = taken.flatten ++ others.flatten := by
  rw [← flatten_append, ← hcut, flatten_changeGroups]

theorem countUpTo_of_front (hsorted : GroupSorted changes)
    (hcut : changeGroups changes = taken ++ others) (hfront : change ∈ taken.flatten)
    (hgrouped : change.group ≠ []) : countUpTo changes change.group ≤ taken.flatten.length := by
  have hbehind : others.flatten.filter (fun other => other.group ≤ change.group) = [] := by
    refine filter_eq_nil_iff.mpr fun behind hmem => ?_
    rw [decide_eq_true_eq]
    intro hle
    exact ne_across_cut hsorted hcut hfront hmem hgrouped
      (List.le_antisymm (le_across_cut hsorted hcut hfront hmem) hle)
  rw [countUpTo, changes_eq_cut hcut, filter_append, hbehind, append_nil]
  exact length_filter_le _ _

variable (hsorted : GroupSorted changes) {stretch : List Change} {rest : List (List Change)}
  (hcut : changeGroups changes = taken ++ stretch :: rest) {change : Change}
include hsorted hcut

/-- A group behind the cut comes after everything in front and after, or in, the
first stretch behind. -/
theorem countUpTo_of_behind (hbehind : change ∈ (stretch :: rest).flatten) :
    taken.flatten.length + stretch.length ≤ countUpTo changes change.group := by
  have hstretch := changeGroups_isStretch changes stretch (by rw [hcut]; simp)
  have hnext : changeGroups changes = (taken ++ [stretch]) ++ rest := by rw [hcut]; simp
  have hfront : taken.flatten.filter (fun other => other.group ≤ change.group) = taken.flatten :=
    filter_eq_self.mpr fun front hmem => by
      simpa using le_across_cut hsorted hcut hmem hbehind
  have hfirst : stretch.filter (fun other => other.group ≤ change.group) = stretch := by
    refine filter_eq_self.mpr fun first hmem => ?_
    rw [decide_eq_true_eq]
    rw [flatten_cons, mem_append] at hbehind
    rcases hbehind with hhere | hlater
    · rw [hstretch.same first hmem change hhere]
      exact List.le_refl _
    · exact le_across_cut hsorted hnext (by simp [hmem]) hlater
  rw [countUpTo, changes_eq_cut hcut, flatten_cons, filter_append, filter_append,
    hfront, hfirst, length_append, length_append]
  omega

/-- The stretch of a group is the whole group, with its predecessors in front. -/
theorem group_of_stretch (hchange : change ∈ stretch) (hgrouped : change.group ≠ []) :
    countBefore changes change.group = taken.flatten.length ∧
      groupSize changes change.group = stretch.length := by
  have hstretch := changeGroups_isStretch changes stretch (by rw [hcut]; simp)
  have hsame : ∀ other ∈ stretch, other.group = change.group :=
    fun other hother => hstretch.same other hother change hchange
  have hnext : changeGroups changes = (taken ++ [stretch]) ++ rest := by rw [hcut]; simp
  have hmem : change ∈ (stretch :: rest).flatten := by simp [hchange]
  have hbefore : ∀ front ∈ taken.flatten, front.group < change.group := by
    intro front hfront
    have hne : front.group ≠ change.group := by
      intro heq
      exact ne_across_cut hsorted hcut hfront hmem (heq ▸ hgrouped) heq
    exact (List.le_iff_lt_or_eq.mp (le_across_cut hsorted hcut hfront hmem)).resolve_right hne
  have hafter : ∀ behind ∈ rest.flatten, change.group < behind.group := by
    intro behind hbehind
    have hfront : change ∈ (taken ++ [stretch]).flatten := by simp [hchange]
    exact (List.le_iff_lt_or_eq.mp (le_across_cut hsorted hnext hfront hbehind)).resolve_right
      (ne_across_cut hsorted hnext hfront hbehind hgrouped)
  have hchanges := changes_eq_cut hcut
  rw [flatten_cons] at hchanges
  constructor
  · rw [countBefore, hchanges, filter_append, filter_append,
      filter_eq_self.mpr fun front hfront => by simpa using hbefore front hfront,
      filter_eq_nil_iff.mpr fun other hother => by
        simp [hsame other hother],
      filter_eq_nil_iff.mpr fun behind hbehind => by
        simpa using List.le_of_lt (hafter behind hbehind)]
    simp
  · rw [groupSize, hchanges, filter_append, filter_append,
      filter_eq_nil_iff.mpr fun front hfront => by
        simpa using fun heq => List.lt_irrefl _ (heq ▸ hbefore front hfront),
      filter_eq_self.mpr fun other hother => by simpa using hsame other hother,
      filter_eq_nil_iff.mpr fun behind hbehind => by
        simpa using fun heq => List.lt_irrefl _ (heq ▸ hafter behind hbehind)]
    simp

end Cut

/-- Some group is too large to be committed and comes up before the limit is
used up. -/
def Oversized (changes : List Change) (limit : Nat) : Prop :=
  ∃ group, group ≠ [] ∧ limit < groupSize changes group ∧ countBefore changes group ≤ limit

section

variable {changes : List Change}

theorem exists_stretch_of_mem (h : change ∈ changes) :
    ∃ taken stretch rest, changeGroups changes = taken ++ stretch :: rest ∧ change ∈ stretch := by
  rw [← flatten_changeGroups changes, mem_flatten] at h
  obtain ⟨stretch, hstretch, hchange⟩ := h
  obtain ⟨taken, rest, hcut⟩ := append_of_mem hstretch
  exact ⟨taken, stretch, rest, hcut, hchange⟩

theorem takeWholeGroups_error_iff (hsorted : GroupSorted changes) (hlimit : 1 ≤ limit) :
    (∃ large, takeWholeGroups changes limit = .error large) ↔ Oversized changes limit := by
  constructor
  · rintro ⟨large, hlarge⟩
    obtain ⟨taken, _, hcut, hfits, hcases⟩ :=
      takeWholeGroupsFrom_cases limit [] (changeGroups changes) (Nat.zero_le _)
    rcases hcases with ⟨-, hok⟩ | ⟨stretch, rest, rfl, -, ⟨hsize, -⟩ | ⟨-, hok⟩⟩
    · exact absurd (hok.symm.trans hlarge) (by simp)
    · have hstretch := changeGroups_isStretch changes stretch (by rw [hcut]; simp)
      obtain ⟨change, hchange⟩ := exists_mem_of_ne_nil _ hstretch.nonempty
      -- an ungrouped stretch has one change and always fits
      have hgrouped : change.group ≠ [] := by
        intro hnil
        have := hstretch.single change hchange hnil
        omega
      obtain ⟨hbefore, hgroup⟩ := group_of_stretch hsorted hcut hchange hgrouped
      refine ⟨change.group, hgrouped, by rw [hgroup]; exact hsize, ?_⟩
      rw [hbefore]
      simpa using hfits
    · exact absurd (hok.symm.trans hlarge) (by simp)
  · rintro ⟨group, hgrouped, hsize, hbefore⟩
    obtain ⟨change, hchange⟩ := exists_mem_of_ne_nil
      (changes.filter (fun change => change.group = group)) (by
        intro hnil
        rw [groupSize, hnil] at hsize
        exact absurd hsize (by simp))
    obtain ⟨hmem, hgroup⟩ := mem_filter.mp hchange
    obtain rfl : change.group = group := by simpa using hgroup
    obtain ⟨taken, stretch, rest, hcut, hin⟩ := exists_stretch_of_mem hmem
    obtain ⟨hfront, _⟩ := group_of_stretch hsorted hcut hin hgrouped
    rw [takeWholeGroups, hcut, takeWholeGroupsFrom_append (by
      rw [length_nil, Nat.zero_add, ← hfront]; exact hbefore)]
    exact ⟨_, by rw [takeWholeGroupsFrom, if_pos (by omega)]⟩

variable {deferred : Nat} (hok : takeWholeGroups changes limit = .ok (selected, deferred))
include hok

/-- The cap cuts between groups, at the first that does not fit. -/
theorem takeWholeGroups_cut :
    ∃ taken others, changeGroups changes = taken ++ others ∧ selected = taken.flatten ∧
      selected.length ≤ limit ∧ (others = [] ∨ ∃ stretch rest, others = stretch :: rest ∧
        limit < selected.length + stretch.length ∧ stretch.length ≤ limit) := by
  obtain ⟨taken, others, hcut, hfits, hcases⟩ :=
    takeWholeGroupsFrom_cases limit [] (changeGroups changes) (Nat.zero_le _)
  rw [length_nil, Nat.zero_add] at hfits hcases
  rcases hcases with ⟨hnil, hall⟩ | ⟨stretch, rest, hcons, hover, ⟨-, _, herror⟩ | ⟨hsize, hsome⟩⟩
  · obtain rfl := congrArg Prod.fst (Except.ok.inj (hall.symm.trans hok))
    exact ⟨taken, others, hcut, rfl, hfits, Or.inl hnil⟩
  · exact absurd (herror.symm.trans hok) (by simp)
  · obtain rfl := congrArg Prod.fst (Except.ok.inj (hsome.symm.trans hok))
    exact ⟨taken, others, hcut, rfl, hfits, Or.inr ⟨stretch, rest, hcons, hover, hsize⟩⟩

/-- A front part is selected, and something if there is anything. -/
theorem takeWholeGroups_front :
    selected <+: changes ∧ selected.length ≤ limit ∧ (changes ≠ [] → selected ≠ []) := by
  obtain ⟨taken, others, hcut, rfl, hfits, hrest⟩ := takeWholeGroups_cut hok
  have hchanges := changes_eq_cut hcut
  refine ⟨by rw [hchanges]; exact prefix_append _ _, hfits, fun hne hnil => ?_⟩
  rcases hrest with rfl | ⟨stretch, _, rfl, hover, _⟩
  · rw [hnil] at hchanges
    exact hne hchanges
  · rw [hnil, length_nil] at hover
    omega

/-- A grouped change is selected exactly when its group, with all that precedes
it, fits the limit. -/
theorem takeWholeGroups_ok (hsorted : GroupSorted changes) (hchange : change ∈ changes)
    (hgrouped : change.group ≠ []) :
    change ∈ selected ↔ countUpTo changes change.group ≤ limit := by
  obtain ⟨taken, others, hcut, rfl, hfits, hrest⟩ := takeWholeGroups_cut hok
  constructor
  · intro hfront
    exact (countUpTo_of_front hsorted hcut hfront hgrouped).trans hfits
  · intro _
    rw [changes_eq_cut hcut, mem_append] at hchange
    refine hchange.resolve_right fun hbehind => ?_
    rcases hrest with rfl | ⟨_, _, rfl, hover, -⟩
    · simp at hbehind
    · have := countUpTo_of_behind hsorted hcut hbehind
      omega

end

/-! ## Validation -/

theorem countUpTo_perm {others : List Change} (h : changes.Perm others) (group : Str) :
    countUpTo changes group = countUpTo others group :=
  (h.filter _).length_eq

theorem oversized_perm {others : List Change} (h : changes.Perm others) (limit : Nat) :
    Oversized changes limit ↔ Oversized others limit := by
  have hsize : ∀ group, groupSize changes group = groupSize others group :=
    fun group => (h.filter _).length_eq
  have hbefore : ∀ group, countBefore changes group = countBefore others group :=
    fun group => (h.filter _).length_eq
  simp only [Oversized, hsize, hbefore]

theorem not_oversized_of_length (h : changes.length ≤ limit) :
    ¬ Oversized changes limit := by
  rintro ⟨group, -, _, -⟩
  have : groupSize changes group ≤ changes.length := length_filter_le _ _
  omega

/-- Validation fails on duplicates and oversized groups only. -/
theorem validateAndCapChanges_error_iff (controllerName : Str) (changes : List Change) :
    (∃ error, validateAndCapChanges controllerName changes = .error error) ↔
      findDuplicateChangeKey (sortChangesByGroupAndKey changes) ≠ [] ∨
        Oversized changes maxTransactionChanges := by
  have hsorted := groupSorted_sort changes
  rw [← oversized_perm (sort_perm changes)]
  unfold validateAndCapChanges
  dsimp only
  split
  next hduplicate => exact iff_of_true ⟨_, rfl⟩ (Or.inl hduplicate)
  next hunique =>
    rw [or_iff_right hunique]
    split
    next =>
      rw [← takeWholeGroups_error_iff hsorted (by decide)]
      cases takeWholeGroups (sortChangesByGroupAndKey changes) maxTransactionChanges <;> simp
    next hshort =>
      exact iff_of_false (by simp) (not_oversized_of_length (Nat.le_of_not_lt hshort))

variable {controllerName : Str}

/-- What validation returns: a prefix, in whole groups. -/
theorem validateAndCapChanges_ok {controllerName : Str}
    (hok : validateAndCapChanges controllerName changes = .ok selected) :
    (selected <+: sortChangesByGroupAndKey changes ∧ selected.length ≤ maxTransactionChanges ∧
        (changes ≠ [] → selected ≠ [])) ∧
      findDuplicateChangeKey (sortChangesByGroupAndKey changes) = [] ∧
      ∀ change ∈ changes, change.group ≠ [] →
        (change ∈ selected ↔ countUpTo changes change.group ≤ maxTransactionChanges) := by
  have hperm := sort_perm changes
  have hnonempty : changes ≠ [] → sortChangesByGroupAndKey changes ≠ [] :=
    fun hne hnil => hne (hnil ▸ hperm).nil_eq.symm
  unfold validateAndCapChanges at hok
  dsimp only at hok
  split at hok
  next => exact absurd hok (by simp)
  next hunique =>
    split at hok
    next =>
      split at hok
      next => exact absurd hok (by simp)
      next _ _ htaken =>
        obtain rfl := Except.ok.inj hok
        obtain ⟨hfront, hlength, hsome⟩ := takeWholeGroups_front htaken
        refine ⟨⟨hfront, hlength, fun hne => hsome (hnonempty hne)⟩, not_not.mp hunique, ?_⟩
        intro change hchange hgrouped
        rw [← countUpTo_perm hperm]
        exact takeWholeGroups_ok htaken (groupSorted_sort changes) (hperm.mem_iff.mpr hchange)
          hgrouped
    next hshort =>
      obtain rfl := Except.ok.inj hok
      refine ⟨⟨prefix_rfl, Nat.le_of_not_lt hshort, hnonempty⟩, not_not.mp hunique,
        fun change hchange _ => ?_⟩
      refine iff_of_true (hperm.mem_iff.mpr hchange) ?_
      rw [← countUpTo_perm hperm]
      exact (length_filter_le _ _).trans (Nat.le_of_not_lt hshort)

theorem subset_of_validateAndCapChanges
    (hok : validateAndCapChanges controllerName changes = .ok selected) : selected ⊆ changes :=
  fun _ hchange =>
    (sort_perm changes).mem_iff.mp ((validateAndCapChanges_ok hok).1.1.subset hchange)

/-! ## Changes without groups -/

section Ungrouped

variable {changes : List Change} (hungrouped : ∀ change ∈ changes, change.group = [])

include hungrouped

theorem changeGroups_of_ungrouped :
    changeGroups changes = changes.map (fun change => [change]) := by
  induction changes with
  | nil => rfl
  | cons change rest ih =>
    have hgroup : change.group = [] := hungrouped change mem_cons_self
    rw [changeGroups, ih fun other hother => hungrouped other (mem_cons_of_mem _ hother)]
    cases rest with
    | nil => rfl
    | cons next =>
      simp [hgroup]

theorem takeWholeGroups_of_ungrouped (hlimit : 0 < limit) :
    ∃ deferred, takeWholeGroups changes limit = .ok (changes.take limit, deferred) := by
  have hflatten : ∀ others : List Change, (others.map (fun change => [change])).flatten = others :=
    fun others => by simp [← flatMap_def]
  have hsplit : changeGroups changes = (changes.take limit).map (fun change => [change]) ++
      (changes.drop limit).map (fun change => [change]) := by
    rw [changeGroups_of_ungrouped hungrouped, ← map_append, take_append_drop]
  rw [takeWholeGroups, hsplit, takeWholeGroupsFrom_append (by
    rw [hflatten, length_nil, Nat.zero_add]
    exact length_take_le _ _), hflatten, nil_append]
  cases hrest : changes.drop limit with
  | nil => exact ⟨0, rfl⟩
  | cons change more =>
    have hfull : (changes.take limit).length = limit := by
      have hlength := congrArg List.length hrest
      rw [length_drop, length_cons] at hlength
      rw [length_take]
      omega
    refine ⟨([change] :: more.map (fun other => [other])).flatten.length, ?_⟩
    rw [map_cons, takeWholeGroupsFrom, if_neg (by simp only [length_singleton]; omega),
      if_pos (by rw [length_singleton]; omega)]

omit hungrouped in
theorem findDuplicateChangeKeyFrom_of_nodup {seenKeys : List Str}
    (hnodup : (changes.map Change.key).Nodup) (hseen : ∀ change ∈ changes, change.key ∉ seenKeys) :
    findDuplicateChangeKeyFrom seenKeys changes = [] := by
  induction changes generalizing seenKeys with
  | nil => rfl
  | cons change rest ih =>
    obtain ⟨hfresh, hrest⟩ := nodup_cons.mp hnodup
    rw [findDuplicateChangeKeyFrom, if_neg (hseen change mem_cons_self)]
    apply ih hrest
    intro other hother hmem
    rcases mem_cons.mp hmem with heq | hmem
    · exact hfresh (heq ▸ mem_map_of_mem hother)
    · exact hseen other (mem_cons_of_mem _ hother) hmem

theorem sort_pairwise_of_ungrouped (hnodup : (changes.map Change.key).Nodup) :
    (sortChangesByGroupAndKey changes).Pairwise (fun first second => first.key < second.key) := by
  have hkeys : (sortChangesByGroupAndKey changes).Pairwise
      (fun first second => first.key ≠ second.key) :=
    pairwise_map.mp (((sort_perm changes).map Change.key).nodup_iff.mpr hnodup)
  have hsorted := sliceStable_sorted changeLess_total changeLess_trans changes
  refine List.Pairwise.imp_of_mem ?_ (hsorted.and hkeys)
  intro first second hfirst hsecond hboth
  have hgroups : first.group = second.group := by
    rw [hungrouped _ ((sort_perm changes).mem_iff.mp hfirst),
      hungrouped _ ((sort_perm changes).mem_iff.mp hsecond)]
  rcases changeLess_eq_false_iff.mp hboth.1 with hlt | ⟨-, hlt | ⟨heq, -⟩⟩
  · rw [hgroups] at hlt
    exact absurd hlt (List.lt_irrefl _)
  · exact hlt
  · exact absurd heq hboth.2

theorem validateAndCapChanges_of_ungrouped (controllerName : Str)
    (hnodup : (changes.map Change.key).Nodup) :
    validateAndCapChanges controllerName changes =
      .ok ((sortChangesByGroupAndKey changes).take maxTransactionChanges) := by
  have hperm := sort_perm changes
  have hduplicate : findDuplicateChangeKey (sortChangesByGroupAndKey changes) = [] :=
    findDuplicateChangeKeyFrom_of_nodup ((hperm.map Change.key).nodup_iff.mpr hnodup) (by simp)
  have hsorted : ∀ change ∈ sortChangesByGroupAndKey changes, change.group = [] :=
    fun change hchange => hungrouped change (hperm.mem_iff.mp hchange)
  obtain ⟨_, htaken⟩ := takeWholeGroups_of_ungrouped hsorted
    (show 0 < maxTransactionChanges by decide)
  unfold validateAndCapChanges
  simp only [hduplicate, ne_eq, not_true_eq_false, if_false, htaken]
  split
  next => rfl
  next hshort => rw [take_of_length_le (Nat.le_of_not_lt hshort)]

end Ungrouped

/-! ## Groups in a transaction -/

/-- Whether the runner lets a controller write a change. -/
def inWriteDomain (controllerName : Str) (change : Change) : Bool :=
  match controllerOutputPrefixes controllerName with
  | none => true
  | some allowedPrefixes => isKeyWithinWriteDomain change.key allowedPrefixes

theorem enforceWriteDomain_eq (controllerName : Str) (changes : List Change) :
    enforceWriteDomain controllerName changes = changes.filter (inWriteDomain controllerName) := by
  unfold enforceWriteDomain inWriteDomain
  cases controllerOutputPrefixes controllerName with
  | none => simp
  | some allowed => rfl

/-- The submitted changes contain all or none of every group. -/
def GroupsWhole (changes submitted : List Change) : Prop :=
  ∀ group, group ≠ [] → (∀ change ∈ changes, change.group = group → change ∈ submitted) ∨
      (∀ change ∈ changes, change.group = group → change ∉ submitted)

/-- A group with changes inside and outside the write domain. -/
def Straddles (controllerName : Str) (changes : List Change) (group : Str) : Prop :=
  (∃ change ∈ changes, change.group = group ∧ inWriteDomain controllerName change = true) ∧
    ∃ change ∈ changes, change.group = group ∧ inWriteDomain controllerName change = false

/-- Validation rejects the changes, or defers what is left of every straddling group. -/
def StraddlersDeferred (controllerName : Str) (changes : List Change) : Prop :=
  let allowed := enforceWriteDomain controllerName changes
  findDuplicateChangeKey (sortChangesByGroupAndKey allowed) ≠ [] ∨
    Oversized allowed maxTransactionChanges ∨
    ∀ group, group ≠ [] → Straddles controllerName changes group →
      maxTransactionChanges < countUpTo allowed group

theorem groupsWhole_nil (changes : List Change) : GroupsWhole changes [] :=
  fun _ _ => Or.inr (by simp)

/-- Validated changes keep groups whole exactly when what remains of every
straddling group is deferred. -/
theorem groupsWhole_iff_of_ok {controllerName : Str}
    (hok : validateAndCapChanges controllerName (enforceWriteDomain controllerName changes) =
      .ok selected) :
    GroupsWhole changes selected ↔ ∀ group, group ≠ [] → Straddles controllerName changes group →
        maxTransactionChanges < countUpTo (enforceWriteDomain controllerName changes) group := by
  have hsubset := subset_of_validateAndCapChanges hok
  obtain ⟨-, -, hselected⟩ := validateAndCapChanges_ok hok
  have hallowed : ∀ change, change ∈ enforceWriteDomain controllerName changes ↔
      change ∈ changes ∧ inWriteDomain controllerName change = true := by
    intro change
    rw [enforceWriteDomain_eq, mem_filter]
  constructor
  -- a straddling group that fits is submitted without its part outside the domain
  · rintro hwhole group hgrouped ⟨⟨inside, hinside, rfl, hin⟩, outside, houtside, hgroup, hout⟩
    by_contra hfits
    have hmem := (hselected inside ((hallowed inside).mpr ⟨hinside, hin⟩) hgrouped).mpr
      (Nat.le_of_not_lt hfits)
    rcases hwhole _ hgrouped with hall | hnone
    · have := ((hallowed outside).mp (hsubset (hall outside houtside hgroup))).2
      exact absurd (this.symm.trans hout) (by simp)
    · exact hnone inside hinside rfl hmem
  · intro hdeferred group hgrouped
    by_cases hfits : countUpTo (enforceWriteDomain controllerName changes) group ≤
        maxTransactionChanges
    · by_cases hinside : ∃ change ∈ changes, change.group = group ∧
          inWriteDomain controllerName change = true
      · refine Or.inl fun change hchange hgroup => ?_
        have hin : inWriteDomain controllerName change = true := by
          by_contra hout
          have := hdeferred group hgrouped ⟨hinside, change, hchange, hgroup, by simpa using hout⟩
          omega
        refine (hselected change ((hallowed change).mpr ⟨hchange, hin⟩) (hgroup ▸ hgrouped)).mpr ?_
        rw [hgroup]
        exact hfits
      · refine Or.inr fun change hchange hgroup hmem => hinside ⟨change, hchange, hgroup, ?_⟩
        exact ((hallowed change).mp (hsubset hmem)).2
    · refine Or.inr fun change hchange hgroup hmem => hfits ?_
      have := (hselected change (hsubset hmem) (hgroup ▸ hgrouped)).mp hmem
      rw [← hgroup]
      exact this

/-- The changes that an attempt submits are the validated allowed changes. -/
def submittedChanges (controllerName : Str) (changes : List Change) : List Change :=
  match validateAndCapChanges controllerName (enforceWriteDomain controllerName changes) with
  | .error _ => []
  | .ok selected => selected

/-- A commit submits the changes it is given. -/
theorem commitChanges_submitted {State : Type} (runner : Runner) (controller : Controller State)
    (state : State) (store : MemoryStore) (allFacts : List Fact) (changes : List Change)
    (beforeCommit : List Operation) :
    (runner.commitChanges controller state store allFacts changes beforeCommit).submitted =
      changes := by
  unfold Runner.commitChanges
  dsimp only
  split <;> rfl

theorem attempt_submitted {State : Type} {runner : Runner} {controller : Controller State}
    {state next : State} {store : MemoryStore} {deltaEvents : List Event}
    {interference : Interference} {facts : List Fact}
    (hscan : (scanFactsForController store controller.watch interference.beforeScan).2 = .ok facts)
    (hcomputed : computeReconciliationChanges controller state
      (interference.sortFacts.sort facts) deltaEvents = (.ok changes, next)) :
    (runner.attemptSingleReconciliation controller state store deltaEvents
      interference).submitted = submittedChanges controller.name changes := by
  simp only [Runner.attemptSingleReconciliation, hscan, hcomputed]
  have hnone : ∀ name, validateAndCapChanges name [] = .ok [] := fun name => by
    simp [validateAndCapChanges, sortChangesByGroupAndKey, sliceStable, findDuplicateChangeKey,
      findDuplicateChangeKeyFrom]
  cases changes with
  | nil =>
    have hallowed : enforceWriteDomain controller.name [] = [] := by
      rw [enforceWriteDomain_eq]
      rfl
    simp [Runner.finishAttempt, submittedChanges, hallowed, hnone]
  | cons first rest =>
    dsimp only
    cases hallowed : enforceWriteDomain controller.name (first :: rest) with
    | nil => simp [submittedChanges, hallowed, hnone]
    | cons allowed others =>
      dsimp only
      rw [submittedChanges, hallowed]
      cases validateAndCapChanges controller.name (allowed :: others) with
      | error error => rfl
      | ok selected => exact commitChanges_submitted _ _ _ _ _ _ _

/-- All or none of each group is submitted exactly when validation rejects the changes or
defers what is left of every straddling group. -/
theorem groups_whole_iff {State : Type} (runner : Runner) (controller : Controller State)
    (state next : State) (store : MemoryStore) (deltaEvents : List Event)
    (interference : Interference) (facts : List Fact) (changes : List Change)
    (hscan : (scanFactsForController store controller.watch interference.beforeScan).2 = .ok facts)
    (hcomputed : computeReconciliationChanges controller state
      (interference.sortFacts.sort facts) deltaEvents = (.ok changes, next)) :
    GroupsWhole changes (runner.attemptSingleReconciliation controller state store deltaEvents
        interference).submitted ↔
      StraddlersDeferred controller.name changes := by
  rw [attempt_submitted hscan hcomputed, submittedChanges]
  have herror := validateAndCapChanges_error_iff controller.name
    (enforceWriteDomain controller.name changes)
  cases hvalid : validateAndCapChanges controller.name
      (enforceWriteDomain controller.name changes) with
  | error error =>
    refine iff_of_true (groupsWhole_nil changes) ?_
    rcases herror.mp ⟨error, hvalid⟩ with hduplicate | hlarge
    · exact Or.inl hduplicate
    · exact Or.inr (Or.inl hlarge)
  | ok selected =>
    have hno := mt herror.mpr (by simp [hvalid])
    rw [not_or] at hno
    rw [groupsWhole_iff_of_ok hvalid]
    simp only [StraddlersDeferred, hno.1, hno.2, false_or]

/-- A controller that always proposes the given changes. -/
def proposing (name : Str) (changes : List Change) : Controller Unit where
  name := name
  watch := []
  reconcile := fun _ _ => (.ok changes, ())
  reconcileDelta := none
  executePostCommitOperations := none

/-- A new instance and its placement, as one atomic operation. -/
def createAndPlace : List Change :=
  groupedChanges (lit "create/i")
    [Change.put (lit "observed/instance/i") [], Change.put (lit "placement/instance/i") (lit "n")]

/-- The write domain of the instance controller cuts the group in two. -/
theorem createAndPlace_split :
    let attempt := Runner.new.attemptSingleReconciliation
      (proposing (lit "instance") createAndPlace) () MemoryStore.new [] Interference.none
    attempt.committed = true ∧ attempt.submitted.map Change.key = [lit "observed/instance/i"] ∧
      ¬ GroupsWhole createAndPlace attempt.submitted := by
  refine ⟨by decide, by decide, fun hwhole => ?_⟩
  rcases hwhole (lit "create/i") (by decide) with hall | hnone
  · exact absurd hall (by decide)
  · exact absurd hnone (by decide)

/-- Proposed by a controller without a declared write domain, it stays whole. -/
theorem createAndPlace_whole : GroupsWhole createAndPlace (Runner.new.attemptSingleReconciliation
      (proposing (lit "batch") createAndPlace) () MemoryStore.new []
      Interference.none).submitted := by
  refine (groups_whole_iff Runner.new (proposing (lit "batch") createAndPlace) () ()
    MemoryStore.new [] Interference.none [] createAndPlace (by decide) (by decide)).mpr ?_
  have hundeclared : controllerOutputPrefixes (lit "batch") = none := by decide
  refine Or.inr (Or.inr ?_)
  rintro group - ⟨-, change, -, -, hout⟩
  simp [inWriteDomain, proposing, hundeclared] at hout

end CCattler.Controllers
