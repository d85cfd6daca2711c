import CCattler.Security.Capability

/-! # The laws of conditions

`!=` and `not_in` are the opposites of `==` and `in`. A reference to the groups on the
right-hand side is read as the first group alone, so the laws of membership need groups
that do not differ.
-/

namespace CCattler.Security

open Go List

/-- What conditions should mean for a principal and a resource. -/
structure ConditionLaws (principal : Principal) (resource : Option ResourceContext)
    (conditions : List Condition) : Prop where
  groupOrder : ∀ groups, groups.Perm principal.groups →
    evaluateConditions conditions { principal with groups := groups } resource =
      evaluateConditions conditions principal resource
  opposite : ∀ condition ∈ conditions, (resolveField condition.field principal resource).isSome →
    (resolveRightValue condition.value principal resource).isSome →
    ∀ operators ∈ [(lit "==", lit "!="), (lit "in", lit "not_in")],
      evaluateSingleCondition { condition with operator := operators.2 } principal resource =
        !evaluateSingleCondition { condition with operator := operators.1 } principal resource
  member : ∀ condition ∈ conditions, condition.operator = lit "in" →
    condition.value = lit "subject.groups" →
    (evaluateSingleCondition condition principal resource = true ↔
      ∃ values, resolveField condition.field principal resource = some values ∧
        ∃ value ∈ values, value ∈ principal.groups)

/-- All groups are the same, and as a list it has itself as its only entry. -/
def PlainGroups (groups : List Str) : Prop :=
  ∀ group ∈ groups, (∀ other ∈ groups, other = group) ∧
    ∀ value, isValueInCommaSeparatedList value group = true ↔ value = group

variable {principal : Principal} {resource : Option ResourceContext}

/-- One value on the left is compared in the same way as several. -/
theorem evaluateSingleCondition_of_resolved {field value operator rightValue : Str}
    {leftValues : List Str} (hleft : resolveField field principal resource = some leftValues)
    (hright : resolveRightValue value principal resource = some rightValue)
    (hne : leftValues ≠ []) :
    evaluateSingleCondition ⟨field, operator, value⟩ principal resource =
      evaluateMultiValueCondition operator leftValues rightValue := by
  simp only [evaluateSingleCondition, hleft, hright]
  split
  next => rfl
  next hone =>
    obtain ⟨leftValue, rfl⟩ : ∃ leftValue, leftValues = [leftValue] := by
      rw [← length_eq_one_iff]
      have := length_pos_iff.mpr hne
      omega
    unfold evaluateMultiValueCondition compareValue
    split_ifs <;> simp_all

theorem resolveField_ne_nil {field : Str} {values : List Str}
    (h : resolveField field principal resource = some values) : values ≠ [] := by
  rintro rfl
  simp only [resolveField, resolveSubjectField, resolveResourceField, presentField] at h
  split at h
  · cases h
  · cases resource <;> split_ifs at h <;> simp_all

/-- The operators come in opposite pairs. -/
theorem evaluateMultiValueCondition_opposite {leftValues : List Str} {rightValue : Str} :
    ∀ operators ∈ [(lit "==", lit "!="), (lit "in", lit "not_in")],
      evaluateMultiValueCondition operators.2 leftValues rightValue =
        !evaluateMultiValueCondition operators.1 leftValues rightValue := by
  simp only [mem_cons, not_mem_nil, or_false]
  rintro _ (rfl | rfl)
  all_goals
    rw [evaluateMultiValueCondition, if_neg (by decide), evaluateMultiValueCondition,
      if_pos (by decide), not_any_eq_all_not, decide_eq_true (by decide), Bool.and_true]
  · exact congrArg _ (funext fun _ => decide_not)
  · rfl

/-! ## The order of groups -/

section Order

variable {groups : List Str} {field : Str}

theorem resolveField_of_ne (h : field ≠ lit "subject.groups") :
    resolveField field { principal with groups := groups } resource =
      resolveField field principal resource := by
  unfold resolveField
  split
  next => rfl
  next objectName attributeName hcut =>
    split
    next hsubject =>
      have hgroups : attributeName ≠ lit "groups" := by
        rintro rfl
        exact h ((Str.cut_eq_some hcut).trans (by rw [hsubject]; rfl))
      simp only [resolveSubjectField, if_neg hgroups]
    next => rfl

theorem resolveRightValue_of_ne {value : Str} (h : value ≠ lit "subject.groups") :
    resolveRightValue value { principal with groups := groups } resource =
      resolveRightValue value principal resource := by
  unfold resolveRightValue
  rw [resolveField_of_ne h]

variable (hperm : groups.Perm principal.groups)
include hperm

theorem resolveField_perm : Option.Rel List.Perm
    (resolveField field { principal with groups := groups } resource)
    (resolveField field principal resource) := by
  by_cases hfield : field = lit "subject.groups"
  · subst hfield
    change Option.Rel List.Perm (if groups = [] then none else some groups)
      (if principal.groups = [] then none else some principal.groups)
    simp only [← List.length_eq_zero_iff, hperm.length_eq]
    split
    · exact Option.Rel.none
    · exact Option.Rel.some hperm
  · rw [resolveField_of_ne hfield]
    cases resolveField field principal resource with
    | none => exact Option.Rel.none
    | some values => exact Option.Rel.some (.refl values)

/-- A condition that does not compare with the groups does not see their order. -/
theorem evaluateSingleCondition_perm {condition : Condition}
    (h : condition.value ≠ lit "subject.groups") :
    evaluateSingleCondition condition { principal with groups := groups } resource =
      evaluateSingleCondition condition principal resource := by
  obtain ⟨field, operator, value⟩ := condition
  have hright : resolveRightValue value { principal with groups := groups } resource =
      resolveRightValue value principal resource := resolveRightValue_of_ne h
  have hleft : Option.Rel List.Perm
      (resolveField field { principal with groups := groups } resource)
      (resolveField field principal resource) := resolveField_perm hperm
  generalize hfirst : resolveField field { principal with groups := groups } resource = first
    at hleft
  generalize hsecond : resolveField field principal resource = second at hleft
  cases hleft with
  | none => simp only [evaluateSingleCondition, hfirst, hsecond]
  | some hvalues =>
    cases hvalue : resolveRightValue value principal resource with
    | none => simp only [evaluateSingleCondition, hfirst, hsecond, hright, hvalue]
    | some rightValue =>
      rw [evaluateSingleCondition_of_resolved hfirst (hright.trans hvalue)
          (resolveField_ne_nil hfirst),
        evaluateSingleCondition_of_resolved hsecond hvalue (resolveField_ne_nil hsecond)]
      unfold evaluateMultiValueCondition
      rw [hvalues.any_eq, hvalues.all_eq]

end Order

/-! ## Plain groups -/

theorem PlainGroups.eq_of_perm {groups others : List Str} (hplain : PlainGroups groups)
    (hperm : others.Perm groups) : others = groups := by
  cases groups with
  | nil => exact perm_nil.mp hperm
  | cons group rest =>
    have hall : group :: rest = replicate (rest.length + 1) group :=
      eq_replicate_of_mem (hplain group mem_cons_self).1
    rw [hall]
    exact perm_replicate.mp (hall ▸ hperm)

theorem PlainGroups.member (hplain : PlainGroups principal.groups) (field : Str) :
    evaluateSingleCondition ⟨field, lit "in", lit "subject.groups"⟩ principal resource = true ↔
      ∃ values, resolveField field principal resource = some values ∧
        ∃ value ∈ values, value ∈ principal.groups := by
  cases hleft : resolveField field principal resource with
  | none => simp [evaluateSingleCondition, hleft]
  | some values =>
    have hright : resolveRightValue (lit "subject.groups") principal resource =
        principal.groups.head? := by
      change Option.map _ (if principal.groups = [] then none else some principal.groups) = _
      cases principal.groups <;> rfl
    cases hgroups : principal.groups with
    | nil => simp [evaluateSingleCondition, hright, hgroups]
    | cons group rest =>
      rw [evaluateSingleCondition_of_resolved hleft (by rw [hright, hgroups]; rfl)
        (resolveField_ne_nil hleft), evaluateMultiValueCondition, if_pos (Or.inr rfl)]
      have hmem : ∀ value, compareValue (lit "in") value group = true ↔
          value ∈ group :: rest := by
        intro value
        have hgroup := hplain group (by simp [hgroups])
        refine (hgroup.2 value).trans ⟨?_, ?_⟩
        · rintro rfl
          exact mem_cons_self
        · exact fun hin => hgroup.1 value (hgroups ▸ hin)
      simp [hmem]

/-- The laws ask for plain groups where a condition compares with them. -/
theorem plainGroups_of_laws {groups : List Str}
    (h : ∀ (principal : Principal) operator, principal.groups = groups → ConditionLaws principal
      none [⟨lit "subject.team", operator, lit "subject.groups"⟩]) : PlainGroups groups := by
  intro group hgroup
  -- a principal with the value in question as an attribute, and any group as its first
  have hfirst : ∀ operator value, ∀ first ∈ groups, evaluateSingleCondition
      ⟨lit "subject.team", operator, lit "subject.groups"⟩
      ⟨[], [], groups, [⟨lit "team", value⟩]⟩ none = compareValue operator value first := by
    intro operator value first hmem
    have horder := (h ⟨[], [], groups, [⟨lit "team", value⟩]⟩ operator rfl).groupOrder
      (first :: groups.erase first) (perm_cons_erase hmem).symm
    simp only [evaluateConditions, all_cons, all_nil, Bool.and_true] at horder
    exact horder.symm
  have hsame : ∀ other ∈ groups, other = group := by
    intro other hother
    have hequal := (hfirst (lit "==") other group hgroup).symm.trans
      (hfirst (lit "==") other other hother)
    exact of_decide_eq_true (hequal.trans (decide_eq_true rfl))
  refine ⟨hsame, fun value => ?_⟩
  have hmember := (h ⟨[], [], groups, [⟨lit "team", value⟩]⟩ (lit "in") rfl).member _
    mem_cons_self rfl rfl
  rw [hfirst (lit "in") value group hgroup] at hmember
  refine hmember.trans ⟨?_, ?_⟩
  · rintro ⟨_, hvalues, found, hfound, hin⟩
    obtain rfl := Option.some.inj hvalues
    rw [mem_singleton.mp hfound] at hin
    exact hsame value hin
  · rintro rfl
    exact ⟨_, rfl, value, mem_singleton_self value, hgroup⟩

/-- The laws hold for every principal with given groups and all conditions with given
right-hand sides exactly if the groups are plain or not among these. -/
theorem condition_laws_iff (groups : List Str) (values : Set Str) :
    (∀ principal resource conditions, principal.groups = groups →
      (∀ condition ∈ conditions, condition.value ∈ values) →
        ConditionLaws principal resource conditions) ↔
      (lit "subject.groups" ∈ values → PlainGroups groups) := by
  constructor
  · intro h hmem
    refine plainGroups_of_laws fun principal operator hgroups => h principal none _ hgroups ?_
    simpa using hmem
  · rintro hplain principal resource conditions rfl hvalues
    refine ⟨?_, ?_, ?_⟩
    · intro groups hperm
      rw [Bool.eq_iff_iff, evaluateConditions, evaluateConditions, all_eq_true, all_eq_true]
      refine forall₂_congr fun condition hcondition => ?_
      by_cases hvalue : condition.value = lit "subject.groups"
      · rw [(hplain (hvalue ▸ hvalues condition hcondition)).eq_of_perm hperm]
      · rw [evaluateSingleCondition_perm hperm hvalue]
    · intro condition _ hfield hright operators hmem
      obtain ⟨leftValues, hleft⟩ := Option.isSome_iff_exists.mp hfield
      obtain ⟨rightValue, hright⟩ := Option.isSome_iff_exists.mp hright
      have hne := resolveField_ne_nil hleft
      rw [evaluateSingleCondition_of_resolved hleft hright hne,
        evaluateSingleCondition_of_resolved hleft hright hne]
      exact evaluateMultiValueCondition_opposite operators hmem
    · rintro ⟨field, operator, value⟩ hcondition rfl rfl
      exact (hplain (hvalues _ hcondition)).member field

/-- The second group of a principal is not seen, and is seen when it is the first. -/
theorem second_group_not_seen :
    let condition := ⟨lit "resource.team", lit "in", lit "subject.groups"⟩
    let evaluate := fun groups => evaluateSingleCondition condition
      ⟨lit "user", lit "alice", groups, []⟩ (some ⟨lit "ops", [], []⟩)
    evaluate [lit "dev", lit "ops"] = false ∧ evaluate [lit "ops", lit "dev"] = true := by
  decide +kernel

end CCattler.Security
