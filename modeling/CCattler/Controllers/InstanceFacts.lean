import CCattler.Controllers.WatchedFacts

/-! # Instance fields under the runner

The field of an instance is the derived fact if there is one, and the observed fact
otherwise.
-/

namespace CCattler.Store.FactTable

open Go CCattler.Types

/-- The field of an instance as controllers read it. -/
def instanceField (table : FactTable) (instanceID field : Str) : Option Str :=
  (table.value (fieldKey scanDerivedInstances instanceID field)).or
    (table.value (fieldKey scanObservedInstances instanceID field))

end CCattler.Store.FactTable

namespace CCattler.Controllers

open Go Store CCattler.Types

/-! ## The loop over the facts of one prefix -/

section Loop

variable {pre : Str}

/-- One round of `addInstanceFields`. -/
def addInstanceField (pre : Str) (fields : Map InstanceFields) (fact : Fact) : Map InstanceFields :=
  match splitFactKeyIntoEntityAndSuffix fact.key pre with
  | some (instanceID, fieldName) =>
    fields.update instanceID ∅ (fun known => known.set fieldName fact.value)
  | none => fields

theorem splitFactKeyIntoEntityAndSuffix_eq_some {key entity suffix : Str} (hstarts : pre <+: key) :
    splitFactKeyIntoEntityAndSuffix key pre = some (entity, suffix) ↔
      key = fieldKey pre entity suffix ∧ Str.slash ∉ entity := by
  obtain ⟨_, rfl⟩ := hstarts
  rw [splitFactKeyIntoEntityAndSuffix, Str.trimPrefix_append, fieldKey,
    List.append_cancel_left_eq, ← Str.splitN_two_iff]
  constructor
  · intro h
    split at h
    next _ _ _ hparts =>
      obtain ⟨rfl, rfl⟩ := Prod.mk.inj (Option.some.inj h)
      exact hparts
    next => cases h
  · intro h
    rw [h]

/-- The induction rule for folds over split keys. -/
theorem foldl_split_rec {State : Type} {motive : State → Prop}
    {step : State → Str → Str → Fact → State} {facts : List Fact} {initial : State}
    (hinitial : motive initial) (hstep : ∀ state entity suffix fact, Str.slash ∉ entity →
      motive state → motive (step state entity suffix fact)) :
    motive (facts.foldl (fun state fact =>
      match splitFactKeyIntoEntityAndSuffix fact.key pre with
      | some (entity, suffix) => step state entity suffix fact
      | none => state) initial) := by
  refine List.foldlRecOn _ _ hinitial fun state hstate fact _ => ?_
  split
  next entity suffix hsplit =>
    refine hstep state entity suffix fact ?_ hstate
    unfold splitFactKeyIntoEntityAndSuffix at hsplit
    split at hsplit
    next hparts =>
      obtain ⟨rfl, rfl⟩ := Prod.mk.inj (Option.some.inj hsplit)
      exact (Str.splitN_two_iff.mp hparts).2
    next => cases hsplit
  next => exact hstate

theorem slash_notMem_of_mem_foldl {ν : Type} {step : Map ν → Str → Str → Fact → Map ν}
    {facts : List Fact} {key : Str} (hstep : ∀ m entity suffix fact,
      key ∈ (step m entity suffix fact).keys → key = entity ∨ key ∈ m.keys)
    (h : key ∈ (facts.foldl (fun (m : Map ν) fact =>
      match splitFactKeyIntoEntityAndSuffix fact.key pre with
      | some (entity, suffix) => step m entity suffix fact
      | none => m) ∅).keys) : Str.slash ∉ key := by
  revert h
  refine foldl_split_rec (motive := fun m : Map ν => key ∈ m.keys → Str.slash ∉ key)
    (fun hnone => absurd hnone List.not_mem_nil) ?_
  intro m entity suffix fact hslash hkept hmem
  rcases hstep m entity suffix fact hmem with rfl | hold
  · exact hslash
  · exact hkept hold

/-- One fact sets its own field only. -/
theorem lookup_addInstanceField {fact : Fact} (hstarts : pre <+: fact.key)
    (fields : Map InstanceFields) (instanceID name : Str) :
    ((addInstanceField pre fields fact).get instanceID ∅).lookup name =
      if Str.slash ∉ instanceID ∧ fact.key = fieldKey pre instanceID name then some fact.value
      else (fields.get instanceID ∅).lookup name := by
  have hsplit := @splitFactKeyIntoEntityAndSuffix_eq_some pre fact.key
  unfold addInstanceField
  cases hparts : splitFactKeyIntoEntityAndSuffix fact.key pre with
  | none =>
    have hno : ¬ (Str.slash ∉ instanceID ∧ fact.key = fieldKey pre instanceID name) := by
      intro h
      rw [(hsplit hstarts).mpr ⟨h.2, h.1⟩] at hparts
      cases hparts
    rw [if_neg hno]
  | some parts =>
    obtain ⟨entity, suffix⟩ := parts
    obtain ⟨hkey, hentity⟩ := (hsplit hstarts).mp hparts
    simp only [Map.get, Map.lookup_update]
    by_cases hsame : instanceID = entity
    · subst hsame
      rw [if_pos rfl, Option.getD_some, Map.lookup_set, hkey]
      have hiff : Str.slash ∉ instanceID ∧
          fieldKey pre instanceID suffix = fieldKey pre instanceID name ↔ name = suffix := by
        rw [fieldKey_inj hentity hentity]
        exact ⟨fun h => h.2.2.symm, fun h => ⟨hentity, rfl, h.symm⟩⟩
      simp only [hiff]
    · rw [if_neg hsame, if_neg]
      intro h
      rw [hkey, fieldKey_inj hentity h.1] at h
      exact hsame h.2.1.symm

variable {facts : List Fact}

theorem lookup_foldl_of_notMem (hstarts : ∀ fact ∈ facts, pre <+: fact.key)
    (fields : Map InstanceFields) {instanceID name : Str}
    (hout : Str.slash ∉ instanceID → ∀ fact ∈ facts, fact.key ≠ fieldKey pre instanceID name) :
    ((facts.foldl (addInstanceField pre) fields).get instanceID ∅).lookup name =
      (fields.get instanceID ∅).lookup name := by
  induction facts generalizing fields with
  | nil => rfl
  | cons first rest ih =>
    rw [List.foldl_cons, ih (fun fact hfact => hstarts fact (List.mem_cons_of_mem _ hfact)) _
      (fun hslash fact hfact => hout hslash fact (List.mem_cons_of_mem _ hfact)),
      lookup_addInstanceField (hstarts first List.mem_cons_self), if_neg]
    intro h
    exact hout h.1 first List.mem_cons_self h.2

theorem lookup_foldl_of_mem (hstarts : ∀ fact ∈ facts, pre <+: fact.key)
    (hsorted : KeySorted facts) (fields : Map InstanceFields) {instanceID name : Str}
    (hslash : Str.slash ∉ instanceID) {fact : Fact} (hfact : fact ∈ facts)
    (hkey : fact.key = fieldKey pre instanceID name) :
    ((facts.foldl (addInstanceField pre) fields).get instanceID ∅).lookup name =
      some fact.value := by
  induction facts generalizing fields with
  | nil => cases hfact
  | cons first rest ih =>
    obtain ⟨hfirst, hrest⟩ := List.pairwise_cons.mp hsorted
    have hlater : ∀ other ∈ rest, pre <+: other.key := fun other hother =>
      hstarts other (List.mem_cons_of_mem _ hother)
    rw [List.foldl_cons]
    rcases List.mem_cons.mp hfact with heq | hmem
    · subst heq
      rw [lookup_foldl_of_notMem hlater, lookup_addInstanceField (hstarts fact hfact),
        if_pos ⟨hslash, hkey⟩]
      -- the keys ascend, so this one does not come again
      intro _ other hother hsame
      have hless := hfirst other hother
      rw [hkey, hsame] at hless
      exact List.lt_irrefl _ hless
    · exact ih hlater hrest _ hmem

end Loop

/-! ## What a controller reads -/

section Reading

variable {table : FactTable} {watch : List Str}

section

variable (hvalid : table.Valid) (hwatch : NonOverlapping watch) {pre : Str} (hpre : pre ∈ watch)
  (fields : Map InstanceFields) {instanceID : Str}
include hvalid hwatch hpre

/-- Stored fields override those read before. -/
theorem lookup_addInstanceFields (hslash : Str.slash ∉ instanceID) (name : Str) :
    ((addInstanceFields (visible watch table.allFacts) fields pre).get instanceID ∅).lookup name =
      (table.value (fieldKey pre instanceID name)).or ((fields.get instanceID ∅).lookup name) := by
  have hstarts : ∀ fact ∈ factsWithPrefix (visible watch table.allFacts) pre, pre <+: fact.key :=
    fun fact hfact => ((mem_watched hvalid hwatch hpre).mp hfact).2
  cases hvalue : table.value (fieldKey pre instanceID name) with
  | none =>
    apply lookup_foldl_of_notMem hstarts
    intro _ fact hfact hkey
    obtain ⟨-, hfound⟩ := (exists_watched_iff hvalid hwatch hpre).mp ⟨fact, hfact, hkey, rfl⟩
    rw [hvalue] at hfound
    cases hfound
  | some value =>
    obtain ⟨fact, hfact, hkey, rfl⟩ := (exists_watched_iff hvalid hwatch hpre).mpr
      ⟨isPrefix_fieldKey pre instanceID name, hvalue⟩
    exact lookup_foldl_of_mem hstarts (keySorted_watched hvalid hwatch hpre) fields hslash hfact
      hkey

theorem lookup_addInstanceFields_of_slash (hslash : Str.slash ∈ instanceID) (name : Str) :
    ((addInstanceFields (visible watch table.allFacts) fields pre).get instanceID ∅).lookup name =
      (fields.get instanceID ∅).lookup name := by
  apply lookup_foldl_of_notMem
  · intro _ hfact
    exact ((mem_watched hvalid hwatch hpre).mp hfact).2
  · intro hno
    exact absurd hslash hno

end

variable (hvalid : table.Valid) (hwatch : NonOverlapping watch)
  (hobserved : scanObservedInstances ∈ watch) (hderived : scanDerivedInstances ∈ watch)

include hvalid hwatch hobserved hderived

theorem lookup_parseInstanceFields {instanceID : Str} (hslash : Str.slash ∉ instanceID)
    (name : Str) :
    ((parseInstanceFieldsFromFacts (visible watch table.allFacts)).get instanceID ∅).lookup name =
      table.instanceField instanceID name := by
  simp only [parseInstanceFieldsFromFacts, List.foldl_cons, List.foldl_nil]
  rw [lookup_addInstanceFields hvalid hwatch hderived _ hslash,
    lookup_addInstanceFields hvalid hwatch hobserved _ hslash]
  simp [FactTable.instanceField, Map.get]

theorem lookup_parseInstanceFields_of_slash {instanceID : Str} (hslash : Str.slash ∈ instanceID)
    (name : Str) :
    ((parseInstanceFieldsFromFacts (visible watch table.allFacts)).get instanceID ∅).lookup name =
      none := by
  simp only [parseInstanceFieldsFromFacts, List.foldl_cons, List.foldl_nil]
  rw [lookup_addInstanceFields_of_slash hvalid hwatch hderived _ hslash,
    lookup_addInstanceFields_of_slash hvalid hwatch hobserved _ hslash]
  simp [Map.get]

/-- A nonempty field is a stored one. -/
theorem instanceField_of_field {instanceID : Str} {name : String} {value : Str}
    (hvalue : ((parseInstanceFieldsFromFacts (visible watch table.allFacts)).get instanceID
      ∅).field name = value) (hne : value ≠ []) :
    Str.slash ∉ instanceID ∧ table.instanceField instanceID (lit name) = some value := by
  unfold InstanceFields.field at hvalue
  by_cases hslash : Str.slash ∈ instanceID
  · rw [Map.get, lookup_parseInstanceFields_of_slash hvalid hwatch hobserved hderived
      hslash] at hvalue
    exact absurd hvalue.symm hne
  · rw [Map.get, lookup_parseInstanceFields hvalid hwatch hobserved hderived hslash] at hvalue
    refine ⟨hslash, ?_⟩
    cases hfield : table.instanceField instanceID (lit name) with
    | none =>
      rw [hfield] at hvalue
      exact absurd hvalue.symm hne
    | some found =>
      rw [hfield] at hvalue
      exact congrArg some hvalue

end Reading

end CCattler.Controllers
