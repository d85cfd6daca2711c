import Mathlib.Data.Set.Card
import CCattler.Controllers.InstanceFacts
import CCattler.Tenant.Admission

/-! # What the gate decides on a store that answers

On a store that answers every read, admission is a function of owners, quotas and the
instances that are not stopped.
-/

namespace CCattler.Tenant

open Go Store CCattler.Types Concurrency Security List Option
open ValidTable (perform perform_get)
open Proc (eval_bind eval_request)

/-! ## Owners and quotas -/

/-- The tenant in a hierarchical name. -/
def nameOwner (serviceName : Str) : Option Str :=
  if extractTenantFromName serviceName = [] then none
  else some (extractTenantFromName serviceName)

/-- The owner of a service according to a table. -/
def ownerIn (table : FactTable) (serviceName : Str) : Option Str :=
  match table.value (keyDesiredServiceOwner serviceName) with
  | none => nameOwner serviceName
  | some owner => if owner = [] then nameOwner serviceName else some owner

/-- A number of a tenant according to a table; `none` if it is corrupt. -/
def numberIn (table : FactTable) (key : Str) : Option Int :=
  match table.value key with
  | none => some 0
  | some rawValue => parseQuotaInt rawValue

/-- The tenant can be loaded. -/
structure Loadable (table : FactTable) (tenantName : Str) : Prop where
  declared : (table.value (keyDesiredTenant tenantName)).isSome
  cpu : (numberIn table (keyDesiredTenantQuotaCPU tenantName)).isSome
  instances : (numberIn table (keyDesiredTenantQuotaInstances tenantName)).isSome
  volumes : (numberIn table (keyDesiredTenantQuotaVolumes tenantName)).isSome
  weight : (numberIn table (keyDesiredTenantWeight tenantName)).isSome

section Reading

variable (table : ValidTable)

theorem eval_resolveTenantForService (serviceName : Str) :
    (resolveTenantForService serviceName).eval perform table =
      (ownerIn table.toFactTable serviceName, table) := by
  simp only [resolveTenantForService, StoreProgram.get, eval_bind, eval_request, perform_get,
    ownerIn, FactTable.value]
  cases table.facts (keyDesiredServiceOwner serviceName) <;> rfl

theorem eval_tenantNumber (key : Str) :
    (tenantNumber key).eval perform table = (numberIn table.toFactTable key, table) := by
  simp only [tenantNumber, StoreProgram.get, eval_bind, eval_request,
    perform_get, numberIn, FactTable.value]
  cases table.facts key <;> rfl

theorem eval_tenantText (key : Str) : (tenantText key).eval perform table =
      ((table.value key).getD [], table) := by
  simp only [tenantText, StoreProgram.get, eval_bind, eval_request, perform_get, FactTable.value]
  cases table.facts key <;> rfl

/-- The tenant that `GetTenant` loads from a table. -/
def tenantIn (table : FactTable) (tenantName : Str) : Option TenantRecord :=
  match table.value (keyDesiredTenant tenantName) with
  | none => none
  | some _ => do
      let cpu ← numberIn table (keyDesiredTenantQuotaCPU tenantName)
      let instances ← numberIn table (keyDesiredTenantQuotaInstances tenantName)
      let volumes ← numberIn table (keyDesiredTenantQuotaVolumes tenantName)
      let weight ← numberIn table (keyDesiredTenantWeight tenantName)
      some ⟨tenantName,
        ⟨cpu, (table.value (keyDesiredTenantQuotaMemory tenantName)).getD [], instances, volumes,
          (table.value (keyDesiredTenantQuotaStorage tenantName)).getD []⟩, weight⟩

theorem eval_getTenant (tenantName : Str) : (getTenant tenantName).eval perform table =
      (tenantIn table.toFactTable tenantName, table) := by
  have hroot : table.value (keyDesiredTenant tenantName) =
      (table.facts (keyDesiredTenant tenantName)).map Fact.value := rfl
  simp only [getTenant, StoreProgram.get, eval_bind, eval_request, perform_get, tenantIn, hroot]
  cases table.facts (keyDesiredTenant tenantName) with
  | none => rfl
  | some fact =>
    simp only [eval_bind, eval_tenantNumber]
    cases numberIn table.toFactTable (keyDesiredTenantQuotaCPU tenantName) with
    | none => rfl
    | some cpu =>
      simp only [bind_eq_bind, bind_some, eval_bind, eval_tenantText, eval_tenantNumber]
      cases numberIn table.toFactTable (keyDesiredTenantQuotaInstances tenantName) with
      | none => rfl
      | some instances =>
        simp only [bind_some, eval_bind, eval_tenantNumber]
        cases numberIn table.toFactTable (keyDesiredTenantQuotaVolumes tenantName) with
        | none => rfl
        | some volumes =>
          simp only [bind_some, eval_bind, eval_tenantText, eval_tenantNumber]
          cases numberIn table.toFactTable (keyDesiredTenantWeight tenantName) <;> rfl

end Reading

theorem tenantIn_of_loadable {table : FactTable} {tenantName : Str} {quota : Int}
    (hloadable : Loadable table tenantName)
    (hquota : numberIn table (keyDesiredTenantQuotaInstances tenantName) = some quota) :
    ∃ tenant, tenantIn table tenantName = some tenant ∧ tenant.quota.instances = quota := by
  obtain ⟨_, hroot⟩ := isSome_iff_exists.mp hloadable.declared
  obtain ⟨cpu, hcpu⟩ := isSome_iff_exists.mp hloadable.cpu
  obtain ⟨volumes, hvolumes⟩ := isSome_iff_exists.mp hloadable.volumes
  obtain ⟨weight, hweight⟩ := isSome_iff_exists.mp hloadable.weight
  simp only [tenantIn, hroot, hcpu, hquota, hvolumes, hweight, bind_eq_bind, bind_some]
  exact ⟨_, rfl, rfl⟩

/-! ## Usage -/

/-- The instance belongs to a service of the tenant and is not stopped. -/
structure ActiveInstance (table : FactTable) (tenantName instanceID : Str) : Prop where
  slashFree : Str.slash ∉ instanceID
  owned : ∃ serviceName, table.value (keyObservedInstanceService instanceID) = some serviceName ∧
    ownerIn table serviceName = some tenantName
  notStopped : table.value (keyObservedInstanceState instanceID) ≠ some instanceStopped

/-- The number of active instances of a tenant. -/
noncomputable def activeInstances (table : FactTable) (tenantName : Str) : Nat :=
  {instanceID | ActiveInstance table tenantName instanceID}.ncard

section Usage

variable {table : ValidTable}

variable {instanceID fieldName : Str}

theorem instanceField_eq_some {fact : Fact} (hstarts : scanObservedInstances <+: fact.key) :
    instanceField fact = some (instanceID, fieldName) ↔
      fact.key = fieldKey scanObservedInstances instanceID fieldName ∧ Str.slash ∉ instanceID :=
  Controllers.splitFactKeyIntoEntityAndSuffix_eq_some hstarts

theorem mem_instanceValues_pairs {value : Str} : (instanceID, value) ∈
        (table.scanned scanObservedInstances).filterMap (instanceValue fieldName) ↔
      Str.slash ∉ instanceID ∧
        table.value (fieldKey scanObservedInstances instanceID fieldName) = some value := by
  rw [mem_filterMap]
  constructor
  · intro ⟨fact, hmem, hpair⟩
    obtain ⟨hstarts, hvalue⟩ :=
      (table.valid.exists_scanned_iff (by decide)).mp ⟨fact, hmem, rfl, rfl⟩
    unfold instanceValue at hpair
    cases hfield : instanceField fact with
    | none => simp [hfield] at hpair
    | some parts =>
      obtain ⟨_, _⟩ := parts
      simp only [hfield] at hpair
      split at hpair
      next hname =>
        obtain ⟨rfl, rfl⟩ := Prod.mk.inj (Option.some.inj hpair)
        obtain ⟨hkey, hslash⟩ := (instanceField_eq_some hstarts).mp hfield
        exact ⟨hslash, by rw [← hname, ← hkey, hvalue]⟩
      next => cases hpair
  · intro ⟨hslash, hvalue⟩
    have hstarts := isPrefix_fieldKey scanObservedInstances instanceID fieldName
    obtain ⟨fact, hmem, hkey, rfl⟩ :=
      (table.valid.exists_scanned_iff (by decide)).mpr ⟨hstarts, hvalue⟩
    refine ⟨fact, hmem, ?_⟩
    rw [instanceValue, (instanceField_eq_some (hkey ▸ hstarts)).mpr ⟨hkey, hslash⟩]
    simp

theorem lookup_instanceValues (fieldName instanceID : Str) (hslash : Str.slash ∉ instanceID) :
    (instanceValues (table.scanned scanObservedInstances) fieldName).lookup instanceID =
      table.value (fieldKey scanObservedInstances instanceID fieldName) := by
  refine Option.ext fun value => ?_
  rw [instanceValues, Map.lookup_ofPairs_iff, mem_instanceValues_pairs]
  · exact ⟨fun h => h.2, fun h => ⟨hslash, h⟩⟩
  · intro _ hfirst _ hsecond hname
    have hvalue := (mem_instanceValues_pairs.mp hfirst).2
    rw [hname, (mem_instanceValues_pairs.mp hsecond).2] at hvalue
    exact (Option.some.inj hvalue).symm

theorem mem_keys_instanceValues :
    instanceID ∈ (instanceValues (table.scanned scanObservedInstances) fieldName).keys ↔
      Str.slash ∉ instanceID ∧
        ∃ value,
          table.value (fieldKey scanObservedInstances instanceID fieldName) = some value := by
  rw [instanceValues, Map.mem_keys_ofPairs]
  simp only [mem_instanceValues_pairs, exists_and_left]

/-- The instances counted are the owned, live ones. -/
theorem eval_countOwned (tenantName : Str) (instanceServices instanceStates : Map Str)
    (instanceIDs : List Str) :
    (countOwned tenantName instanceServices instanceStates instanceIDs).eval perform table =
      ((instanceIDs.countP (fun instanceID =>
        instanceStates.get instanceID [] ≠ instanceStopped ∧
          ownerIn table.toFactTable (instanceServices.get instanceID []) = some tenantName) : Int),
        table) := by
  induction instanceIDs with
  | nil => rfl
  | cons instanceID rest ih =>
    rw [countOwned]
    split
    next hstopped =>
      rw [ih, countP_cons_of_neg (by simp [hstopped])]
    next hactive =>
      simp only [eval_bind, eval_resolveTenantForService, ih, countP_cons, hactive, ne_eq,
        not_false_eq_true, true_and, decide_eq_true_eq]
      split <;> simp

theorem eval_countTenantInstances (order : IterationOrder) (tenantName : Str) :
    (countTenantInstances order tenantName).eval perform table =
      ((activeInstances table.toFactTable tenantName : Int), table) := by
  simp only [countTenantInstances, StoreProgram.scan, eval_bind, eval_request,
    perform, eval_countOwned]
  refine congrArg (fun count : Nat => ((count : Int), table)) ?_
  let counted : List Str :=
    (instanceValues (table.scanned scanObservedInstances) (lit "service")).keys.filter
      (fun instanceID =>
        (instanceValues (table.scanned scanObservedInstances) (lit "state")).get instanceID [] ≠
            instanceStopped ∧
          ownerIn table.toFactTable ((instanceValues (table.scanned scanObservedInstances)
            (lit "service")).get instanceID []) = some tenantName)
  have hactive : {instanceID | ActiveInstance table.toFactTable tenantName instanceID} =
      counted.toFinset := by
    ext instanceID
    simp only [Set.mem_ofPred_eq, coe_toFinset, counted, mem_filter, decide_eq_true_eq,
      mem_keys_instanceValues]
    by_cases hslash : Str.slash ∈ instanceID
    · exact iff_of_false (fun h => h.slashFree hslash) (fun h => h.1.1 hslash)
    · have hstopped (found : Option Str) :
          found.getD [] = instanceStopped ↔ found = some instanceStopped := by
        cases found with
        | none => decide
        | some state => simp
      rw [Map.get, Map.get, lookup_instanceValues _ _ hslash, lookup_instanceValues _ _ hslash,
        ne_eq, hstopped]
      constructor
      · rintro ⟨-, ⟨serviceName, hservice, howner⟩, hstate⟩
        exact ⟨⟨hslash, serviceName, hservice⟩, hstate,
          (congrArg (fun found => ownerIn table.toFactTable (found.getD [])) hservice).trans howner⟩
      · rintro ⟨⟨-, serviceName, hservice⟩, hstate, howner⟩
        rw [hservice] at howner
        exact ⟨hslash, ⟨serviceName, hservice, howner⟩, hstate⟩
  rw [(order.visit_perm _).countP_eq, countP_eq_length_filter, activeInstances, hactive,
    Set.ncard_coe_finset, toFinset_card_of_nodup ((AList.keys_nodup _).filter _)]

end Usage

/-! ## The decision -/

/-- The tenant of the service has no quota, or the sum does not exceed it. -/
def WithinQuota (table : FactTable) (serviceName : Str) (additionalInstances : Int) : Prop :=
  ∀ tenantName tenant, ownerIn table serviceName = some tenantName →
    tenantIn table tenantName = some tenant → tenant.quota.instances ≠ 0 →
    newTotal (activeInstances table tenantName) additionalInstances ≤ tenant.quota.instances

theorem quotaVerdict_allowed {tenantName : Str} {quota usage additional : Int} :
    (quotaVerdict tenantName quota usage additional).allowed = true ↔
      newTotal usage additional ≤ quota := by
  unfold quotaVerdict
  split
  next => exact iff_of_false Bool.false_ne_true (by omega)
  next => exact iff_of_true rfl (by omega)

section Decision

variable (table : ValidTable) (order : IterationOrder)

/-- The check admits exactly what fits the quota. -/
theorem eval_checkInstanceAdmission (serviceName : Str) (additionalInstances : Int) :
    (((checkInstanceAdmission order serviceName additionalInstances).eval perform
        table).1.allowed = true ↔
      WithinQuota table.toFactTable serviceName additionalInstances) ∧
    ((checkInstanceAdmission order serviceName additionalInstances).eval perform
      table).2 = table := by
  simp only [checkInstanceAdmission, eval_bind, eval_resolveTenantForService]
  cases howner : ownerIn table.toFactTable serviceName with
  | none =>
    refine ⟨iff_of_true rfl ?_, rfl⟩
    intro tenantName tenant hsome
    rw [howner] at hsome
    cases hsome
  | some tenantName =>
    simp only [eval_bind, eval_getTenant]
    cases htenant : tenantIn table.toFactTable tenantName with
    | none =>
      refine ⟨iff_of_true rfl ?_, rfl⟩
      intro other tenant hsome hloaded
      rw [howner, Option.some.injEq] at hsome
      rw [← hsome, htenant] at hloaded
      cases hloaded
    | some tenant =>
      have hwithin : WithinQuota table.toFactTable serviceName additionalInstances ↔
          (tenant.quota.instances ≠ 0 →
            newTotal (activeInstances table.toFactTable tenantName) additionalInstances ≤
              tenant.quota.instances) := by
        constructor
        · exact fun h => h tenantName tenant howner htenant
        · intro h other _ hsome hloaded
          rw [howner, Option.some.injEq] at hsome
          rw [← hsome, htenant, Option.some.injEq] at hloaded
          rw [← hsome, ← hloaded]
          exact h
      rw [hwithin]
      by_cases hzero : tenant.quota.instances = 0
      · simp [hzero]
      · simp only [hzero, if_false, eval_bind, eval_countTenantInstances, Proc.eval_pure,
          quotaVerdict_allowed, ne_eq, not_false_eq_true, forall_true_left, and_self]

/-- The quota stage passes where every service of the file is within its quota. -/
theorem eval_quotaRefusal (services : List Lang.ServiceDecl) :
    (((Gate.quotaRefusal order services).eval perform table).1 = none ↔
      ∀ decl ∈ services, decl.instances > 0 →
        WithinQuota table.toFactTable decl.name decl.instances) ∧
    ((Gate.quotaRefusal order services).eval perform table).2 =
      table := by
  induction services with
  | nil => simp [Gate.quotaRefusal]
  | cons decl rest ih =>
    rw [Gate.quotaRefusal]
    simp only [forall_mem_cons]
    by_cases hpositive : decl.instances > 0
    · obtain ⟨hallowed, htable⟩ := eval_checkInstanceAdmission table order decl.name decl.instances
      rw [if_pos hpositive, imp_iff_right hpositive]
      simp only [eval_bind, htable]
      by_cases hwithin : WithinQuota table.toFactTable decl.name decl.instances
      · rw [if_pos (hallowed.mpr hwithin)]
        exact ⟨by rw [ih.1]; simp [hwithin], ih.2⟩
      · rw [if_neg (fun h => hwithin (hallowed.mp h))]
        exact ⟨by simp [hwithin], rfl⟩
    · rw [imp_iff_not_or]
      simp only [hpositive, not_false_eq_true, true_or, true_and]
      exact ih

/-- Services of a tenant being deleted are refused. -/
theorem eval_securityRefusal (frontend : Lang.Frontend) (services : List Lang.ServiceDecl) :
    (((Gate.securityRefusal frontend services).eval perform table).1 = none ↔
      ∀ decl ∈ services, decl.ownerTenant ≠ [] →
        table.value (keyDesiredTenantState decl.ownerTenant) ≠ some Gate.tenantDeleting) ∧
    ((Gate.securityRefusal frontend services).eval perform table).2 =
      table := by
  induction services with
  | nil => simp [Gate.securityRefusal]
  | cons decl rest ih =>
    rw [Gate.securityRefusal]
    simp only [forall_mem_cons]
    by_cases howner : decl.ownerTenant = []
    · rw [imp_iff_not_or]
      simp only [howner, ne_eq, not_true_eq_false, not_false_eq_true, true_or, true_and]
      exact ih
    · have hstate : table.value (keyDesiredTenantState decl.ownerTenant) =
          (table.facts (keyDesiredTenantState decl.ownerTenant)).map Fact.value := rfl
      rw [if_neg howner, imp_iff_right howner, hstate]
      simp only [StoreProgram.get, eval_bind, eval_request, perform_get]
      cases table.facts (keyDesiredTenantState decl.ownerTenant) with
      | none =>
        simp only [map_none, ne_eq, reduceCtorEq, not_false_eq_true, true_and]
        exact ih
      | some stateFact =>
        simp only [map_some, ne_eq, Option.some.injEq]
        by_cases hdeleting : stateFact.value = Gate.tenantDeleting
        · simp [hdeleting]
        · simp only [hdeleting, not_false_eq_true, true_and]
          exact ih

variable (gate : Gate) (frontend : Lang.Frontend) (principal : Str) (file : Lang.File)
  (facts : List Lang.Fact)

/-- What the gate asks of a file that compiles. -/
structure Gate.Admits (table : FactTable) : Prop where
  authorized : gate.evaluateAuthorizationGate frontend principal facts = none
  quota : gate.checksQuota = true → ∀ decl ∈ file.services, decl.instances > 0 →
    WithinQuota table decl.name decl.instances
  notDeleting : ∀ decl ∈ file.services, decl.ownerTenant ≠ [] →
    table.value (keyDesiredTenantState decl.ownerTenant) ≠ some Gate.tenantDeleting

/-- The gate admits what `Admits` says and writes nothing. -/
theorem eval_evaluateCompiled :
    (((gate.evaluateCompiled frontend order principal file facts).eval perform
        table).1.allowed = true ↔
      gate.Admits frontend principal file facts table.toFactTable) ∧
    ((gate.evaluateCompiled frontend order principal file facts).eval perform table).1.facts =
      facts ∧
    ((gate.evaluateCompiled frontend order principal file facts).eval perform table).2 = table := by
  have hquota : (((gate.evaluateQuotaGate order file).eval perform table).1 = none ↔
      (gate.checksQuota = true → ∀ decl ∈ file.services, decl.instances > 0 →
        WithinQuota table.toFactTable decl.name decl.instances)) ∧
      ((gate.evaluateQuotaGate order file).eval perform table).2 = table := by
    unfold Gate.evaluateQuotaGate
    cases gate.checksQuota with
    | false => simp
    | true => simpa using eval_quotaRefusal table order file.services
  have hsecurity := eval_securityRefusal table frontend file.services
  have hadmits : gate.Admits frontend principal file facts table.toFactTable ↔
      gate.evaluateAuthorizationGate frontend principal facts = none ∧
      ((gate.evaluateQuotaGate order file).eval perform table).1 = none ∧
      ((Gate.securityRefusal frontend file.services).eval perform table).1 = none := by
    rw [hquota.1, hsecurity.1]
    exact ⟨fun h => ⟨h.authorized, h.quota, h.notDeleting⟩, fun h => ⟨h.1, h.2.1, h.2.2⟩⟩
  rw [hadmits, Gate.evaluateCompiled]
  cases gate.evaluateAuthorizationGate frontend principal facts with
  | some denial => exact ⟨iff_of_false Bool.false_ne_true (fun h => nomatch h.1), rfl, rfl⟩
  | none =>
    simp only [eval_bind, hquota.2, Gate.evaluateSecurityPolicyGate]
    cases ((gate.evaluateQuotaGate order file).eval perform table).1 with
    | some denial => exact ⟨iff_of_false Bool.false_ne_true (fun h => nomatch h.2.1), rfl, rfl⟩
    | none =>
      simp only [eval_bind, hsecurity.2]
      cases ((Gate.securityRefusal frontend file.services).eval perform table).1 with
      | some denial => exact ⟨iff_of_false Bool.false_ne_true (fun h => nomatch h.2.2), rfl, rfl⟩
      | none => exact ⟨iff_of_true rfl ⟨trivial, trivial, rfl⟩, rfl, rfl⟩

end Decision

end CCattler.Tenant
