import CCattler.Controllers.Auth
import CCattler.Tenant.PolicyGate

/-! # Authorization in the middle of a commit

The facts of a declaration are written one at a time, and the grants may be rebuilt in
between. Each default for a missing fact is then a question of safety.
-/

namespace CCattler.Controllers

open Go Store CCattler.Types Security Tenant List FactTable
open PolicyGate (commit valid_commit)
open Str (slash)

/-- A role declaration with a name that the parser accepts. -/
structure ParsedRole extends Lang.RoleDecl where
  isIdentifier : Lang.IsIdentifier name

/-- A policy declaration with an accepted name and a countable slice of conditions. -/
structure ParsedPolicy extends Lang.PolicyDecl where
  isIdentifier : Lang.IsIdentifier name
  fits : (conditions.length : Int) ≤ maxInt64

inductive AuthDecl where
  | role (decl : ParsedRole)
  | policy (decl : ParsedPolicy)

/-- The condition as the authorizer evaluates it. -/
def conditionOf (decl : Lang.PolicyConditionDecl) : Condition :=
  ⟨decl.field, decl.operator, decl.value⟩

namespace AuthDecl

def compile (sourceLines : List Str) : AuthDecl → Except Lang.ParseError (List Lang.Fact)
  | .role decl => Lang.compileRoleDeclaration decl.toRoleDecl sourceLines
  | .policy decl => Lang.compilePolicyDeclaration decl.toPolicyDecl sourceLines

/-- Every key about the declared role or policy starts so. -/
def home : AuthDecl → Str
  | .role decl => fieldKey scanAuthRoles decl.name []
  | .policy decl => fieldKey scanAuthPolicies decl.name []

/-- The store holds nothing about the declared role or policy. -/
def Unwritten (decl : AuthDecl) (base : FactTable) : Prop :=
  ∀ key, decl.home <+: key → base.value key = none

/-- The store holds none of the compiled facts, but maybe others of the same name. -/
def Lacks (facts : List Lang.Fact) (base : FactTable) : Prop :=
  ∀ fact ∈ facts, base.value fact.key = none

/-- The builtin role of the name grants no more than the declared one. -/
def CoversBuiltin (decl : ParsedRole) : Prop :=
  ∀ capability ∈ builtinCapabilities decl.name,
    capability ∈ decl.capabilities ∨ capabilityClusterAdmin ∈ decl.capabilities

/-- Declarations that are safe to write into a store that holds nothing of them. -/
def SafeWhenUnwritten : AuthDecl → Prop
  | .role decl =>
    (decl.scopes = [] ∨ scopeCluster ∈ decl.scopes) ∧ CoversBuiltin decl
  | .policy decl =>
    ∀ first ∈ decl.conditions.head?, ∀ (principal : Principal) resource, principal.name ≠ [] →
      evaluateSingleCondition (conditionOf first) principal resource = true →
      ∀ condition ∈ decl.conditions,
        evaluateSingleCondition (conditionOf condition) principal resource = true

/-- Declarations that are safe to write over what an earlier one may have left. -/
def SafeOverLeftovers : AuthDecl → Prop
  | .role decl =>
    (decl.scopes = [] ∨ scopeCluster ∈ decl.scopes) ∧ (builtinCapabilities decl.name = [] ∨
        scopeCluster ∈ decl.scopes ∧ CoversBuiltin decl)
  | .policy decl => decl.conditions = []

end AuthDecl

/-- No prefix of the facts allows what is denied when all of them are there. -/
def NeverOverGrants (base : FactTable) (facts : List Lang.Fact) : Prop :=
  ∀ (authorizer : APIAuthorizer) (order lastOrder : IterationOrder) (written : List Lang.Fact),
    written <+: facts → ∀ principal capability scope resource,
      ((AuthController.rebuilt authorizer (commit base written)).authorizeAPI order
        principal capability scope resource).1 = .ok () →
      ((AuthController.rebuilt authorizer (commit base facts)).authorizeAPI lastOrder
        principal capability scope resource).1 = .ok ()

variable {capability : Capability} {condition first : Lang.PolicyConditionDecl} {fact : Lang.Fact}
  {resource : Option ResourceContext} {scopes : List Scope}
  {roleName component policyName indexString value key other : Str} {conditionIndex : Int}
  {scope : Scope} {index : Nat} {grant : CapabilityGrant} {principal : Principal}

namespace PartialAuthorization

open AuthController

variable {base : FactTable} {facts written : List Lang.Fact}

/-- The keys and values of facts, as puts take them. -/
def entries (facts : List Lang.Fact) : List (Str × Str) :=
  facts.map (fun fact => (fact.key, fact.value))

theorem mem_entries : (key, value) ∈ entries facts ↔ ⟨key, value⟩ ∈ facts := by
  simp only [entries, mem_map, Prod.mk.injEq]
  constructor
  · rintro ⟨⟨_, _⟩, hmem, rfl, rfl⟩
    exact hmem
  · intro hmem
    exact ⟨_, hmem, rfl, rfl⟩

theorem exists_mem_entries :
    (∃ entry ∈ entries facts, entry.1 = key) ↔ ∃ fact ∈ facts, fact.key = key := by
  simp [entries]

section

variable {area scan : Str} (hbelow : ∀ fact ∈ facts, area <+: fact.key) (hapart : Apart scan area)
include hbelow hapart

/-- Facts below one prefix change nothing below another. -/
theorem agreeBelow_commit (hsub : written ⊆ facts) :
    AgreeBelow scan (commit base written) base := by
  apply agreeBelow_putAll hapart
  rintro ⟨_, _⟩ hentry
  exact hbelow _ (hsub (mem_entries.mp hentry))

theorem agreeBelow_start (hstarts : written <+: facts) :
    AgreeBelow scan (commit base written) (commit base facts) :=
  AgreeBelow.of_common (agreeBelow_commit hbelow hapart hstarts.subset)
    (agreeBelow_commit hbelow hapart (List.Subset.refl _))

end

theorem neverOverGrants_iff : NeverOverGrants base facts ↔
      ∀ (authorizer : APIAuthorizer) (written : List Lang.Fact), written <+: facts →
        ∀ principal capability scope resource,
        (rebuilt authorizer (commit base written)).Allows principal capability scope resource →
        (rebuilt authorizer (commit base facts)).Allows principal capability scope
          resource := by
  unfold NeverOverGrants
  simp only [APIAuthorizer.authorizeAPI_ok_iff]
  exact ⟨fun h authorizer written => h authorizer .identity .identity written,
    fun h authorizer _ _ written => h authorizer written⟩

/-! ## Roles -/

section Roles

variable {decl : ParsedRole}

theorem mem_roleFacts : fact ∈ decl.facts ↔ (∃ capability ∈ decl.capabilities,
        fact = ⟨keyAuthRoleCapability decl.name capability, lit "true"⟩) ∨
      ∃ scope ∈ decl.scopes, fact = ⟨keyAuthRoleScope decl.name scope, lit "true"⟩ := by
  simp only [Lang.RoleDecl.facts, mem_append, mem_map, eq_comm]

section

variable (hsub : written ⊆ decl.facts)
include hsub

theorem item_commit_iff {kind item : Str} : (slash ∉ roleName ∧ ((commit base written).facts
        (fieldKey scanAuthRoles roleName (kind ++ slash :: item))).isSome) ↔
      (slash ∉ roleName ∧
          (base.facts (fieldKey scanAuthRoles roleName (kind ++ slash :: item))).isSome) ∨
        roleName = decl.name ∧
          ⟨fieldKey scanAuthRoles decl.name (kind ++ slash :: item), lit "true"⟩ ∈ written := by
  rw [← value_isSome, ← value_isSome, commit, putAll_isSome_iff]
  constructor
  · rintro ⟨hslash, hwritten | hbase⟩
    · obtain ⟨fact, hmem, hkey⟩ := exists_mem_entries.mp hwritten
      obtain ⟨hname, hvalue⟩ : roleName = decl.name ∧ fact.value = lit "true" := by
        rcases mem_roleFacts.mp (hsub hmem) with ⟨_, -, rfl⟩ | ⟨_, -, rfl⟩ <;>
          exact ⟨((fieldKey_inj decl.isIdentifier.2 hslash).mp hkey).1.symm, rfl⟩
      subst hname
      refine Or.inr ⟨rfl, ?_⟩
      rw [← hkey, ← hvalue]
      exact hmem
    · exact Or.inl ⟨hslash, hbase⟩
  · rintro (⟨hslash, hbase⟩ | ⟨rfl, hmem⟩)
    · exact ⟨hslash, Or.inr hbase⟩
    · exact ⟨decl.isIdentifier.2, Or.inl (exists_mem_entries.mpr ⟨_, hmem, rfl⟩)⟩

theorem hasCapability_commit : HasCapability (commit base written) roleName capability ↔
      HasCapability base roleName capability ∨ roleName = decl.name ∧
        ⟨keyAuthRoleCapability decl.name capability, lit "true"⟩ ∈ written :=
  item_commit_iff hsub

theorem hasScope_commit : HasScope (commit base written) roleName scope ↔
      HasScope base roleName scope ∨ roleName = decl.name ∧
        ⟨keyAuthRoleScope decl.name scope, lit "true"⟩ ∈ written :=
  item_commit_iff hsub

end

theorem capabilityFact_mem_iff :
    ⟨keyAuthRoleCapability decl.name capability, lit "true"⟩ ∈ decl.facts ↔
      capability ∈ decl.capabilities := by
  simp [mem_roleFacts, capabilityKey_inj,
    capabilityKey_ne_scopeKey decl.isIdentifier.2 decl.isIdentifier.2]

theorem scopeFact_mem_iff :
    ⟨keyAuthRoleScope decl.name scope, lit "true"⟩ ∈ decl.facts ↔ scope ∈ decl.scopes := by
  simp [mem_roleFacts, scopeKey_inj,
    (capabilityKey_ne_scopeKey decl.isIdentifier.2 decl.isIdentifier.2).symm]

theorem hasCapability_whole : HasCapability (commit base decl.facts) roleName capability ↔
    HasCapability base roleName capability ∨
      roleName = decl.name ∧ capability ∈ decl.capabilities := by
  rw [hasCapability_commit (List.Subset.refl _), capabilityFact_mem_iff]

theorem hasScope_whole : HasScope (commit base decl.facts) roleName scope ↔
    HasScope base roleName scope ∨ roleName = decl.name ∧ scope ∈ decl.scopes := by
  rw [hasScope_commit (List.Subset.refl _), scopeFact_mem_iff]

theorem roleGrants_commit_of_ne (hsub : written ⊆ decl.facts) (hrole : roleName ≠ decl.name) :
    RoleGrants (commit base written) roleName grant ↔ RoleGrants base roleName grant := by
  simp only [RoleGrants, hasCapability_commit hsub, hasScope_commit hsub, hrole, false_and,
    or_false]

/-- Every request that the first grant covers, the second one covers too. -/
def Weaker (first second : CapabilityGrant) : Prop :=
  ∀ capability scope, first.covers capability scope = true → second.covers capability scope = true

theorem weaker_of_builtin {other : Capability}
    (h : other = capability ∨ other = capabilityClusterAdmin) :
    Weaker ⟨capability, scopeCluster⟩ ⟨other, scopeCluster⟩ := by
  intro _ _ hcovers
  rcases h with rfl | rfl
  · exact hcovers
  · simp [CapabilityGrant.covers, Scope.contains]

theorem roleFacts_isPrefix : ∀ fact ∈ decl.facts, scanAuthRoles <+: fact.key := by
  intro _ hfact
  rcases mem_roleFacts.mp hfact with ⟨_, -, rfl⟩ | ⟨_, -, rfl⟩ <;>
    exact isPrefix_fieldKey _ _ _

section

variable (hscopes : decl.scopes = [] ∨ scopeCluster ∈ decl.scopes)
  (hbuiltin : builtinCapabilities decl.name = [] ∨ AuthDecl.CoversBuiltin decl ∧
    (scopeCluster ∈ decl.scopes ∨ ∀ scope, ¬ HasScope (commit base decl.facts) decl.name scope))
include hscopes hbuiltin

theorem roleGrants_kept (hsub : written ⊆ decl.facts)
    (h : RoleGrants (commit base written) roleName grant) :
    ∃ kept, RoleGrants (commit base decl.facts) roleName kept ∧ Weaker grant kept := by
  by_cases hrole : roleName = decl.name
  · subst hrole
    rcases h with ⟨-, hmem⟩ | ⟨hhas, hat⟩
    · -- the fallback to a builtin role
      obtain ⟨capability, hmember, rfl⟩ := mem_map.mp hmem
      rcases hbuiltin with hnone | ⟨hcovers, hat⟩
      · rw [hnone] at hmember
        cases hmember
      · have hnow : ∀ other ∈ decl.capabilities,
            RoleGrants (commit base decl.facts) decl.name ⟨other, scopeCluster⟩ := by
          intro other hother
          refine Or.inr ⟨hasCapability_whole.mpr (Or.inr ⟨rfl, hother⟩), ?_⟩
          exact hat.imp (fun hmem => hasScope_whole.mpr (Or.inr ⟨rfl, hmem⟩))
            fun hwithout => ⟨hwithout, rfl⟩
        rcases hcovers capability hmember with hdeclared | hadmin
        · exact ⟨_, hnow _ hdeclared, weaker_of_builtin (Or.inl rfl)⟩
        · exact ⟨_, hnow _ hadmin, weaker_of_builtin (Or.inr rfl)⟩
    · refine ⟨grant, Or.inr ⟨?_, ?_⟩, fun _ _ hcovers => hcovers⟩
      · exact hasCapability_whole.mpr (((hasCapability_commit hsub).mp hhas).imp id
          fun hnew => ⟨rfl, capabilityFact_mem_iff.mp (hsub hnew.2)⟩)
      rcases hat with hat | ⟨hwithout, hdefault⟩
      · exact Or.inl (hasScope_whole.mpr (((hasScope_commit hsub).mp hat).imp id
          fun hnew => ⟨rfl, scopeFact_mem_iff.mp (hsub hnew.2)⟩))
      · -- the default for missing scopes
        rcases hscopes with hempty | hmem
        · refine Or.inr ⟨fun scope hlater => ?_, hdefault⟩
          rw [hasScope_whole, hempty] at hlater
          exact hwithout scope ((hasScope_commit hsub).mpr
            (Or.inl (hlater.resolve_right (by simp))))
        · exact Or.inl (hdefault ▸ hasScope_whole.mpr (Or.inr ⟨rfl, hmem⟩))
  · -- the facts of other roles stay as they are
    rw [roleGrants_commit_of_ne hsub hrole] at h
    exact ⟨grant, (roleGrants_commit_of_ne (List.Subset.refl _) hrole).mpr h,
      fun _ _ hcovers => hcovers⟩

theorem neverOverGrants_role (hvalid : base.Valid) : NeverOverGrants base decl.facts := by
  rw [neverOverGrants_iff]
  intro _ written hstarts _ _ _ _ hallows
  have hagree : ∀ scan, Apart scan scanAuthRoles → AgreeBelow scan
      (commit base written) (commit base decl.facts) :=
    fun _ hapart => agreeBelow_start roleFacts_isPrefix hapart hstarts
  unfold rebuilt at hallows ⊢
  rw [allows_reconcile_iff (valid_commit hvalid _)] at hallows ⊢
  obtain ⟨hnamed, ⟨grant, hholds | hrole, hcovers⟩ | hpolicy⟩ := hallows
  · exact ⟨hnamed, Or.inl ⟨grant, Or.inl hholds, hcovers⟩⟩
  · obtain ⟨boundPrincipal, roleName, hbound, hbinds, hgrants⟩ := hrole
    obtain ⟨kept, hkept, hweaker⟩ := roleGrants_kept hscopes hbuiltin hstarts.subset hgrants
    exact ⟨hnamed, Or.inl ⟨kept, Or.inr ⟨boundPrincipal, roleName, hbound,
      hbinds.of_agree (hagree _ (by decide)) (hagree _ (by decide)), hkept⟩,
      hweaker _ _ hcovers⟩⟩
  · exact ⟨hnamed, Or.inr (hpolicy.of_agree (hagree _ (by decide)))⟩

end

/-! A store in which one user is bound to the role, and nothing else is known of
it but some of its scopes. -/

/-- The principal `user:x`. -/
def someUser : Principal := ⟨lit "user", lit "x", [], []⟩

section

variable (roleName : Str) (scopes : List Scope)

/-- The binding of `user:x` to a role, and scopes of the role. -/
def bindingEntries : List (Str × Str) :=
  (keyAuthGrant (lit "user") (lit "x") roleName, lit "true") ::
    scopes.map (fun scope => (keyAuthRoleScope roleName scope, lit "true"))

def boundStore : FactTable :=
  FactTable.new.putAll (bindingEntries roleName scopes)

theorem boundStore_valid : (boundStore roleName scopes).Valid :=
  valid_new.putAll _

end

theorem boundStore_isSome_iff : ((boundStore roleName scopes).value key).isSome ↔
      key = keyAuthGrant (lit "user") (lit "x") roleName ∨
        ∃ scope ∈ scopes, key = keyAuthRoleScope roleName scope := by
  rw [boundStore, putAll_isSome_iff]
  simp [bindingEntries, eq_comm]

theorem boundStore_hasCapability (hslash : slash ∉ roleName) :
    ¬ HasCapability (boundStore roleName scopes) other capability := by
  rintro ⟨hother, hsome⟩
  rw [← value_isSome, boundStore_isSome_iff] at hsome
  rcases hsome with hkey | ⟨_, -, hkey⟩
  · exact Apart.fieldKey_ne (by decide) _ _ _ _ hkey
  · exact capabilityKey_ne_scopeKey hother hslash hkey

theorem boundStore_hasScope (hslash : slash ∉ roleName) :
    HasScope (boundStore roleName scopes) roleName scope ↔ scope ∈ scopes := by
  rw [HasScope, ← value_isSome, boundStore_isSome_iff]
  constructor
  · rintro ⟨-, hkey | ⟨_, hmem, hkey⟩⟩
    · exact absurd hkey (Apart.fieldKey_ne (by decide) _ _ _ _)
    · exact scopeKey_inj.mp hkey ▸ hmem
  · exact fun hmem => ⟨hslash, Or.inr ⟨scope, hmem, rfl⟩⟩

/-- The bound user has the grants of the one role. -/
theorem allows_boundStore_iff (hsub : written ⊆ decl.facts) :
    (rebuilt APIAuthorizer.new (commit (boundStore decl.name scopes) written)).Allows
        someUser capability scope resource ↔
      ∃ grant, RoleGrants (commit (boundStore decl.name scopes) written) decl.name
        grant ∧ grant.covers capability scope = true := by
  have hvalid : (commit (boundStore decl.name scopes) written).Valid :=
    valid_commit (boundStore_valid _ _) _
  have hagree : ∀ scan, Apart scan scanAuthRoles → AgreeBelow scan
      (commit (boundStore decl.name scopes) written) (boundStore decl.name scopes) :=
    fun _ hapart => agreeBelow_commit roleFacts_isPrefix hapart hsub
  have hgrants := hagree scanAuthGrants (by decide)
  rw [rebuilt, allows_reconcile_iff hvalid]
  constructor
  · rintro ⟨-, ⟨grant, hholds | ⟨_, _, -, hbinds, hrole⟩, hcovers⟩ | hpolicy⟩
    · obtain ⟨_, -, hmem⟩ := hholds
      simp [APIAuthorizer.new, Map.get] at hmem
    · obtain ⟨_, name, hkind, hname, hgrant, -⟩ := hbinds.of_agree hgrants (hagree _ (by decide))
      rw [← value_isSome, boundStore_isSome_iff] at hgrant
      rcases hgrant with hkey | ⟨_, -, hkey⟩
      · obtain ⟨-, hrest⟩ := (fieldKey_inj hkind (by decide)).mp hkey
        obtain ⟨-, hrest⟩ := (Str.append_sep_inj hname (by decide)).mp hrest
        obtain ⟨-, rfl⟩ := (Str.append_sep_inj (by decide) (by decide)).mp hrest
        exact ⟨grant, hrole, hcovers⟩
      · exact absurd hkey (Apart.fieldKey_ne (by decide) _ _ _ _)
    · obtain ⟨policyName, _, ⟨-, hstated⟩, -⟩ := hpolicy.of_agree (hagree _ (by decide))
      have hsome : ((boundStore decl.name scopes).value
          (keyAuthPolicyCapability policyName)).isSome := by
        rw [hstated]
        rfl
      rcases boundStore_isSome_iff.mp hsome with hkey | ⟨_, -, hkey⟩ <;>
        exact absurd hkey (Apart.fieldKey_ne (by decide) _ _ _ _)
  · rintro ⟨grant, hrole, hcovers⟩
    refine ⟨by decide, Or.inl ⟨grant, Or.inr ⟨_, decl.name, Or.inl rfl, ?_, hrole⟩, hcovers⟩⟩
    refine ⟨lit "user", lit "x", by decide, by decide, ?_, Or.inr ⟨by decide, rfl⟩⟩
    rw [keyAuthGrant, ← value_isSome, hgrants _ (isPrefix_fieldKey _ _ _)]
    exact boundStore_isSome_iff.mpr (Or.inl rfl)

section

variable {rest : List Capability} (hlist : decl.capabilities = capability :: rest)
include hlist

theorem first_capability_isPrefix :
    [⟨keyAuthRoleCapability decl.name capability, lit "true"⟩] <+: decl.facts := by
  simp [Lang.RoleDecl.facts, hlist]

/-- The capabilities come before the scopes, so the first one is seen without
them. -/
theorem allows_first_capability : (rebuilt APIAuthorizer.new (commit (boundStore decl.name [])
      [⟨keyAuthRoleCapability decl.name capability, lit "true"⟩])).Allows someUser capability
        scopeCluster none := by
  have hsub := (first_capability_isPrefix hlist).subset
  refine (allows_boundStore_iff hsub).mpr ⟨⟨capability, scopeCluster⟩, Or.inr
    ⟨(hasCapability_commit hsub).mpr (Or.inr ⟨rfl, by simp⟩),
      Or.inr ⟨fun scope hhas => ?_, rfl⟩⟩, by simp [CapabilityGrant.covers, Scope.contains]⟩
  rcases (hasScope_commit hsub).mp hhas with hold | ⟨-, hnew⟩
  · cases (boundStore_hasScope decl.isIdentifier.2).mp hold
  · exact absurd (Lang.Fact.mk.inj (mem_singleton.mp hnew)).1.symm
      (capabilityKey_ne_scopeKey decl.isIdentifier.2 decl.isIdentifier.2)

end

variable (hcapabilities : decl.capabilities ≠ [])
include hcapabilities

/-- A request at the cluster is allowed in the end only by a role for the cluster. -/
theorem scopes_of_allows (h : (rebuilt APIAuthorizer.new (commit (boundStore decl.name [])
      decl.facts)).Allows someUser capability scopeCluster resource) :
    decl.scopes = [] ∨ scopeCluster ∈ decl.scopes := by
  obtain ⟨grant, hgrants, hcovers⟩ := (allows_boundStore_iff (List.Subset.refl _)).mp h
  have hscope : grant.scope = scopeCluster :=
    Scope.contains_cluster (Bool.and_eq_true_iff.mp hcovers).2
  obtain ⟨declared, _, hlist⟩ := exists_cons_of_ne_nil hcapabilities
  have hhas : HasCapability (commit (boundStore decl.name []) decl.facts) decl.name
      declared := hasCapability_whole.mpr (Or.inr ⟨rfl, by simp [hlist]⟩)
  rcases hgrants with ⟨hwithout, -⟩ | ⟨-, hat | ⟨hwithout, -⟩⟩
  · exact absurd hhas (hwithout _)
  · rw [hscope] at hat
    rcases hasScope_whole.mp hat with hold | ⟨-, hnew⟩
    · cases (boundStore_hasScope decl.isIdentifier.2).mp hold
    · exact Or.inr hnew
  · refine Or.inl (eq_nil_iff_forall_not_mem.mpr fun scope hmem => hwithout scope ?_)
    exact hasScope_whole.mpr (Or.inr ⟨rfl, hmem⟩)

theorem scopes_of_neverOverGrants (h : NeverOverGrants (boundStore decl.name []) decl.facts) :
    decl.scopes = [] ∨ scopeCluster ∈ decl.scopes := by
  obtain ⟨capability, _, hlist⟩ := exists_cons_of_ne_nil hcapabilities
  exact scopes_of_allows hcapabilities (neverOverGrants_iff.mp h APIAuthorizer.new _
    (first_capability_isPrefix hlist) someUser capability scopeCluster none
    (allows_first_capability hlist))

/-- Before the first capability is there, the builtin role of the name counts. -/
theorem builtin_kept (h : NeverOverGrants (boundStore decl.name scopes) decl.facts)
    (hbuiltin : capability ∈ builtinCapabilities decl.name) :
    (capability ∈ decl.capabilities ∨ capabilityClusterAdmin ∈ decl.capabilities) ∧
      (scopeCluster ∈ decl.scopes ∨ scopeCluster ∈ scopes ∨ decl.scopes = [] ∧ scopes = []) := by
  have hbefore : RoleGrants (commit (boundStore decl.name scopes) []) decl.name
      ⟨capability, scopeCluster⟩ :=
    Or.inl ⟨fun other => boundStore_hasCapability decl.isIdentifier.2,
      mem_map.mpr ⟨capability, hbuiltin, rfl⟩⟩
  have hafter := neverOverGrants_iff.mp h APIAuthorizer.new [] nil_prefix someUser capability
    scopeCluster none ((allows_boundStore_iff (nil_subset _)).mpr
      ⟨_, hbefore, by simp [CapabilityGrant.covers, Scope.contains]⟩)
  obtain ⟨grant, hgrants, hcovers⟩ := (allows_boundStore_iff (List.Subset.refl _)).mp hafter
  rw [CapabilityGrant.covers, Bool.and_eq_true, Bool.or_eq_true, decide_eq_true_eq,
    decide_eq_true_eq] at hcovers
  have hscope : grant.scope = scopeCluster := Scope.contains_cluster hcovers.2
  obtain ⟨other, _, hlist⟩ := exists_cons_of_ne_nil hcapabilities
  have hdeclared : ∀ {found}, HasCapability (commit (boundStore decl.name scopes)
      decl.facts) decl.name found → found ∈ decl.capabilities := by
    intro found hhas
    exact ((hasCapability_whole.mp hhas).resolve_left
      (boundStore_hasCapability decl.isIdentifier.2)).2
  have hat : ∀ {found}, HasScope (commit (boundStore decl.name scopes) decl.facts)
      decl.name found ↔ found ∈ scopes ∨ found ∈ decl.scopes := by
    intro found
    rw [hasScope_whole, boundStore_hasScope decl.isIdentifier.2]
    simp
  rcases hgrants with ⟨hwithout, -⟩ | ⟨hhas, hscoped⟩
  · exact absurd (hasCapability_whole.mpr (Or.inr ⟨rfl, by simp [hlist]⟩)) (hwithout other)
  · constructor
    · rcases hcovers.1 with hadmin | hsame
      · exact Or.inr (hadmin ▸ hdeclared hhas)
      · exact Or.inl (hsame ▸ hdeclared hhas)
    · rcases hscoped with hscoped | ⟨hwithout, -⟩
      · rw [hscope, hat] at hscoped
        exact hscoped.elim (fun hmem => Or.inr (Or.inl hmem)) Or.inl
      · refine Or.inr (Or.inr ⟨?_, ?_⟩)
        · exact eq_nil_iff_forall_not_mem.mpr fun found hmem =>
            hwithout found (hat.mpr (Or.inr hmem))
        · exact eq_nil_iff_forall_not_mem.mpr fun found hmem =>
            hwithout found (hat.mpr (Or.inl hmem))

end Roles

/-! ## Policies -/

section Policies

variable {decl : ParsedPolicy}

/-- The first fact of a policy. -/
abbrev capabilityFact (decl : ParsedPolicy) : Lang.Fact :=
  ⟨keyAuthPolicyCapability decl.name, decl.capability⟩

/-- The components of a condition with their values. -/
def parts (condition : Lang.PolicyConditionDecl) : List (Str × Str) :=
  [(lit "field", condition.field), (lit "operator", condition.operator),
    (lit "value", condition.value)]

theorem mem_facts_iff {conditionIndex : Nat} : fact ∈ condition.facts policyName conditionIndex ↔
      ∃ component value, (component, value) ∈ parts condition ∧
        fact = ⟨keyAuthPolicyCondition policyName conditionIndex component, value⟩ := by
  simp [Lang.PolicyConditionDecl.facts, parts, or_and_right, exists_or]

theorem mem_conditionFacts {start : Nat} {conditions : List Lang.PolicyConditionDecl} :
    fact ∈ Lang.conditionFacts policyName start conditions ↔
      ∃ (offset : Nat) (condition : Lang.PolicyConditionDecl),
        conditions[offset]? = some condition ∧
          fact ∈ condition.facts policyName (start + offset) := by
  induction conditions generalizing start with
  | nil => simp [Lang.conditionFacts]
  | cons first rest ih =>
    rw [Lang.conditionFacts, mem_append, ih]
    constructor
    · rintro (hfirst | ⟨offset, condition, hget, hmem⟩)
      · exact ⟨0, first, rfl, hfirst⟩
      · exact ⟨offset + 1, condition, hget, by rwa [Nat.add_right_comm, Nat.add_assoc] at hmem⟩
    · rintro ⟨offset, condition, hget, hmem⟩
      cases offset with
      | zero =>
        obtain rfl := Option.some.inj hget
        exact Or.inl hmem
      | succ offset =>
        exact Or.inr ⟨offset, condition, hget,
          by rwa [Nat.add_right_comm, Nat.add_assoc]⟩

/-- The facts of a policy: its capability and the components of its conditions. -/
theorem mem_policyFacts : fact ∈ decl.facts ↔ fact = capabilityFact decl ∨
      ∃ (conditionIndex : Nat) (condition : Lang.PolicyConditionDecl),
        decl.conditions[conditionIndex]? = some condition ∧
          fact ∈ condition.facts decl.name conditionIndex := by
  rw [Lang.PolicyDecl.facts, mem_cons, mem_conditionFacts]
  simp

theorem index_fits {conditionIndex : Nat} (h : decl.conditions[conditionIndex]? = some condition) :
    (conditionIndex : Int) ≤ maxInt64 := by
  have hlt := (List.getElem?_eq_some_iff.mp h).1
  have := decl.fits
  omega

/-- A condition key names its index and component. -/
theorem conditionKey_inj {first second : Str} (hname : slash ∉ policyName)
    (hfirst : slash ∉ first) (hsecond : slash ∉ second) :
    conditionKey policyName first component = conditionKey policyName second other ↔
      first = second ∧ component = other := by
  rw [conditionKey, conditionKey, fieldKey_inj hname hname,
    Str.append_sep_inj (by decide) (by decide), Str.append_sep_inj hfirst hsecond]
  simp

theorem conditionKey_ne_capability (hname : slash ∉ policyName) :
    conditionKey policyName indexString component ≠ keyAuthPolicyCapability policyName := by
  intro heq
  have hfield := ((fieldKey_inj hname hname).mp heq).2
  have hslash : slash ∈ lit "capability" := by
    rw [← hfield]
    simp
  exact absurd hslash (by decide)

theorem component_of_mem (hindex : slash ∉ indexString) (h : fact ∈ decl.facts)
    (hkey : fact.key = conditionKey decl.name indexString component) :
    ∃ (conditionIndex : Nat) (condition : Lang.PolicyConditionDecl),
      decl.conditions[conditionIndex]? = some condition ∧
        indexString = itoa conditionIndex ∧ (component, fact.value) ∈ parts condition := by
  rcases mem_policyFacts.mp h with rfl | ⟨conditionIndex, condition, hget, hmem⟩
  · exact absurd hkey.symm (conditionKey_ne_capability decl.isIdentifier.2)
  · obtain ⟨_, _, hpart, rfl⟩ := mem_facts_iff.mp hmem
    obtain ⟨rfl, rfl⟩ := (conditionKey_inj decl.isIdentifier.2
      (slash_notMem_itoa conditionIndex) hindex).mp hkey
    exact ⟨conditionIndex, condition, hget, rfl, hpart⟩

theorem parts_functional (hvalue : (component, value) ∈ parts condition)
    (hother : (component, other) ∈ parts condition) : value = other := by
  have hdistinct : (parts condition).map Prod.fst =
      [lit "field", lit "operator", lit "value"] := rfl
  have hnodup : ((parts condition).map Prod.fst).Nodup := by
    rw [hdistinct]
    decide
  exact congrArg Prod.snd (inj_on_of_nodup_map hnodup hvalue hother rfl)

theorem policyFacts_consistent : FactTable.Consistent (entries decl.facts) := by
  rintro ⟨_, _⟩ hfirst ⟨_, _⟩ hsecond rfl
  rcases mem_policyFacts.mp (mem_entries.mp hfirst) with heq | ⟨index, _, hget, hmem⟩
  · rcases mem_policyFacts.mp (mem_entries.mp hsecond) with hother | ⟨_, _, -, hother⟩
    · rw [(Lang.Fact.mk.inj heq).2, (Lang.Fact.mk.inj hother).2]
    · obtain ⟨_, _, -, hother⟩ := mem_facts_iff.mp hother
      rw [(Lang.Fact.mk.inj heq).1] at hother
      exact absurd (Lang.Fact.mk.inj hother).1.symm (conditionKey_ne_capability decl.isIdentifier.2)
  · obtain ⟨_, _, hpart, heq⟩ := mem_facts_iff.mp hmem
    obtain ⟨hkey, rfl⟩ := Lang.Fact.mk.inj heq
    obtain ⟨_, _, hotherGet, hindex, hotherPart⟩ :=
      component_of_mem (slash_notMem_itoa index) (mem_entries.mp hsecond) hkey
    obtain rfl := itoa_inj hindex
    rw [hget] at hotherGet
    obtain rfl := Option.some.inj hotherGet
    exact parts_functional hpart hotherPart

/-- Below the name of the policy the store holds just these entries. -/
def HoldsOnly (decl : ParsedPolicy) (table : FactTable) (entries : List (Str × Str)) : Prop :=
  ∀ key value, (AuthDecl.policy decl).home <+: key →
    (table.value key = some value ↔ (key, value) ∈ entries)

theorem holdsOnly_putAll (hbase : (AuthDecl.policy decl).Unwritten base)
    {entries : List (Str × Str)} (hentries : FactTable.Consistent entries) :
    HoldsOnly decl (base.putAll entries) entries := by
  intro key _ hkey
  rw [putAll_value_iff hentries, hbase key hkey]
  simp

theorem home_isPrefix_conditionKey (indexString component : Str) :
    (AuthDecl.policy decl).home <+: conditionKey decl.name indexString component :=
  fieldKey_nil_isPrefix _ _ _

theorem home_isPrefix_capability :
    (AuthDecl.policy decl).home <+: keyAuthPolicyCapability decl.name :=
  fieldKey_nil_isPrefix _ _ _

variable {table : FactTable} {held : List (Str × Str)}

theorem HoldsOnly.spells_iff (h : HoldsOnly decl table held) :
    Spells table decl.name component conditionIndex indexString value ↔
      slash ∉ indexString ∧ 0 ≤ conditionIndex ∧ parseConditionIndex indexString = conditionIndex ∧
        (conditionKey decl.name indexString component, value) ∈ held := by
  have hkey := h (conditionKey decl.name indexString component) value
    (home_isPrefix_conditionKey indexString component)
  exact ⟨fun h => ⟨h.2, h.3, h.4, hkey.mp h.5⟩,
    fun h => ⟨decl.isIdentifier.2, h.1, h.2.1, h.2.2.1, hkey.mpr h.2.2.2⟩⟩

theorem HoldsOnly.statesCapability_iff (h : HoldsOnly decl table held) :
    StatesCapability table decl.name capability ↔
      (keyAuthPolicyCapability decl.name, capability) ∈ held := by
  rw [StatesCapability, h _ _ home_isPrefix_capability]
  exact and_iff_right decl.isIdentifier.2

theorem statesComponent_of_unique (indexString : Str)
    (hspells : Spells table policyName component conditionIndex indexString value)
    (hunique : ∀ otherString other,
      Spells table policyName component conditionIndex otherString other →
        otherString = indexString) :
    StatesComponent table policyName component conditionIndex value := by
  refine ⟨indexString, hspells, fun otherString other hother => ?_⟩
  rw [hunique otherString other hother]
  exact List.le_refl _

section Clean

variable (hbase : (AuthDecl.policy decl).Unwritten base) (hsub : written ⊆ decl.facts)
include hbase hsub

theorem holdsOnly_commit : HoldsOnly decl (commit base written) (entries written) :=
  holdsOnly_putAll hbase (policyFacts_consistent.sublist (map_subset _ hsub))

theorem condition_of_spells
    (h : Spells (commit base written) decl.name component conditionIndex indexString value) :
    ∃ (index : Nat) (condition : Lang.PolicyConditionDecl),
      decl.conditions[index]? = some condition ∧ conditionIndex = index ∧
        indexString = itoa index ∧ (component, value) ∈ parts condition ∧
        ⟨keyAuthPolicyCondition decl.name index component, value⟩ ∈ written := by
  obtain ⟨hslash, -, hparsed, hmem⟩ := (holdsOnly_commit hbase hsub).spells_iff.mp h
  have hwritten := mem_entries.mp hmem
  obtain ⟨index, condition, hget, rfl, hpart⟩ := component_of_mem hslash (hsub hwritten) rfl
  rw [parseConditionIndex_itoa (index_fits hget)] at hparsed
  exact ⟨index, condition, hget, hparsed.symm, rfl, hpart, hwritten⟩

theorem statesComponent_commit (hget : decl.conditions[index]? = some condition)
    (hmem : ⟨keyAuthPolicyCondition decl.name index component, value⟩ ∈ written) :
    StatesComponent (commit base written) decl.name component index value := by
  refine statesComponent_of_unique (itoa index)
    ((holdsOnly_commit hbase hsub).spells_iff.mpr ⟨slash_notMem_itoa index, by omega,
      parseConditionIndex_itoa (index_fits hget), mem_entries.mpr hmem⟩) ?_
  intro _ _ hother
  obtain ⟨_, _, -, hindex, rfl, -⟩ := condition_of_spells hbase hsub hother
  rw [Int.ofNat_inj.mp hindex]

/-- The conditions stated are the declared ones written in full. -/
theorem statesCondition_commit_iff {condition : Condition} :
    StatesCondition (commit base written) decl.name condition ↔
      ∃ (index : Nat) (declared : Lang.PolicyConditionDecl),
        decl.conditions[index]? = some declared ∧ condition = conditionOf declared ∧
          declared.facts decl.name index ⊆ written := by
  constructor
  · rintro ⟨_, hfield, hoperator, hvalue⟩
    obtain ⟨_, hspells, -⟩ := id hfield
    obtain ⟨index, declared, hget, rfl, -⟩ := condition_of_spells hbase hsub hspells
    have hpart : ∀ {component value} expected,
        StatesComponent (commit base written) decl.name component index value →
        (component, expected) ∈ parts declared → value = expected ∧
          ⟨keyAuthPolicyCondition decl.name index component, expected⟩ ∈ written := by
      rintro component value expected ⟨_, hspells, -⟩ hexpected
      obtain ⟨_, _, hother, hsame, -, hfound, hmem⟩ :=
        condition_of_spells hbase hsub hspells
      obtain rfl := Int.ofNat_inj.mp hsame
      obtain rfl := Option.some.inj (hget.symm.trans hother)
      obtain rfl := parts_functional hfound hexpected
      exact ⟨rfl, hmem⟩
    obtain ⟨hfieldValue, hfieldMem⟩ := hpart declared.field hfield (by simp [parts])
    obtain ⟨hoperatorValue, hoperatorMem⟩ := hpart declared.operator hoperator (by simp [parts])
    obtain ⟨hvalueValue, hvalueMem⟩ := hpart declared.value hvalue (by simp [parts])
    refine ⟨index, declared, hget, ?_, ?_⟩
    · exact Condition.mk.injEq .. ▸ ⟨hfieldValue, hoperatorValue, hvalueValue⟩
    · intro _ hfact
      simp only [Lang.PolicyConditionDecl.facts, mem_cons, not_mem_nil, or_false] at hfact
      rcases hfact with rfl | rfl | rfl
      · exact hfieldMem
      · exact hoperatorMem
      · exact hvalueMem
  · rintro ⟨index, declared, hget, rfl, hwritten⟩
    refine ⟨index, ?_, ?_, ?_⟩ <;>
      exact statesComponent_commit hbase hsub hget
        (hwritten (by simp [Lang.PolicyConditionDecl.facts, conditionOf]))

end Clean

theorem policyFacts_home (h : fact ∈ decl.facts) : (AuthDecl.policy decl).home <+: fact.key := by
  rcases mem_policyFacts.mp h with rfl | ⟨_, _, -, hmem⟩
  · exact home_isPrefix_capability
  · obtain ⟨_, _, -, rfl⟩ := mem_facts_iff.mp hmem
    exact home_isPrefix_conditionKey _ _

theorem policyFacts_isPrefix : ∀ fact ∈ decl.facts, scanAuthPolicies <+: fact.key :=
  fun _ hfact => (isPrefix_fieldKey _ _ _).trans (policyFacts_home hfact)

theorem name_of_home (hslash : slash ∉ policyName)
    (hbelow : fieldKey scanAuthPolicies policyName [] <+: key)
    (hhome : (AuthDecl.policy decl).home <+: key) : policyName = decl.name := by
  obtain ⟨rest, rfl⟩ := hbelow
  obtain ⟨tail, htail⟩ := hhome
  have hsame : fieldKey scanAuthPolicies decl.name tail =
      fieldKey scanAuthPolicies policyName rest := by
    simpa [AuthDecl.home, fieldKey] using htail
  exact ((fieldKey_inj decl.isIdentifier.2 hslash).mp hsame).1.symm

theorem agreeBelow_commit_other (base : FactTable) (hsub : written ⊆ decl.facts)
    (hslash : slash ∉ policyName) (hne : policyName ≠ decl.name) :
    AgreeBelow (fieldKey scanAuthPolicies policyName []) (commit base written) base := by
  rintro key hbelow
  apply putAll_value_of_notMem
  rintro ⟨key, _⟩ hentry rfl
  exact hne (name_of_home hslash hbelow (policyFacts_home (hsub (mem_entries.mp hentry))))

theorem neverOverGrants_policy (hvalid : base.Valid)
    (hpolicy : ∀ written, written <+: decl.facts → ∀ (principal : Principal) capability resource,
      principal.name ≠ [] →
      PolicyPasses (commit base written) decl.name principal capability resource →
      PolicyPasses (commit base decl.facts) decl.name principal capability resource) :
    NeverOverGrants base decl.facts := by
  rw [neverOverGrants_iff]
  intro _ written hstarts principal capability _ resource hallows
  have hagree : ∀ scan, Apart scan scanAuthPolicies → AgreeBelow scan
      (commit base written) (commit base decl.facts) :=
    fun _ hapart => agreeBelow_start policyFacts_isPrefix hapart hstarts
  unfold rebuilt at hallows ⊢
  rw [allows_reconcile_iff (valid_commit hvalid _)] at hallows ⊢
  obtain ⟨hnamed, ⟨grant, hholds | hrole, hcovers⟩ | ⟨policyName, hpasses⟩⟩ := hallows
  · exact ⟨hnamed, Or.inl ⟨grant, Or.inl hholds, hcovers⟩⟩
  · exact ⟨hnamed, Or.inl ⟨grant, Or.inr (hrole.of_agree (hagree _ (by decide))
      (hagree _ (by decide)) (hagree _ (by decide))), hcovers⟩⟩
  · refine ⟨hnamed, Or.inr ⟨policyName, ?_⟩⟩
    by_cases hname : policyName = decl.name
    · subst hname
      exact hpolicy written hstarts principal capability resource hnamed hpasses
    · obtain ⟨_, ⟨hslash, -⟩, -⟩ := id hpasses
      exact hpasses.of_agree (AgreeBelow.of_common
        (agreeBelow_commit_other base hstarts.subset hslash hname)
        (agreeBelow_commit_other base (List.Subset.refl _) hslash hname))

/-- Of the conditions, the capability and the facts of the first one hold just
that one. -/
theorem index_of_mem_start (hsub : condition.facts decl.name index ⊆
      capabilityFact decl :: first.facts decl.name 0) :
    index = 0 := by
  have hvalue : ⟨keyAuthPolicyCondition decl.name index (lit "value"), condition.value⟩ ∈
      condition.facts decl.name index := by
    simp [Lang.PolicyConditionDecl.facts]
  rcases mem_cons.mp (hsub hvalue) with heq | hmem
  · exact absurd (Lang.Fact.mk.inj heq).1 (conditionKey_ne_capability decl.isIdentifier.2)
  · obtain ⟨_, value, -, heq⟩ := mem_facts_iff.mp hmem
    obtain ⟨hindex, -⟩ := (conditionKey_inj decl.isIdentifier.2 (slash_notMem_itoa index)
      (slash_notMem_itoa 0)).mp (Lang.Fact.mk.inj heq).1
    exact itoa_inj hindex

variable {rest : List Lang.PolicyConditionDecl}

theorem start_isPrefix (hlist : decl.conditions = first :: rest) :
    capabilityFact decl :: first.facts decl.name 0 <+: decl.facts :=
  ⟨Lang.conditionFacts decl.name 1 rest, by
    rw [Lang.PolicyDecl.facts, hlist, Lang.conditionFacts, cons_append]⟩

theorem first_condition_written (hstarts : written <+: decl.facts)
    (hlist : decl.conditions = first :: rest) (hget : decl.conditions[index]? = some condition)
    (hwritten : condition.facts decl.name index ⊆ written) : first.facts decl.name 0 ⊆ written := by
  rcases prefix_or_prefix_of_prefix hstarts (start_isPrefix hlist) with hshort | hlong
  · obtain rfl := index_of_mem_start (List.Subset.trans hwritten hshort.subset)
    rw [hlist] at hget
    obtain rfl := Option.some.inj hget
    exact hwritten
  · exact fun fact hfact => hlong.subset (mem_cons_of_mem _ hfact)

theorem neverOverGrants_of_first (hvalid : base.Valid)
    (hbase : (AuthDecl.policy decl).Unwritten base)
    (hsafe : (AuthDecl.policy decl).SafeWhenUnwritten) : NeverOverGrants base decl.facts := by
  apply neverOverGrants_policy hvalid
  intro written hstarts principal _ resource hnamed hpasses
  have hsub : written ⊆ decl.facts := hstarts.subset
  obtain ⟨stated, hstated, hconcerns, ⟨_, hhas⟩, hall⟩ := hpasses
  obtain ⟨_, _, hget, -, hwritten⟩ := (statesCondition_commit_iff hbase hsub).mp hhas
  obtain ⟨first, _, hlist⟩ := exists_cons_of_ne_nil (ne_nil_of_mem (mem_of_getElem? hget))
  have hfirst := hall (conditionOf first) ((statesCondition_commit_iff hbase hsub).mpr
    ⟨0, first, by simp [hlist], rfl, first_condition_written hstarts hlist hget hwritten⟩)
  have hpass := hsafe first (by simp [hlist]) principal resource hnamed hfirst
  have hwhole := @statesCondition_commit_iff base decl.facts decl hbase (List.Subset.refl _)
  refine ⟨stated, ?_, hconcerns,
    ⟨conditionOf first, hwhole.mpr ⟨0, first, by simp [hlist], rfl, ?_⟩⟩, ?_⟩
  · have hmem := (holdsOnly_commit hbase hsub).statesCapability_iff.mp hstated
    exact (holdsOnly_commit hbase (List.Subset.refl _)).statesCapability_iff.mpr
      (mem_entries.mpr (hsub (mem_entries.mp hmem)))
  · exact fun fact hfact => mem_policyFacts.mpr (Or.inr ⟨0, first, by simp [hlist], hfact⟩)
  · intro _ hother
    obtain ⟨_, found, hfound, rfl, -⟩ := hwhole.mp hother
    exact hpass found (mem_of_getElem? hfound)

theorem neverOverGrants_of_no_conditions (hvalid : base.Valid)
    (hlacks : AuthDecl.Lacks decl.facts base) (hnone : decl.conditions = []) :
    NeverOverGrants base decl.facts := by
  apply neverOverGrants_policy hvalid
  intro _ hstarts _ _ _ _ hpasses
  have hfacts : decl.facts = [capabilityFact decl] := by
    rw [Lang.PolicyDecl.facts, hnone]
    rfl
  rw [hfacts] at hstarts
  rcases prefix_cons_iff.mp hstarts with rfl | ⟨_, rfl, hrest⟩
  · obtain ⟨_, ⟨-, hstated⟩, -⟩ := hpasses
    have habsent := hlacks (capabilityFact decl) (by simp [hfacts])
    rw [commit, map_nil, putAll_nil, habsent] at hstated
    cases hstated
  · rw [prefix_nil.mp hrest] at hpasses
    rw [hfacts]
    exact hpasses

theorem allows_policyStore_iff (hvalid : base.Valid)
    (honly : ∀ key, (base.value key).isSome → (AuthDecl.policy decl).home <+: key)
    (hsub : written ⊆ decl.facts) :
    (rebuilt APIAuthorizer.new (commit base written)).Allows principal capability scope resource ↔
      principal.name ≠ [] ∧
        PolicyPasses (commit base written) decl.name principal capability resource := by
  rw [rebuilt, allows_reconcile_iff (valid_commit hvalid _)]
  constructor
  · rintro ⟨hnamed, ⟨_, hholds | ⟨_, _, -, hbinds, -⟩, -⟩ | ⟨policyName, hpasses⟩⟩
    · obtain ⟨_, -, hmem⟩ := hholds
      simp [APIAuthorizer.new, Map.get] at hmem
    · obtain ⟨_, name, -, -, hgrant, -⟩ := hbinds
      have hagree : AgreeBelow scanAuthGrants _ base :=
        agreeBelow_commit policyFacts_isPrefix (by decide) hsub
      have hsome := (hagree.isSome_iff _ _).mp hgrant
      rw [← value_isSome] at hsome
      have hpolicies := (isPrefix_fieldKey _ _ _).trans (honly _ hsome)
      have hapart : Apart scanAuthPolicies scanAuthGrants := by decide
      exact absurd (isPrefix_fieldKey _ _ _) (hapart.not_isPrefix hpolicies)
    · refine ⟨hnamed, ?_⟩
      by_cases hname : policyName = decl.name
      · exact hname ▸ hpasses
      · obtain ⟨_, ⟨hslash, hstated⟩, -⟩ := hpasses
        have hbelow := fieldKey_nil_isPrefix scanAuthPolicies policyName (lit "capability")
        rw [keyAuthPolicyCapability, agreeBelow_commit_other base hsub hslash hname _
          hbelow] at hstated
        exact absurd (name_of_home hslash hbelow (honly _ (by rw [hstated]; rfl))) hname
  · rintro ⟨hnamed, hpasses⟩
    exact ⟨hnamed, Or.inr ⟨decl.name, hpasses⟩⟩

theorem first_of_neverOverGrants (h : NeverOverGrants FactTable.new decl.facts) :
    (AuthDecl.policy decl).SafeWhenUnwritten := by
  intro first hfirst principal resource hnamed hpass condition hmem
  obtain ⟨_, hlist⟩ := head?_eq_some_iff.mp hfirst
  have hbase : (AuthDecl.policy decl).Unwritten FactTable.new := fun key _ => rfl
  have honly : ∀ key, (FactTable.new.value key).isSome → (AuthDecl.policy decl).home <+: key :=
    fun key hsome => by simp at hsome
  have hstarts := start_isPrefix hlist
  have hstart := @statesCondition_commit_iff FactTable.new _ decl hbase hstarts.subset
  have hwhole := @statesCondition_commit_iff FactTable.new _ decl hbase (List.Subset.refl _)
  have hbefore : PolicyPasses (commit FactTable.new
      (capabilityFact decl :: first.facts decl.name 0)) decl.name
      principal decl.capability resource := by
    refine ⟨decl.capability, (holdsOnly_commit hbase hstarts.subset).statesCapability_iff.mpr
      (mem_entries.mpr (by simp)), Or.inl rfl, ⟨conditionOf first, hstart.mpr
        ⟨0, first, by simp [hlist], rfl, subset_cons_self _ _⟩⟩, ?_⟩
    intro _ hother
    obtain ⟨index, _, hget, rfl, hsub⟩ := hstart.mp hother
    obtain rfl := index_of_mem_start hsub
    rw [hlist] at hget
    obtain rfl := Option.some.inj hget
    exact hpass
  have hafter := neverOverGrants_iff.mp h APIAuthorizer.new _ hstarts principal decl.capability
    scopeCluster resource ((allows_policyStore_iff valid_new honly hstarts.subset).mpr
      ⟨hnamed, hbefore⟩)
  obtain ⟨-, _, -, -, -, hall⟩ :=
    (allows_policyStore_iff valid_new honly (List.Subset.refl _)).mp hafter
  obtain ⟨index, hget⟩ := mem_iff_getElem?.mp hmem
  exact hall _ (hwhole.mpr ⟨index, condition, hget, rfl, fun fact hfact =>
    mem_policyFacts.mpr (Or.inr ⟨index, condition, hget, hfact⟩)⟩)

/-! What an earlier declaration may have left: a condition behind the last one of
this declaration, and a second spelling of the first index. -/

/-- A condition that `user:x` meets. -/
def staleCondition : Lang.PolicyConditionDecl := ⟨lit "subject.name", lit "==", lit "x", 0⟩

def leftovers (decl : ParsedPolicy) : List Lang.Fact :=
  ⟨conditionKey decl.name (lit "00") (lit "field"), []⟩ ::
    staleCondition.facts decl.name decl.conditions.length

def leftoverStore (decl : ParsedPolicy) : FactTable :=
  FactTable.new.putAll (entries (leftovers decl))

theorem itoa_ne_alias (hfits : (index : Int) ≤ maxInt64) : lit "00" ≠ itoa index := by
  intro heq
  have hparsed := parseConditionIndex_itoa hfits
  rw [← heq, show parseConditionIndex (lit "00") = 0 by decide] at hparsed
  obtain rfl : index = 0 := by omega
  exact absurd heq (by decide)

theorem mem_leftovers : fact ∈ leftovers decl ↔
    fact = ⟨conditionKey decl.name (lit "00") (lit "field"), []⟩ ∨
      ∃ component value, (component, value) ∈ parts staleCondition ∧
        fact = ⟨keyAuthPolicyCondition decl.name decl.conditions.length component, value⟩ := by
  rw [leftovers, mem_cons, mem_facts_iff]

theorem leftoverStore_isSome_iff :
    ((leftoverStore decl).value key).isSome ↔ ∃ fact ∈ leftovers decl, fact.key = key := by
  rw [leftoverStore, putAll_isSome_iff, exists_mem_entries]
  simp

theorem leftovers_lacks : AuthDecl.Lacks decl.facts (leftoverStore decl) := by
  intro _ hfact
  rw [← Option.not_isSome_iff_eq_none, leftoverStore_isSome_iff]
  rintro ⟨_, hleftover, hkey⟩
  rcases mem_leftovers.mp hleftover with rfl | ⟨_, _, -, rfl⟩
  · obtain ⟨index, _, hget, hindex, -⟩ := component_of_mem (by decide) hfact hkey.symm
    exact itoa_ne_alias (index_fits hget) hindex
  · obtain ⟨index, _, hget, hindex, -⟩ := component_of_mem (slash_notMem_itoa _) hfact hkey.symm
    have hsame := itoa_inj hindex
    have := (List.getElem?_eq_some_iff.mp hget).1
    omega

theorem leftovers_consistent (decl : ParsedPolicy) :
    FactTable.Consistent (entries (leftovers decl) ++ entries decl.facts) := by
  have hstale : ∀ first ∈ leftovers decl, ∀ second ∈ leftovers decl, first.key = second.key →
      first.value = second.value := by
    intro first hfirst second hsecond hkey
    rcases mem_leftovers.mp hfirst with rfl | ⟨_, value, hpart, rfl⟩ <;>
      rcases mem_leftovers.mp hsecond with rfl | ⟨other, otherValue, hother, rfl⟩
    · rfl
    · exact absurd ((conditionKey_inj decl.isIdentifier.2 (by decide)
        (slash_notMem_itoa _)).mp hkey).1 (itoa_ne_alias decl.fits)
    · exact absurd ((conditionKey_inj decl.isIdentifier.2 (slash_notMem_itoa _)
        (by decide)).mp hkey).1.symm (itoa_ne_alias decl.fits)
    · obtain ⟨-, rfl⟩ := (conditionKey_inj decl.isIdentifier.2 (slash_notMem_itoa _)
        (slash_notMem_itoa _)).mp hkey
      exact parts_functional hpart hother
  have hapart : ∀ {first second}, first ∈ leftovers decl → second ∈ decl.facts →
      first.key ≠ second.key := by
    intro first second hfirst hsecond hkey
    have hnone := leftovers_lacks second hsecond
    rw [← hkey, ← Option.not_isSome_iff_eq_none, leftoverStore_isSome_iff] at hnone
    exact hnone ⟨first, hfirst, rfl⟩
  rintro ⟨key, value⟩ hfirst ⟨other, otherValue⟩ hsecond hkey
  rcases mem_append.mp hfirst with hfirst | hfirst <;>
    rcases mem_append.mp hsecond with hsecond | hsecond
  · exact hstale _ (mem_entries.mp hfirst) _ (mem_entries.mp hsecond) hkey
  · exact absurd hkey (hapart (mem_entries.mp hfirst) (mem_entries.mp hsecond))
  · exact absurd hkey.symm (hapart (mem_entries.mp hsecond) (mem_entries.mp hfirst))
  · exact policyFacts_consistent _ hfirst _ hsecond hkey

theorem holdsOnly_leftoverStore (hsub : written ⊆ decl.facts) :
    HoldsOnly decl (commit (leftoverStore decl) written)
      (entries (leftovers decl) ++ entries written) := by
  have hstore : commit (leftoverStore decl) written =
      FactTable.new.putAll (entries (leftovers decl) ++ entries written) :=
    (putAll_append _ _ _).symm
  rw [hstore]
  refine holdsOnly_putAll (fun key _ => rfl) ((leftovers_consistent decl).sublist ?_)
  exact append_subset.mpr ⟨subset_append_left _ _,
    List.Subset.trans (map_subset _ hsub) (subset_append_right _ _)⟩

theorem spells_leftoverStore (hsub : written ⊆ decl.facts) {indexString value : Str} :
    Spells (commit (leftoverStore decl) written) decl.name component conditionIndex
        indexString value ↔
      (indexString = lit "00" ∧ conditionIndex = 0 ∧ component = lit "field" ∧ value = []) ∨
      (indexString = itoa decl.conditions.length ∧ conditionIndex = decl.conditions.length ∧
        (component, value) ∈ parts staleCondition) ∨
      ∃ (index : Nat) (condition : Lang.PolicyConditionDecl),
        decl.conditions[index]? = some condition ∧ indexString = itoa index ∧
          conditionIndex = index ∧ (component, value) ∈ parts condition ∧
          ⟨keyAuthPolicyCondition decl.name index component, value⟩ ∈ written := by
  rw [(holdsOnly_leftoverStore hsub).spells_iff, mem_append, mem_entries, mem_entries,
    mem_leftovers]
  constructor
  · rintro ⟨hslash, -, rfl, (heq | ⟨found, foundValue, hpart, heq⟩) | hmem⟩
    · obtain ⟨hkey, rfl⟩ := Lang.Fact.mk.inj heq
      obtain ⟨rfl, rfl⟩ := (conditionKey_inj decl.isIdentifier.2 hslash (by decide)).mp hkey
      exact Or.inl ⟨rfl, by decide, rfl, rfl⟩
    · obtain ⟨hkey, rfl⟩ := Lang.Fact.mk.inj heq
      obtain ⟨rfl, rfl⟩ := (conditionKey_inj decl.isIdentifier.2 hslash
        (slash_notMem_itoa _)).mp hkey
      exact Or.inr (Or.inl ⟨rfl, parseConditionIndex_itoa decl.fits, hpart⟩)
    · obtain ⟨index, condition, hget, rfl, hpart⟩ := component_of_mem hslash (hsub hmem) rfl
      exact Or.inr (Or.inr ⟨index, condition, hget, rfl,
        parseConditionIndex_itoa (index_fits hget), hpart, hmem⟩)
  · rintro (⟨rfl, rfl, rfl, rfl⟩ | ⟨rfl, rfl, hpart⟩ | ⟨index, _, hget, rfl, rfl, -, hmem⟩)
    · exact ⟨by decide, by decide, by decide, Or.inl (Or.inl rfl)⟩
    · exact ⟨slash_notMem_itoa _, by omega, parseConditionIndex_itoa decl.fits,
        Or.inl (Or.inr ⟨_, _, hpart, rfl⟩)⟩
    · exact ⟨slash_notMem_itoa _, by omega, parseConditionIndex_itoa (index_fits hget), Or.inr hmem⟩

theorem stale_passes (hne : decl.conditions ≠ []) (hsub : [capabilityFact decl] ⊆ decl.facts) :
    PolicyPasses (commit (leftoverStore decl) [capabilityFact decl]) decl.name someUser
      decl.capability none := by
  have hlength : decl.conditions.length ≠ 0 := fun h => hne (eq_nil_of_length_eq_zero h)
  -- no declared component is there yet
  have hspells : ∀ {component indexString value conditionIndex}, Spells (commit (leftoverStore decl)
        [capabilityFact decl]) decl.name component conditionIndex
        indexString value →
      (conditionIndex = 0 ∧ component = lit "field") ∨
        (indexString = itoa decl.conditions.length ∧ conditionIndex = decl.conditions.length ∧
          (component, value) ∈ parts staleCondition) := by
    intro component indexString value conditionIndex hspelled
    rcases (spells_leftoverStore hsub).mp hspelled with
      ⟨-, hindex, hcomponent, -⟩ | hstale | ⟨_, _, -, -, -, -, hmem⟩
    · exact Or.inl ⟨hindex, hcomponent⟩
    · exact Or.inr hstale
    · exact absurd (Lang.Fact.mk.inj (mem_singleton.mp hmem)).1
        (conditionKey_ne_capability decl.isIdentifier.2)
  have hstated : ∀ {component value}, (component, value) ∈ parts staleCondition →
      StatesComponent (commit (leftoverStore decl) [capabilityFact decl]) decl.name component
        decl.conditions.length value := by
    intro component value hpart
    refine statesComponent_of_unique (itoa decl.conditions.length)
      ((spells_leftoverStore hsub).mpr (Or.inr (Or.inl ⟨rfl, rfl, hpart⟩))) ?_
    intro _ _ hother
    rcases hspells hother with ⟨hindex, -⟩ | ⟨hstring, -⟩
    · omega
    · exact hstring
  refine ⟨decl.capability, (holdsOnly_leftoverStore hsub).statesCapability_iff.mpr
    (mem_append_right _ (mem_entries.mpr (by simp))), Or.inl rfl,
    ⟨conditionOf staleCondition, decl.conditions.length, hstated (by simp [parts, conditionOf]),
      hstated (by simp [parts, conditionOf]), hstated (by simp [parts, conditionOf])⟩, ?_⟩
  rintro ⟨field, operator, value⟩
    ⟨conditionIndex, ⟨_, hfield, -⟩, ⟨_, hoperator, -⟩, ⟨_, hvalue, -⟩⟩
  rcases hspells hoperator with ⟨-, hwrong⟩ | ⟨-, rfl, hoperatorPart⟩
  · exact absurd hwrong (by decide)
  rcases hspells hvalue with ⟨hwrong, -⟩ | ⟨-, -, hvaluePart⟩
  · omega
  rcases hspells hfield with ⟨hwrong, -⟩ | ⟨-, -, hfieldPart⟩
  · omega
  obtain rfl : field = lit "subject.name" := parts_functional hfieldPart (by decide)
  obtain rfl : operator = lit "==" := parts_functional hoperatorPart (by decide)
  obtain rfl : value = lit "x" := parts_functional hvaluePart (by decide)
  decide

/-- The second spelling of its index gives the first condition an empty field. -/
theorem not_passes_leftoverStore (hne : decl.conditions ≠ []) :
    ¬ PolicyPasses (commit (leftoverStore decl) decl.facts) decl.name principal
      capability resource := by
  rintro ⟨_, -, -, -, hall⟩
  obtain ⟨first, _, hlist⟩ := exists_cons_of_ne_nil hne
  have hspells {component conditionIndex} :=
    @spells_leftoverStore component conditionIndex decl.facts decl (List.Subset.refl _)
  have hget : decl.conditions[0]? = some first := by simp [hlist]
  have hdeclared : ∀ {component value}, (component, value) ∈ parts first →
      Spells (commit (leftoverStore decl) decl.facts) decl.name component 0 (itoa 0)
        value := by
    intro component value hpart
    exact hspells.mpr (Or.inr (Or.inr ⟨0, first, hget, rfl, rfl, hpart,
      mem_policyFacts.mpr (Or.inr ⟨0, first, hget, mem_facts_iff.mpr ⟨_, _, hpart, rfl⟩⟩)⟩))
  -- besides the second spelling, the index 0 is spelled in one way
  have hzero : ∀ {component indexString value},
      Spells (commit (leftoverStore decl) decl.facts) decl.name component 0 indexString
        value → (indexString = lit "00" ∧ component = lit "field") ∨ indexString = itoa 0 := by
    intro component indexString value hspelled
    rcases hspells.mp hspelled with ⟨hstring, -, hcomponent, -⟩ | ⟨-, hindex, -⟩ |
      ⟨index, _, -, rfl, hindex, -⟩
    · exact Or.inl ⟨hstring, hcomponent⟩
    · simp [hlist] at hindex
      omega
    · obtain rfl : index = 0 := by omega
      exact Or.inr rfl
  have hone : ∀ {component value}, component ≠ lit "field" → (component, value) ∈ parts first →
      StatesComponent (commit (leftoverStore decl) decl.facts) decl.name component 0
        value := by
    intro component value hother hpart
    refine statesComponent_of_unique (itoa 0) (hdeclared hpart) ?_
    intro otherString other hspelled
    rcases hzero hspelled with ⟨-, hwrong⟩ | hstring
    · exact absurd hwrong hother
    · exact hstring
  have hlast : conditionKey decl.name (itoa 0) (lit "field") <
      conditionKey decl.name (lit "00") (lit "field") := by
    have hshort : conditionKey decl.name (itoa 0) (lit "field") =
        fieldKey scanAuthPolicies decl.name (lit "condition" ++ [slash, 48]) ++
          slash :: lit "field" := by
      simp [conditionKey, fieldKey, show itoa 0 = [48] by decide]
    have hlong : conditionKey decl.name (lit "00") (lit "field") =
        fieldKey scanAuthPolicies decl.name (lit "condition" ++ [slash, 48]) ++
          48 :: slash :: lit "field" := by
      simp [conditionKey, fieldKey, show lit "00" = [48, 48] by decide]
    rw [hshort, hlong]
    exact TrieNode.append_cons_lt_append_cons _ (by decide) _ _
  have hfield : StatesComponent (commit (leftoverStore decl) decl.facts) decl.name
      (lit "field") 0 [] := by
    refine ⟨lit "00", hspells.mpr (Or.inl ⟨rfl, rfl, rfl, rfl⟩), ?_⟩
    intro otherString other hspelled
    rcases hzero hspelled with ⟨rfl, -⟩ | rfl
    · exact List.le_refl _
    · exact List.le_of_lt hlast
  have hfails := hall ⟨[], first.operator, first.value⟩ ⟨0, hfield,
    hone (by decide) (by simp [parts]), hone (by decide) (by simp [parts])⟩
  cases hfails

theorem no_conditions_of_neverOverGrants (h : NeverOverGrants (leftoverStore decl) decl.facts) :
    decl.conditions = [] := by
  by_contra hne
  have hvalid : (leftoverStore decl).Valid := valid_new.putAll _
  have honly : ∀ key, ((leftoverStore decl).value key).isSome →
      (AuthDecl.policy decl).home <+: key := by
    intro key hsome
    obtain ⟨_, hfact, rfl⟩ := leftoverStore_isSome_iff.mp hsome
    rcases mem_leftovers.mp hfact with rfl | ⟨_, _, -, rfl⟩ <;>
      exact home_isPrefix_conditionKey _ _
  have hstarts : [capabilityFact decl] <+: decl.facts := by
    simp [Lang.PolicyDecl.facts]
  have hafter := neverOverGrants_iff.mp h APIAuthorizer.new _ hstarts someUser decl.capability
    scopeCluster none ((allows_policyStore_iff hvalid honly hstarts.subset).mpr
      ⟨by decide, stale_passes hne hstarts.subset⟩)
  exact not_passes_leftoverStore hne
    ((allows_policyStore_iff hvalid honly (List.Subset.refl _)).mp hafter).2

end Policies

/-! ## The two together -/

variable {decl : ParsedRole}

theorem lacks_of_unwritten_role (h : (AuthDecl.role decl).Unwritten base) :
    AuthDecl.Lacks decl.facts base := by
  intro _ hfact
  rcases mem_roleFacts.mp hfact with ⟨_, -, rfl⟩ | ⟨_, -, rfl⟩ <;>
    exact h _ (fieldKey_nil_isPrefix _ _ _)

theorem unwritten_boundStore (decl : ParsedRole) :
    (AuthDecl.role decl).Unwritten (boundStore decl.name []) := by
  intro _ hkey
  rw [← Option.not_isSome_iff_eq_none, boundStore_isSome_iff]
  rintro (rfl | ⟨_, hmem, -⟩)
  · have hapart : Apart scanAuthRoles scanAuthGrants := by decide
    exact absurd (isPrefix_fieldKey _ _ _)
      (hapart.not_isPrefix ((isPrefix_fieldKey _ _ _).trans hkey))
  · cases hmem

theorem role_unwritten_iff (hcapabilities : decl.capabilities ≠ []) :
    (∀ base : FactTable, base.Valid → (AuthDecl.role decl).Unwritten base →
        NeverOverGrants base decl.facts) ↔ (AuthDecl.role decl).SafeWhenUnwritten := by
  constructor
  · intro h
    have hsafe := h _ (boundStore_valid decl.name []) (unwritten_boundStore decl)
    exact ⟨scopes_of_neverOverGrants hcapabilities hsafe,
      fun capability hmem => (builtin_kept hcapabilities hsafe hmem).1⟩
  · rintro ⟨hscopes, hcovers⟩ base hvalid hbase
    refine neverOverGrants_role hscopes (Or.inr ⟨hcovers, ?_⟩) hvalid
    rcases hscopes with hempty | hmem
    · refine Or.inr fun scope hhas => ?_
      rcases hasScope_whole.mp hhas with ⟨-, hold⟩ | ⟨-, hnew⟩
      · rw [← value_isSome, keyAuthRoleScope, hbase _ (fieldKey_nil_isPrefix _ _ _)] at hold
        cases hold
      · rw [hempty] at hnew
        cases hnew
    · exact Or.inl hmem

theorem role_leftovers_iff (hcapabilities : decl.capabilities ≠ []) :
    (∀ base : FactTable, base.Valid → AuthDecl.Lacks decl.facts base →
        NeverOverGrants base decl.facts) ↔ (AuthDecl.role decl).SafeOverLeftovers := by
  constructor
  · intro h
    have hsafe := h _ (boundStore_valid decl.name [])
      (lacks_of_unwritten_role (unwritten_boundStore decl))
    have hscopes := scopes_of_neverOverGrants hcapabilities hsafe
    refine ⟨hscopes, ?_⟩
    by_cases hbuiltin : builtinCapabilities decl.name = []
    · exact Or.inl hbuiltin
    refine Or.inr ⟨?_, fun capability hmem => (builtin_kept hcapabilities hsafe hmem).1⟩
    obtain ⟨capability, hmem⟩ := exists_mem_of_ne_nil _ hbuiltin
    rcases hscopes with hempty | hcluster
    · -- a scope that an earlier declaration left narrows the role in the end
      have hlacks : AuthDecl.Lacks decl.facts (boundStore decl.name [lit "team/y"]) := by
        intro _ hfact
        rcases mem_roleFacts.mp hfact with ⟨declared, -, rfl⟩ | ⟨scope, hscope, -⟩
        · have hnone := @boundStore_hasCapability declared [lit "team/y"] decl.name decl.name
            decl.isIdentifier.2
          rw [← Option.not_isSome_iff_eq_none]
          intro hsome
          rw [value_isSome] at hsome
          exact hnone ⟨decl.isIdentifier.2, hsome⟩
        · rw [hempty] at hscope
          cases hscope
      have hkept := (builtin_kept hcapabilities
        (h _ (boundStore_valid decl.name [lit "team/y"]) hlacks) hmem).2
      rcases hkept with hcluster | hother | ⟨-, hnone⟩
      · exact hcluster
      · exact absurd hother (by decide)
      · cases hnone
    · exact hcluster
  · rintro ⟨hscopes, hbuiltin⟩ base hvalid -
    exact neverOverGrants_role hscopes
      (hbuiltin.imp id fun ⟨hcluster, hcovers⟩ => ⟨hcovers, Or.inl hcluster⟩) hvalid

theorem policy_unwritten_iff {decl : ParsedPolicy} :
    (∀ base : FactTable, base.Valid → (AuthDecl.policy decl).Unwritten base →
        NeverOverGrants base decl.facts) ↔ (AuthDecl.policy decl).SafeWhenUnwritten :=
  ⟨fun h => first_of_neverOverGrants (h _ valid_new fun _ _ => rfl),
    fun hsafe _ hvalid hbase => neverOverGrants_of_first hvalid hbase hsafe⟩

theorem policy_leftovers_iff {decl : ParsedPolicy} :
    (∀ base : FactTable, base.Valid → AuthDecl.Lacks decl.facts base →
        NeverOverGrants base decl.facts) ↔ (AuthDecl.policy decl).SafeOverLeftovers :=
  ⟨fun h => no_conditions_of_neverOverGrants (h _ (valid_new.putAll _) leftovers_lacks),
    fun hnone _ hvalid hlacks => neverOverGrants_of_no_conditions hvalid hlacks hnone⟩

end PartialAuthorization

/-- Which declarations can be written fact by fact without ever allowing what is denied
in the end, with and without leftovers. -/
theorem partial_write_never_over_grants_iff {decl : AuthDecl} {sourceLines : List Str}
    {facts : List Lang.Fact} (hcompile : decl.compile sourceLines = .ok facts) :
    ((∀ base : FactTable, base.Valid → AuthDecl.Lacks facts base → NeverOverGrants base facts) ↔
        decl.SafeOverLeftovers) ∧
      ((∀ base : FactTable, base.Valid → decl.Unwritten base → NeverOverGrants base facts) ↔
        decl.SafeWhenUnwritten) := by
  cases decl with
  | role decl =>
    simp only [AuthDecl.compile, Lang.compileRoleDeclaration] at hcompile
    split at hcompile
    · cases hcompile
    · split at hcompile
      · cases hcompile
      · next hcapabilities =>
          obtain rfl := Except.ok.inj hcompile
          exact ⟨PartialAuthorization.role_leftovers_iff hcapabilities,
            PartialAuthorization.role_unwritten_iff hcapabilities⟩
  | policy decl =>
    simp only [AuthDecl.compile, Lang.compilePolicyDeclaration] at hcompile
    split at hcompile
    · cases hcompile
    · split at hcompile
      · cases hcompile
      · obtain rfl := Except.ok.inj hcompile
        exact ⟨PartialAuthorization.policy_leftovers_iff, PartialAuthorization.policy_unwritten_iff⟩

/-- A role for one team. -/
def teamReader : ParsedRole where
  name := lit "reader"
  capabilities := [capabilityWorkloadRead]
  scopes := [lit "team/a"]
  line := 1
  isIdentifier := by decide

theorem teamReader_not_safe : (AuthDecl.role teamReader).compile [] = .ok teamReader.facts ∧
      ¬ ∀ base : FactTable, base.Valid → (AuthDecl.role teamReader).Unwritten base →
        NeverOverGrants base teamReader.facts :=
  ⟨rfl, fun h => absurd
    ((@partial_write_never_over_grants_iff (.role teamReader) [] _ rfl).2.mp h).1 (by decide)⟩

/-- With its capability but not its scope written, the role counts for the cluster. -/
theorem teamReader_reads_cluster_midway : ((AuthController.rebuilt APIAuthorizer.new (commit
        (PartialAuthorization.boundStore (lit "reader") [])
        [⟨keyAuthRoleCapability (lit "reader") capabilityWorkloadRead, lit "true"⟩])).authorizeAPI
          .identity PartialAuthorization.someUser capabilityWorkloadRead scopeCluster
          none).1 = .ok () ∧
      ((AuthController.rebuilt APIAuthorizer.new (commit
        (PartialAuthorization.boundStore (lit "reader") [])
        [⟨keyAuthRoleCapability (lit "reader") capabilityWorkloadRead, lit "true"⟩,
          ⟨keyAuthRoleScope (lit "reader") (lit "team/a"), lit "true"⟩])).authorizeAPI
          .identity PartialAuthorization.someUser capabilityWorkloadRead scopeCluster
          none).1 ≠ .ok () := by
  constructor
  · exact (APIAuthorizer.authorizeAPI_ok_iff _).mpr
      (@PartialAuthorization.allows_first_capability capabilityWorkloadRead teamReader [] rfl)
  · intro hallowed
    have hallows := (APIAuthorizer.authorizeAPI_ok_iff _).mp hallowed
    exact absurd (@PartialAuthorization.scopes_of_allows _ _ teamReader (by decide) hallows)
      (by decide)

end CCattler.Controllers
