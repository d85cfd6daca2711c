import CCattler.Api.Role
import CCattler.Controllers.Auth

/-! # What a history of grants and revokes allows

The controller multiplies the capabilities of the inline role with its scopes, and a
revoke takes back a capability but no scope.
-/

namespace CCattler.Api

open Go Store CCattler.Types Security Controllers AuthController List FactTable RoleChange
open Str (slash)

namespace RoleChange

/-- The grants that were carried out and that no later revoke takes back. -/
def standing : List RoleChange → List CapabilityGrant
  | [] => []
  | .grant capability scope :: later =>
    if isValidCapability capability = true ∧ .revoke capability ∉ later then
      ⟨capability, scopePath scope⟩ :: standing later
    else standing later
  | .revoke _ :: later => standing later

def grantedScopes : List RoleChange → List Scope
  | [] => []
  | .grant capability scope :: later =>
    if isValidCapability capability then scopePath scope :: grantedScopes later
    else grantedScopes later
  | .revoke _ :: later => grantedScopes later

/-- The store after the changes, in their order. -/
def applyAll (principalKind principalName : Str) (table : ValidTable)
    (changes : List RoleChange) : ValidTable :=
  changes.foldl (fun current change => change.applyTo principalKind principalName current) table

end RoleChange

open RoleChange (applyAll grantedScopes standing)

/-- The store after the calls, in their order. -/
def RoleCall.applyAll (table : ValidTable) (calls : List RoleCall) : ValidTable :=
  calls.foldl (fun current call => call.applyTo current) table

/-- The authorizer allows the principal what some standing grant covers, and
nothing else. -/
def AllowsExactly (authorizer : APIAuthorizer) (principal : Principal)
    (changes : List RoleChange) : Prop :=
  ∀ (order : IterationOrder) (capability : Capability) (scope : Scope)
    (resource : Option ResourceContext),
    (authorizer.authorizeAPI order principal capability scope resource).1 = .ok () ↔
      ∃ grant ∈ standing changes,
        (grant.capability = capability ∨ grant.capability = capabilityClusterAdmin) ∧
          Scope.contains grant.scope scope = true

/-- The principal has no grants yet, and there are no policies. -/
structure Ungranted (authorizer : APIAuthorizer) (principal : Principal) (base : FactTable) :
    Prop where
  noBootstrap : ∀ grant, ¬ APIAuthorizer.Holds authorizer.bootstrapGrants principal.string grant
  unbound : ∀ boundPrincipal roleName,
    boundPrincipal = principal.string ∨ wildcardMatches boundPrincipal principal.string = true →
    ¬ Binds base boundPrincipal roleName
  noPolicies : ∀ policyName capability, ¬ StatesCapability base policyName capability

/-- The controller reads a grant to the principal back as one. -/
def Addressable (principalKind principalName : Str) : Prop :=
  principalKind ≠ lit "group" ∧ slash ∉ principalKind ∧ slash ∉ principalName

instance (principalKind principalName : Str) :
    Decidable (Addressable principalKind principalName) :=
  inferInstanceAs (Decidable (_ ∧ _ ∧ _))

section

variable (base : FactTable) (roleName : Str) (changes : List RoleChange)

/-- Some grant of the capability stands, or the role had it and it was not revoked. -/
def LeavesCapability (capability : Capability) : Prop :=
  (∃ grant ∈ standing changes, grant.capability = capability) ∨
    HasCapability base roleName capability ∧ (capability = [] ∨ .revoke capability ∉ changes)

/-- A scope that the history leaves in the inline role: some grant named it, or
the role had it before. -/
def LeavesScope (scope : Scope) : Prop :=
  scope ∈ grantedScopes changes ∨ HasScope base roleName scope

end

/-- Every capability left in the inline role stands at every scope left there. -/
def ProductStands (base : FactTable) (principalKind principalName : Str)
    (changes : List RoleChange) : Prop :=
  if Addressable principalKind principalName then
    grantedScopes changes = [] ∨ ∀ capability scope,
        LeavesCapability base (inlineRoleName principalKind principalName) changes capability →
        LeavesScope base (inlineRoleName principalKind principalName) changes scope →
        ∃ grant ∈ standing changes,
          (grant.capability = capability ∨ grant.capability = capabilityClusterAdmin) ∧
            Scope.contains grant.scope scope = true
  else standing changes = []

variable {grant : CapabilityGrant} {capability : Capability} {change : RoleChange} {roleName : Str}
  {scope : Scope}

namespace RoleExactness

variable {principalKind principalName : Str} {table base : ValidTable}

/-! ## Keys -/

/-- The grant key of a principal is read back as its own only without slashes. -/
theorem keyAuthGrant_eq {kind name inlineName : Str} (hkind : slash ∉ kind)
    (hname : slash ∉ name) (hrole : slash ∉ roleName)
    (h : keyAuthGrant kind name roleName = keyAuthGrant principalKind principalName inlineName) :
    kind = principalKind ∧ name = principalName ∧ roleName = inlineName := by
  have hcount := congrArg (List.count slash) h
  simp only [keyAuthGrant, fieldKey, count_append, count_cons_self,
    count_eq_zero_of_not_mem hkind, count_eq_zero_of_not_mem hname,
    count_eq_zero_of_not_mem hrole] at hcount
  have hprincipalKind : slash ∉ principalKind := count_eq_zero.mp (by omega)
  have hprincipalName : slash ∉ principalName := count_eq_zero.mp (by omega)
  obtain ⟨hsame, hrest⟩ := (fieldKey_inj hkind hprincipalKind).mp h
  obtain ⟨hnames, hroles⟩ := (Str.append_sep_inj hname hprincipalName).mp hrest
  exact ⟨hsame, hnames, ((Str.append_sep_inj (by decide) (by decide)).mp hroles).2⟩

theorem slash_notMem_inlineRoleName (hkind : slash ∉ principalKind)
    (hname : slash ∉ principalName) :
    slash ∉ inlineRoleName principalKind principalName := by
  simp only [inlineRoleName, mem_append, not_or]
  exact ⟨⟨⟨by decide, hkind⟩, by decide⟩, hname⟩

theorem builtinRoleCapabilities_inline (principalKind principalName : Str) :
    builtinRoleCapabilities (inlineRoleName principalKind principalName) = [] := by
  have hne : ∀ {name : Str}, ¬ lit "inline-" <+: name →
      inlineRoleName principalKind principalName ≠ name := by
    rintro name hname rfl
    exact hname ⟨principalKind ++ (lit "-" ++ principalName), by simp [inlineRoleName]⟩
  unfold builtinRoleCapabilities builtinCapabilities
  rw [if_neg (hne (by decide)), if_neg (hne (by decide)), if_neg (hne (by decide)),
    if_neg (hne (by decide)), map_nil]

theorem slash_notMem_of_roleGrants {table : FactTable} (h : RoleGrants table roleName grant) :
    slash ∉ roleName := by
  rcases h with ⟨-, hbuiltin⟩ | ⟨hcapability, -⟩
  · intro hslash
    have hne : ∀ {name : Str}, slash ∉ name → roleName ≠ name := by
      rintro name hname rfl
      exact hname hslash
    rw [builtinRoleCapabilities, builtinCapabilities, if_neg (hne (by decide)),
      if_neg (hne (by decide)), if_neg (hne (by decide)), if_neg (hne (by decide))] at hbuiltin
    cases hbuiltin
  · exact hcapability.1

/-! ## One change -/

/-- A change touches roles and its own binding only. -/
theorem value_applyTo_of_ne {key : Str} (hrole : ¬ scanAuthRoles <+: key)
    (hgrant : key ≠ keyAuthGrant principalKind principalName
      (inlineRoleName principalKind principalName)) :
    (change.applyTo principalKind principalName table).value key = table.value key := by
  have hne : ∀ entity field, key ≠ fieldKey scanAuthRoles entity field := by
    rintro entity field rfl
    exact hrole (isPrefix_fieldKey _ _ _)
  cases change with
  | grant capability scope =>
    rw [value_applyTo_grant, if_neg]
    rintro ⟨-, hcapability | hscope | hkey⟩
    · exact hne _ _ hcapability
    · exact hne _ _ hscope
    · exact hgrant hkey
  | revoke capability =>
    rw [value_applyTo_revoke, if_neg]
    exact fun h => hne _ _ h.2

variable {changes : List RoleChange}

section Named

variable (hkind : slash ∉ principalKind) (hname : slash ∉ principalName)

include hkind hname

theorem hasCapability_applyTo :
    HasCapability (change.applyTo principalKind principalName table).toFactTable
        (inlineRoleName principalKind principalName) capability ↔
      match change with
      | .grant granted _ =>
        isValidCapability granted = true ∧ capability = granted ∨
          HasCapability table.toFactTable (inlineRoleName principalKind principalName) capability
      | .revoke revoked =>
        HasCapability table.toFactTable (inlineRoleName principalKind principalName) capability ∧
          (capability = [] ∨ capability ≠ revoked) := by
  have hrole := slash_notMem_inlineRoleName hkind hname
  have hgrant : keyAuthRoleCapability (inlineRoleName principalKind principalName) capability ≠
      keyAuthGrant principalKind principalName (inlineRoleName principalKind principalName) :=
    Apart.fieldKey_ne (by decide) _ _ _ _
  unfold HasCapability
  simp only [← value_isSome]
  cases change with
  | grant granted scope =>
    simp only [value_applyTo_grant, capabilityKey_inj,
      capabilityKey_ne_scopeKey hrole hrole, hgrant, or_false]
    split_ifs with h <;> simp [h, hrole]
  | revoke revoked =>
    simp only [value_applyTo_revoke, capabilityKey_inj]
    split_ifs with h
    · simp [h]
    · have hkept : capability = [] ∨ capability ≠ revoked :=
        or_iff_not_imp_left.mpr fun hempty heq => h ⟨heq ▸ hempty, heq⟩
      simp [hkept]

theorem hasScope_applyTo : HasScope (change.applyTo principalKind principalName table).toFactTable
        (inlineRoleName principalKind principalName) scope ↔
      scope ∈ grantedScopes [change] ∨
        HasScope table.toFactTable (inlineRoleName principalKind principalName) scope := by
  have hrole := slash_notMem_inlineRoleName hkind hname
  have hgrant : keyAuthRoleScope (inlineRoleName principalKind principalName) scope ≠
      keyAuthGrant principalKind principalName (inlineRoleName principalKind principalName) :=
    Apart.fieldKey_ne (by decide) _ _ _ _
  unfold HasScope
  simp only [← value_isSome]
  cases change with
  | grant granted asked =>
    simp only [value_applyTo_grant, scopeKey_inj, (capabilityKey_ne_scopeKey hrole hrole).symm,
      hgrant, false_or, grantedScopes]
    by_cases hvalid : isValidCapability granted = true
    · by_cases heq : scope = scopePath asked <;> simp [hvalid, heq, hrole]
    · simp [hvalid]
  | revoke revoked =>
    simp [value_applyTo_revoke, (capabilityKey_ne_scopeKey hrole hrole).symm,
      grantedScopes]

/-! ## A history of changes -/

omit hkind hname in
theorem standing_grant_iff {granted : Capability} {asked : Scope} {later : List RoleChange}
    {capability : Capability} :
    (∃ grant ∈ standing (.grant granted asked :: later), grant.capability = capability) ↔
      (isValidCapability granted = true ∧ .revoke granted ∉ later ∧ granted = capability) ∨
        ∃ grant ∈ standing later, grant.capability = capability := by
  rw [standing]
  split
  next h => simp [h]
  next h =>
    refine ⟨Or.inr, fun hor => hor.resolve_left ?_⟩
    rintro ⟨hvalid, hlater, -⟩
    exact h ⟨hvalid, hlater⟩

/-- The capabilities after a run of changes. -/
theorem hasCapability_applyAll :
    HasCapability (applyAll principalKind principalName table changes).toFactTable
        (inlineRoleName principalKind principalName) capability ↔
      LeavesCapability table.toFactTable (inlineRoleName principalKind principalName) changes
        capability := by
  unfold LeavesCapability
  induction changes generalizing table with
  | nil => simp [applyAll, standing]
  | cons change later ih =>
    rw [applyAll, foldl_cons, ← applyAll, ih, hasCapability_applyTo hkind hname]
    cases change with
    | grant granted scope =>
      -- the new grant counts if it is carried out and not taken back later
      have hnew : (isValidCapability granted = true ∧ capability = granted) ∧
          (capability = [] ∨ .revoke capability ∉ later) ↔
          isValidCapability granted = true ∧ .revoke granted ∉ later ∧ granted = capability := by
        constructor
        · rintro ⟨⟨hvalid, rfl⟩, rfl | hlater⟩
          · exact absurd hvalid (by simp [not_isValidCapability_nil])
          · exact ⟨hvalid, hlater, rfl⟩
        · rintro ⟨hvalid, hlater, rfl⟩
          exact ⟨⟨hvalid, rfl⟩, Or.inr hlater⟩
      rw [standing_grant_iff, or_and_right, hnew]
      simp only [mem_cons, reduceCtorEq, false_or]
      exact or_left_comm.trans or_assoc.symm
    | revoke revoked =>
      simp only [standing, mem_cons, not_or, RoleChange.revoke.injEq]
      rw [and_assoc, ← or_and_left]

theorem hasScope_applyAll :
    HasScope (applyAll principalKind principalName table changes).toFactTable
        (inlineRoleName principalKind principalName) scope ↔
      LeavesScope table.toFactTable (inlineRoleName principalKind principalName) changes scope := by
  unfold LeavesScope
  induction changes generalizing table with
  | nil => simp [applyAll, grantedScopes]
  | cons change later ih =>
    rw [applyAll, foldl_cons, ← applyAll, ih, hasScope_applyTo hkind hname]
    cases change with
    | grant granted asked =>
      by_cases hvalid : isValidCapability granted = true <;>
        simp [grantedScopes, hvalid, or_left_comm, or_assoc]
    | revoke revoked => simp [grantedScopes]

end Named

theorem value_applyAll_of_ne {changes : List RoleChange} {key : Str}
    (hrole : ¬ scanAuthRoles <+: key) (hgrant : key ≠ keyAuthGrant principalKind principalName
      (inlineRoleName principalKind principalName)) :
    (applyAll principalKind principalName table changes).value key = table.value key := by
  induction changes generalizing table with
  | nil => rfl
  | cons change later ih =>
    rw [applyAll, foldl_cons, ← applyAll, ih, value_applyTo_of_ne hrole hgrant]

/-- The binding stands if it did or a grant was made. -/
theorem binding_applyAll : ((applyAll principalKind principalName table changes).value
        (keyAuthGrant principalKind principalName
          (inlineRoleName principalKind principalName))).isSome ↔
      grantedScopes changes ≠ [] ∨ (table.value (keyAuthGrant principalKind principalName
          (inlineRoleName principalKind principalName))).isSome := by
  have hcapability : ∀ capability, keyAuthGrant principalKind principalName
      (inlineRoleName principalKind principalName) ≠
      keyAuthRoleCapability (inlineRoleName principalKind principalName) capability := fun _ =>
    Apart.fieldKey_ne (by decide) _ _ _ _
  induction changes generalizing table with
  | nil => simp [applyAll, grantedScopes]
  | cons change later ih =>
    refine ih.trans ?_
    cases change with
    | grant granted asked =>
      by_cases hvalid : isValidCapability granted = true <;>
        simp [value_applyTo_grant, grantedScopes, hvalid]
    | revoke revoked =>
      simp [value_applyTo_revoke, grantedScopes, hcapability]

theorem agreeBelow_applyAll {scan : Str} (hroles : Apart scan scanAuthRoles)
    (hgrants : Apart scan scanAuthGrants) (base : ValidTable) (changes : List RoleChange) :
    AgreeBelow scan (applyAll principalKind principalName base changes).toFactTable
      base.toFactTable := by
  intro _ hkey
  apply value_applyAll_of_ne (hroles.not_isPrefix hkey)
  rintro rfl
  exact hgrants.not_isPrefix hkey (isPrefix_fieldKey _ _ _)

/-! ## What the history allows -/

section History

variable {authorizer : APIAuthorizer} {principal : Principal} {changes : List RoleChange}

theorem not_bound_group {memberName groupName : Str} :
    ¬ (lit "user:" ++ memberName = lit "group" ++ lit ":" ++ groupName ∨
      wildcardMatches (lit "user:" ++ memberName)
        (lit "group" ++ lit ":" ++ groupName) = true) := by
  have huser : lit "user:" ++ memberName = 117 :: 115 :: (lit "er:" ++ memberName) := rfl
  have hgroup : lit "group" ++ lit ":" ++ groupName = 103 :: (lit "roup:" ++ groupName) := rfl
  rw [huser]
  rintro (heq | hmatches)
  · exact absurd (List.cons.inj heq).1 (by decide)
  · rw [wildcardMatches, Bool.and_eq_true, Str.trimSuffix] at hmatches
    rw [if_pos hmatches.1] at hmatches
    obtain ⟨_, hrest⟩ := Str.hasPrefix_iff.mp hmatches.2
    have hlength : (117 :: 115 :: (lit "er:" ++ memberName) : Str).length - (lit "*").length =
        (lit "er:" ++ memberName).length + 1 := rfl
    exact absurd (List.cons.inj hrest).1 (by decide)

theorem roleAllows_applyAll (hbase : Ungranted authorizer principal base.toFactTable) :
    RoleAllows (applyAll principal.kind principal.name base changes).toFactTable
        principal.string grant ↔
      grantedScopes changes ≠ [] ∧ Addressable principal.kind principal.name ∧
        RoleGrants (applyAll principal.kind principal.name base changes).toFactTable
          (inlineRoleName principal.kind principal.name) grant := by
  constructor
  · rintro ⟨_, roleName, hbound, ⟨kind, name, hkind, hname, hkey, hcase⟩, hgrants⟩
    rw [← value_isSome] at hkey
    by_cases hsame : keyAuthGrant kind name roleName = keyAuthGrant principal.kind principal.name
        (inlineRoleName principal.kind principal.name)
    · obtain ⟨rfl, rfl, rfl⟩ :=
        keyAuthGrant_eq hkind hname (slash_notMem_of_roleGrants hgrants) hsame
      rcases hcase with ⟨hgroup, memberName, -, rfl⟩ | ⟨hgroup, hstring⟩
      · rw [Principal.string, hgroup] at hbound
        exact absurd hbound not_bound_group
      · have hnew : ¬ (base.value (keyAuthGrant principal.kind principal.name
            (inlineRoleName principal.kind principal.name))).isSome := fun hold =>
          hbase.unbound _ _ hbound ⟨_, _, hkind, hname, value_isSome _ _ ▸ hold,
            Or.inr ⟨hgroup, hstring⟩⟩
        exact ⟨(binding_applyAll.mp hkey).resolve_right hnew, ⟨hgroup, hkind, hname⟩, hgrants⟩
    · -- an older grant key would have bound the principal before
      have hgroups : AgreeBelow scanAuthGroups
          (applyAll principal.kind principal.name base changes).toFactTable
          base.toFactTable := agreeBelow_applyAll (by decide) (by decide) base changes
      have hrole : ¬ scanAuthRoles <+: keyAuthGrant kind name roleName :=
        Apart.not_isPrefix (by decide : Apart scanAuthGrants scanAuthRoles)
          (isPrefix_fieldKey _ _ _)
      rw [value_applyAll_of_ne hrole hsame, value_isSome] at hkey
      refine absurd ⟨kind, name, hkind, hname, hkey, hcase.imp ?_ id⟩ (hbase.unbound _ _ hbound)
      rintro ⟨hgroup, memberName, ⟨hslash, hmember⟩, hstring⟩
      exact ⟨hgroup, memberName, ⟨hslash, (hgroups.isSome_iff _ _).mp hmember⟩, hstring⟩
  · rintro ⟨hgranted, ⟨hgroup, hkind, hname⟩, hgrants⟩
    refine ⟨principal.string, _, Or.inl rfl, ⟨principal.kind, principal.name, hkind, hname, ?_,
      Or.inr ⟨hgroup, rfl⟩⟩, hgrants⟩
    rw [← value_isSome]
    exact binding_applyAll.mpr (Or.inl hgranted)

theorem roleGrants_applyAll (hkind : slash ∉ principalKind) (hname : slash ∉ principalName)
    (hgranted : grantedScopes changes ≠ []) :
    RoleGrants (applyAll principalKind principalName base changes).toFactTable
        (inlineRoleName principalKind principalName) grant ↔
      LeavesCapability base.toFactTable (inlineRoleName principalKind principalName) changes
          grant.capability ∧
        LeavesScope base.toFactTable (inlineRoleName principalKind principalName) changes
          grant.scope := by
  obtain ⟨scope, hscope⟩ := exists_mem_of_ne_nil _ hgranted
  unfold RoleGrants
  simp only [builtinRoleCapabilities_inline, not_mem_nil, and_false, false_or,
    hasCapability_applyAll hkind hname, hasScope_applyAll hkind hname]
  refine and_congr_right fun _ => ⟨fun h => h.resolve_right ?_, Or.inl⟩
  rintro ⟨hnone, -⟩
  exact hnone scope (Or.inl hscope)

/-- A standing grant was carried out, and its capability and its scope are left. -/
theorem leaves_of_standing (h : grant ∈ standing changes) :
    LeavesCapability base.toFactTable roleName changes grant.capability ∧
      grant.scope ∈ grantedScopes changes := by
  refine ⟨Or.inl ⟨grant, h, rfl⟩, ?_⟩
  induction changes with
  | nil => cases h
  | cons change later ih =>
    cases change with
    | grant granted asked =>
      rw [standing] at h
      rw [grantedScopes]
      split at h
      next hstands =>
        rw [if_pos hstands.1]
        rcases mem_cons.mp h with rfl | hlater
        · exact mem_cons_self
        · exact mem_cons_of_mem _ (ih hlater)
      next =>
        split
        next => exact mem_cons_of_mem _ (ih h)
        next => exact ih h
    | revoke revoked => exact ih h

/-- What the rebuilt authorizer allows after a run. -/
theorem allows_applyAll (hbase : Ungranted authorizer principal base.toFactTable)
    (hname : principal.name ≠ []) (order : IterationOrder) (capability : Capability)
    (scope : Scope) (resource : Option ResourceContext) :
    ((rebuilt authorizer (applyAll principal.kind principal.name base
        changes).toFactTable).authorizeAPI order principal capability scope resource).1 = .ok () ↔
      grantedScopes changes ≠ [] ∧ Addressable principal.kind principal.name ∧
        ∃ grant : CapabilityGrant,
          LeavesCapability base.toFactTable (inlineRoleName principal.kind principal.name) changes
            grant.capability ∧
          LeavesScope base.toFactTable (inlineRoleName principal.kind principal.name) changes
            grant.scope ∧ grant.covers capability scope = true := by
  have hpolicies : ¬ PolicyAllows (applyAll principal.kind principal.name base
      changes).toFactTable principal capability resource := by
    intro hallows
    obtain ⟨_, _, hstated, -⟩ := hallows.of_agree
      (agreeBelow_applyAll (by decide) (by decide) base changes)
    exact hbase.noPolicies _ _ hstated
  rw [APIAuthorizer.authorizeAPI_ok_iff, rebuilt, allows_reconcile_iff (ValidTable.valid _)]
  simp only [hbase.noBootstrap, hpolicies, false_or, or_false, roleAllows_applyAll hbase,
    ne_eq, hname, not_false_eq_true, true_and]
  constructor
  · rintro ⟨grant, ⟨hgranted, haddress, hgrants⟩, hcovers⟩
    obtain ⟨hcapability, hscope⟩ :=
      (roleGrants_applyAll haddress.2.1 haddress.2.2 hgranted).mp hgrants
    exact ⟨hgranted, haddress, grant, hcapability, hscope, hcovers⟩
  · rintro ⟨hgranted, haddress, grant, hcapability, hscope, hcovers⟩
    exact ⟨grant, ⟨hgranted, haddress,
      (roleGrants_applyAll haddress.2.1 haddress.2.2 hgranted).mpr ⟨hcapability, hscope⟩⟩, hcovers⟩

theorem covers_iff : grant.covers capability scope = true ↔
      (grant.capability = capability ∨ grant.capability = capabilityClusterAdmin) ∧
        Scope.contains grant.scope scope = true := by
  simp [CapabilityGrant.covers, or_comm]

theorem allowsExactly_iff (hbase : Ungranted authorizer principal base.toFactTable)
    (hname : principal.name ≠ []) :
    AllowsExactly (rebuilt authorizer (applyAll principal.kind principal.name base
        changes).toFactTable) principal changes ↔
      ProductStands base.toFactTable principal.kind principal.name changes := by
  unfold AllowsExactly ProductStands
  simp only [allows_applyAll hbase hname, ← covers_iff]
  split
  next haddress =>
    by_cases hgranted : grantedScopes changes = []
    · refine iff_of_true (fun _ capability scope _ => ?_) (Or.inl hgranted)
      refine iff_of_false (fun h => h.1 hgranted) ?_
      rintro ⟨grant, hgrant, -⟩
      obtain ⟨-, hscope⟩ : LeavesCapability base.toFactTable [] changes grant.capability ∧ _ :=
        leaves_of_standing hgrant
      exact ne_nil_of_mem hscope hgranted
    · simp only [hgranted, haddress, not_false_eq_true, true_and, false_or, ne_eq]
      constructor
      · intro h capability scope hcapability hscope
        refine (h .identity capability scope none).mp
          ⟨⟨capability, scope⟩, hcapability, hscope, ?_⟩
        exact covers_iff.mpr ⟨Or.inl rfl, Scope.contains_self scope⟩
      · intro h _ capability scope _
        constructor
        · rintro ⟨_, hcapability, hscope, hcovers⟩
          obtain ⟨grant, hgrant, hstands⟩ := h _ _ hcapability hscope
          obtain ⟨hleft, hbelow⟩ := covers_iff.mp hcovers
          obtain ⟨hmatches, habove⟩ := covers_iff.mp hstands
          refine ⟨grant, hgrant, covers_iff.mpr ⟨?_, Scope.contains_trans habove hbelow⟩⟩
          rcases hmatches with hsame | hadmin
          · exact hsame ▸ hleft
          · exact Or.inr hadmin
        · rintro ⟨grant, hgrant, hcovers⟩
          obtain ⟨hcapability, hscope⟩ := leaves_of_standing hgrant
          exact ⟨grant, hcapability, Or.inl hscope, hcovers⟩
  next haddress =>
    simp only [haddress, false_and, and_false, false_iff]
    constructor
    · intro h
      refine eq_nil_iff_forall_not_mem.mpr fun grant hgrant => ?_
      exact h .identity grant.capability grant.scope none
        ⟨grant, hgrant, covers_iff.mpr ⟨Or.inl rfl, Scope.contains_self _⟩⟩
    · rintro hnone _ _ _ _ ⟨grant, hgrant, -⟩
      rw [hnone] at hgrant
      cases hgrant

theorem applyAll_calls {principalString : Str}
    (hsplit : splitPrincipalString principalString = some (principalKind, principalName))
    {calls : List RoleCall} (hfor : ∀ call ∈ calls, call.IsFor principalString) :
    RoleCall.applyAll table calls =
      applyAll principalKind principalName table (calls.map RoleCall.change) := by
  induction calls generalizing table with
  | nil => rfl
  | cons call later ih =>
    rw [RoleCall.applyAll, foldl_cons, ← RoleCall.applyAll, map_cons,
      applyAll, foldl_cons, ← applyAll,
      RoleCall.applyTo_eq (hfor call mem_cons_self) hsplit,
      ih fun other hother => hfor other (mem_cons_of_mem _ hother)]

end History

end RoleExactness

/-- After any history of calls for a principal without grants, the authorizer allows
exactly what its standing grants cover if and only if no capability is left next to a
scope that it was not granted at. -/
theorem role_history_allows_exactly_iff (authorizer : APIAuthorizer) (base : ValidTable)
    (principal : Principal) (calls : List RoleCall)
    (hsplit : splitPrincipalString principal.string = some (principal.kind, principal.name))
    (hfor : ∀ call ∈ calls, call.IsFor principal.string)
    (hbase : Ungranted authorizer principal base.toFactTable) :
    AllowsExactly (rebuilt authorizer (RoleCall.applyAll base calls).toFactTable) principal
        (calls.map RoleCall.change) ↔
      ProductStands base.toFactTable principal.kind principal.name (calls.map RoleCall.change) := by
  rw [RoleExactness.applyAll_calls hsplit hfor]
  exact RoleExactness.allowsExactly_iff hbase (splitPrincipalString_eq_some hsplit).2.2

/-! ## Two teams -/

namespace RoleExactness

def alice : Principal := ⟨lit "user", lit "alice", [], []⟩

/-- A server on which `user:root` may do everything. -/
def rootServer : Server where
  apiAuthorizer := some { APIAuthorizer.new with
    bootstrapGrants := Map.set ∅ (lit "user:root") [⟨capabilityClusterAdmin, scopeCluster⟩] }

/-- A change for `user:alice`, asked by `user:root`. -/
def rootCall (change : RoleChange) : RoleCall where
  server := rootServer
  order := .identity
  request := ⟨.post, fun _ => [], ⟨lit "user", lit "root", [], []⟩,
    .ok (change.body (lit "user:alice"))⟩
  change := change
  isAdmin := rfl

/-- Reading and updating for one team, then the second taken back. -/
def oneTeam : List RoleChange :=
  [.grant capabilityWorkloadRead (teamScope (lit "a")),
    .grant capabilityWorkloadUpdate (teamScope (lit "a")), .revoke capabilityWorkloadUpdate]

/-- Reading for one team, then updating for another. -/
def twoTeams : List RoleChange :=
  [.grant capabilityWorkloadRead (teamScope (lit "a")),
    .grant capabilityWorkloadUpdate (teamScope (lit "b"))]

def emptyStore : ValidTable := ⟨FactTable.new, valid_new⟩

theorem ungranted_emptyStore (principal : Principal) :
    Ungranted APIAuthorizer.new principal emptyStore.toFactTable where
  noBootstrap := by
    rintro grant ⟨boundPrincipal, -, hmem⟩
    cases hmem
  unbound := by
    rintro boundPrincipal roleName - ⟨_, _, -, -, hsome, -⟩
    cases hsome
  noPolicies := by
    rintro policyName capability ⟨-, hvalue⟩
    cases hvalue

theorem rootCall_isFor (changes : List RoleChange) :
    ∀ call ∈ changes.map rootCall, call.IsFor alice.string := by
  intro call hcall
  obtain ⟨_, -, rfl⟩ := mem_map.mp hcall
  rfl

theorem map_change_rootCall (changes : List RoleChange) :
    (changes.map rootCall).map RoleCall.change = changes := by
  simp [Function.comp_def, rootCall]

end RoleExactness

open RoleExactness in
theorem revoked_allows_exactly :
    AllowsExactly (rebuilt APIAuthorizer.new (RoleCall.applyAll emptyStore
        (oneTeam.map rootCall)).toFactTable) alice
      ((oneTeam.map rootCall).map RoleCall.change) := by
  refine (role_history_allows_exactly_iff _ _ _ _ (by decide) (rootCall_isFor _)
    (ungranted_emptyStore _)).mpr ?_
  rw [map_change_rootCall, ProductStands, if_pos (by decide)]
  refine Or.inr fun capability scope hcapability hscope => ?_
  have hscopes : grantedScopes oneTeam = [teamScope (lit "a"), teamScope (lit "a")] := by decide
  have hstanding : standing oneTeam = [⟨capabilityWorkloadRead, teamScope (lit "a")⟩] := by decide
  rw [LeavesScope, hscopes] at hscope
  rw [LeavesCapability, hstanding] at hcapability
  rw [hstanding]
  rcases hcapability with ⟨grant, hgrant, rfl⟩ | ⟨⟨-, hsome⟩, -⟩
  · rcases hscope with hscope | ⟨-, hsome⟩
    · rw [mem_singleton] at hgrant
      obtain rfl : scope = teamScope (lit "a") := by simpa using hscope
      subst hgrant
      exact ⟨_, mem_singleton.mpr rfl, Or.inl rfl, Scope.contains_self _⟩
    · cases hsome
  · cases hsome

open RoleExactness in
/-- Granted reading for one team and updating for another, a user may read what
belongs to the second. -/
theorem two_teams_are_multiplied : ((rebuilt APIAuthorizer.new (RoleCall.applyAll emptyStore
        (twoTeams.map rootCall)).toFactTable).authorizeAPI .identity alice capabilityWorkloadRead
          (teamScope (lit "b")) none).1 = .ok () ∧
      ¬ ∃ grant ∈ standing ((twoTeams.map rootCall).map RoleCall.change),
        (grant.capability = capabilityWorkloadRead ∨ grant.capability = capabilityClusterAdmin) ∧
          Scope.contains grant.scope (teamScope (lit "b")) = true := by
  have hsplit : splitPrincipalString alice.string = some (alice.kind, alice.name) := by decide
  rw [applyAll_calls hsplit (rootCall_isFor _), map_change_rootCall]
  refine ⟨(allows_applyAll (ungranted_emptyStore alice) (by decide) _ _ _ _).mpr ⟨by decide,
    by decide, ⟨capabilityWorkloadRead, teamScope (lit "b")⟩, ?_, Or.inl (by decide),
    by decide⟩, by decide⟩
  exact Or.inl ⟨⟨capabilityWorkloadRead, teamScope (lit "a")⟩, by decide, rfl⟩

end CCattler.Api
