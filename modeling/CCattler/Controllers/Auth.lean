import CCattler.Controllers.WatchedFacts
import CCattler.Security.ApiAuthorizer

/-! # The authorization controller

`AuthController` rebuilds the grants and the policies from the facts below `auth/`.
What the authorizer then decides is characterised by the presence of keys.
-/

namespace CCattler.Controllers

open Go Store CCattler.Types Security List Map
open Str (slash splitN)

variable {resource : Option ResourceContext} {grant : CapabilityGrant} {capability : Capability}
  {policyName value roleName scan principalKey component : Str} {principal : Principal}
  {conditionIndex : Int} {fact : Fact} {condition : Condition}

namespace AuthController

def watch : List Str := [scanAuthRoles, scanAuthGrants, scanAuthGroups, scanAuthPolicies]

/-- The entity and the item of a key `{scan}{entity}/{kind}/{item}`. -/
def entityItem (scan kind : Str) (fact : Fact) : Option (Str × Str) :=
  match splitN slash 3 (fact.key.trimPrefix scan) with
  | [entity, middle, item] => if middle = kind then some (entity, item) else none
  | _ => none

/-- The loop shared by the three functions below. -/
def itemsByEntity (scan kind : Str) (facts : List Fact) : Map (List Str) :=
  Map.gather ((factsWithPrefix facts scan).filterMap (entityItem scan kind))

variable (facts : List Fact)

def parseRoleCapabilitiesFromFacts : Map (List Capability) :=
  itemsByEntity scanAuthRoles (lit "capability") facts

def parseRoleScopesFromFacts : Map (List Scope) :=
  itemsByEntity scanAuthRoles (lit "scope") facts

def parseGroupMembersFromFacts : Map (List Str) :=
  itemsByEntity scanAuthGroups (lit "member") facts

variable (groupMembers : Map (List Str))

/-- The principals that a grant fact binds to its role; a grant to a group binds
the members. -/
def boundPrincipals (fact : Fact) : List (Str × Str) :=
  match splitN slash 4 (fact.key.trimPrefix scanAuthGrants) with
  | [principalKind, principalName, middle, roleName] =>
    if middle = lit "role" then
      if principalKind = lit "group" then
        (groupMembers.get principalName []).map (fun memberName =>
          (lit "user:" ++ memberName, roleName))
      else [(principalKind ++ lit ":" ++ principalName, roleName)]
    else []
  | _ => []

def parsePrincipalRolesFromFacts : Map (List Str) :=
  Map.gather ((factsWithPrefix facts scanAuthGrants).flatMap (boundPrincipals groupMembers))

/-- The capabilities of a role at its scopes, with the defaults for missing ones. -/
def grantsOfRole (roleCapabilities : Map (List Capability)) (roleScopes : Map (List Scope))
    (roleName : Str) : List CapabilityGrant :=
  let capabilities := roleCapabilities.get roleName []
  if capabilities = [] then builtinRoleCapabilities roleName
  else
    let found := roleScopes.get roleName []
    let scopes := if found = [] then [scopeCluster] else found
    capabilities.flatMap (fun capability => scopes.map (fun scope => ⟨capability, scope⟩))

def buildCapabilityGrants (principalRoles : Map (List Str))
    (roleCapabilities : Map (List Capability)) (roleScopes : Map (List Scope)) :
    Map (List CapabilityGrant) :=
  principalRoles.sortedKeys.foldl (fun newGrants principalKey =>
    newGrants.set principalKey
      ((principalRoles.get principalKey []).flatMap (grantsOfRole roleCapabilities roleScopes))) ∅

/-! ## Policies -/

/-- The loop of `parseConditionIndex`, in machine arithmetic. -/
def parseConditionIndexFrom : Int → Str → Int
  | conditionIndex, [] => conditionIndex
  | conditionIndex, b :: rest =>
    match digitValue b with
    | none => -1
    | some digit => parseConditionIndexFrom (wrap64 (conditionIndex * 10 + digit)) rest

def parseConditionIndex (indexString : Str) : Int :=
  if indexString = [] then -1 else parseConditionIndexFrom 0 indexString

/-- The policy and the capability of a key `auth/policy/{name}/capability`. -/
def policyCapability (fact : Fact) : Option (Str × Str) :=
  match splitN slash 4 (fact.key.trimPrefix scanAuthPolicies) with
  | [policyName, subKey] =>
    if subKey = lit "capability" then some (policyName, fact.value) else none
  | _ => none

/-- The policy, the index and the value of a key
`auth/policy/{name}/condition/{index}/{component}`. -/
def policyComponent (component : Str) (fact : Fact) : Option (Str × (Int × Str)) :=
  match splitN slash 4 (fact.key.trimPrefix scanAuthPolicies) with
  | [policyName, subKey, indexString, componentType] =>
    if subKey = lit "condition" ∧ 0 ≤ parseConditionIndex indexString ∧
        componentType = component then
      some (policyName, parseConditionIndex indexString, fact.value)
    else none
  | _ => none

/-- `policyConditionComponents`. The inner maps are lists of assignments, of
which the last one counts. -/
structure PolicyConditionComponents where
  capabilities : Map Str
  fields : Map (List (Int × Str))
  operators : Map (List (Int × Str))
  values : Map (List (Int × Str))

def collectPolicyConditionComponentsFromFacts : PolicyConditionComponents :=
  let policyFacts := factsWithPrefix facts scanAuthPolicies
  { capabilities := Map.ofPairs (policyFacts.filterMap policyCapability)
    fields := Map.gather (policyFacts.filterMap (policyComponent (lit "field")))
    operators := Map.gather (policyFacts.filterMap (policyComponent (lit "operator")))
    values := Map.gather (policyFacts.filterMap (policyComponent (lit "value"))) }

/-- The complete conditions with an index up to the largest one that has a field. -/
def assembleConditions (fieldMap operatorMap valueMap : List (Int × Str)) : List Condition :=
  let maxIndex := (fieldMap.map Prod.fst).foldl max (-1)
  (List.range (maxIndex + 1).toNat).filterMap (fun conditionIndex : Nat =>
    match assigned fieldMap conditionIndex, assigned operatorMap conditionIndex,
        assigned valueMap conditionIndex with
    | some fieldValue, some operatorValue, some valueStr =>
      some ⟨fieldValue, operatorValue, valueStr⟩
    | _, _, _ => none)

def assembleConditionsForPolicy (policyName : Str) (components : PolicyConditionComponents) :
    List Condition :=
  assembleConditions (components.fields.get policyName []) (components.operators.get policyName [])
    (components.values.get policyName [])

def parseConditionalPoliciesFromFacts : List ConditionalPolicy :=
  let components := collectPolicyConditionComponentsFromFacts facts
  (components.capabilities.sortedKeys.map (fun policyName =>
    (⟨policyName, components.capabilities.get policyName [],
      assembleConditionsForPolicy policyName components⟩ : ConditionalPolicy))).filter
    (fun policy => policy.conditions ≠ [])

/-- `Reconcile`: it writes no facts, and leaves the rebuilt authorizer. -/
def reconcile (authorizer : APIAuthorizer) (facts : List Fact) : APIAuthorizer :=
  let roleCapabilities := parseRoleCapabilitiesFromFacts facts
  let roleScopes := parseRoleScopesFromFacts facts
  let groupMembers := parseGroupMembersFromFacts facts
  let principalRoles := parsePrincipalRolesFromFacts facts groupMembers
  (authorizer.replaceGrants
    (buildCapabilityGrants principalRoles roleCapabilities roleScopes)).replacePolicies
    (parseConditionalPoliciesFromFacts facts)

/-- The authorizer after the controller has run on the store. -/
def rebuilt (authorizer : APIAuthorizer) (table : FactTable) : APIAuthorizer :=
  reconcile authorizer (visible watch table.allFacts)

/-! ## What the facts say -/

section Reading

variable {table : FactTable}

theorem nonOverlapping_watch : NonOverlapping watch := by decide

theorem entityItem_eq_some {kind : Str} (hkind : slash ∉ kind) (hstarts : scan <+: fact.key)
    {entity item : Str} :
    entityItem scan kind fact = some (entity, item) ↔
      slash ∉ entity ∧ fact.key = fieldKey scan entity (kind ++ slash :: item) := by
  obtain ⟨rest, hrest⟩ := hstarts
  rw [entityItem, ← hrest, Str.trimPrefix_append]
  constructor
  · intro h
    split at h
    next _ _ _ hsplit =>
      split at h
      next hmiddle =>
        obtain ⟨rfl, rfl⟩ := Prod.mk.inj (Option.some.inj h)
        obtain ⟨rfl, hfound, -⟩ := Str.splitN_three_iff.mp hsplit
        exact ⟨hfound, by rw [hmiddle, fieldKey]⟩
      next => cases h
    next => cases h
  · rintro ⟨hentity, hkey⟩
    have hrel : rest = entity ++ slash :: (kind ++ slash :: item) :=
      append_cancel_left hkey
    have hsplit := Str.splitN_three_iff.mpr ⟨hrel, hentity, hkind⟩
    simp [hsplit]

theorem mem_itemsByEntity (hvalid : table.Valid) {kind : Str} (hscan : scan ∈ watch)
    (hkind : slash ∉ kind) {entity item : Str} :
    item ∈ (itemsByEntity scan kind (visible watch table.allFacts)).get entity [] ↔ slash ∉ entity ∧
        (table.facts (fieldKey scan entity (kind ++ slash :: item))).isSome := by
  rw [itemsByEntity, mem_gather, mem_filterMap]
  constructor
  · rintro ⟨fact, hmem, hitem⟩
    obtain ⟨hfact, hstarts⟩ := (mem_watched hvalid nonOverlapping_watch hscan).mp hmem
    obtain ⟨hentity, hkey⟩ := (entityItem_eq_some hkind hstarts).mp hitem
    rw [hkey] at hfact
    exact ⟨hentity, by rw [hfact]; rfl⟩
  · rintro ⟨hentity, hsome⟩
    have hstarts := isPrefix_fieldKey scan entity (kind ++ slash :: item)
    obtain ⟨_, hvalue⟩ := Option.isSome_iff_exists.mp ((FactTable.value_isSome _ _).trans hsome)
    obtain ⟨fact, hmem, hkey, -⟩ :=
      (exists_watched_iff hvalid nonOverlapping_watch hscan).mpr ⟨hstarts, hvalue⟩
    exact ⟨fact, hmem, (entityItem_eq_some hkind (hkey ▸ hstarts)).mpr ⟨hentity, hkey⟩⟩

theorem capabilityKey_inj {other : Capability} :
    keyAuthRoleCapability roleName capability = keyAuthRoleCapability roleName other ↔
      capability = other := by
  simp [keyAuthRoleCapability, fieldKey]

theorem scopeKey_inj {scope other : Scope} :
    keyAuthRoleScope roleName scope = keyAuthRoleScope roleName other ↔ scope = other := by
  simp [keyAuthRoleScope, fieldKey]

theorem capabilityKey_ne_scopeKey {other : Str} (hrole : slash ∉ roleName)
    (hother : slash ∉ other) {scope : Scope} :
    keyAuthRoleCapability roleName capability ≠ keyAuthRoleScope other scope := by
  intro hkey
  obtain ⟨-, hfield⟩ := (fieldKey_inj hrole hother).mp hkey
  exact absurd ((Str.append_sep_inj (by decide) (by decide)).mp hfield).1 (by decide)

section

variable (table : FactTable)

/-- The role has the capability. -/
def HasCapability (roleName : Str) (capability : Capability) : Prop :=
  slash ∉ roleName ∧ (table.facts (keyAuthRoleCapability roleName capability)).isSome

/-- The role has the scope. -/
def HasScope (roleName : Str) (scope : Scope) : Prop :=
  slash ∉ roleName ∧ (table.facts (keyAuthRoleScope roleName scope)).isSome

/-- The group has the member. -/
def HasMember (groupName memberName : Str) : Prop :=
  slash ∉ groupName ∧ (table.facts (keyAuthGroupMember groupName memberName)).isSome

/-- The grant key is bound to the role, by itself or through a group. -/
def Binds (principalKey roleName : Str) : Prop :=
  ∃ principalKind principalName, slash ∉ principalKind ∧ slash ∉ principalName ∧
    (table.facts (keyAuthGrant principalKind principalName roleName)).isSome ∧
    ((principalKind = lit "group" ∧ ∃ memberName, HasMember table principalName memberName ∧
        principalKey = lit "user:" ++ memberName) ∨
      (principalKind ≠ lit "group" ∧ principalKey = principalKind ++ lit ":" ++ principalName))

/-- What a role grants. -/
def RoleGrants (roleName : Str) (grant : CapabilityGrant) : Prop :=
  ((∀ capability, ¬ HasCapability table roleName capability) ∧
      grant ∈ builtinRoleCapabilities roleName) ∨
    (HasCapability table roleName grant.capability ∧ (HasScope table roleName grant.scope ∨
        (∀ scope, ¬ HasScope table roleName scope) ∧ grant.scope = scopeCluster))

/-- The principal is bound to a role that grants this. -/
def RoleAllows (principal : Str) (grant : CapabilityGrant) : Prop :=
  ∃ boundPrincipal roleName,
    (boundPrincipal = principal ∨ wildcardMatches boundPrincipal principal = true) ∧
    Binds table boundPrincipal roleName ∧ RoleGrants table roleName grant

end

/-- The roles parsed are those the table binds. -/
theorem mem_principalRoles (hvalid : table.Valid) :
    roleName ∈ (parsePrincipalRolesFromFacts (visible watch table.allFacts)
        (parseGroupMembersFromFacts (visible watch table.allFacts))).get principalKey [] ↔
      Binds table principalKey roleName := by
  have hmembers : ∀ {groupName memberName},
      memberName ∈ (parseGroupMembersFromFacts (visible watch table.allFacts)).get groupName [] ↔
        HasMember table groupName memberName :=
    mem_itemsByEntity hvalid (by decide) (by decide)
  rw [parsePrincipalRolesFromFacts, mem_gather, mem_flatMap]
  constructor
  · rintro ⟨fact, hmem, hbound⟩
    obtain ⟨hfact, _, hrest⟩ := (mem_watched hvalid nonOverlapping_watch (by decide)).mp hmem
    rw [← hrest] at hfact
    rw [boundPrincipals, ← hrest] at hbound
    split at hbound
    next principalKind principalName _ role hsplit =>
      obtain ⟨rfl, hkind, hname, -⟩ := Str.splitN_four_iff.mp hsplit
      split at hbound
      next hrole =>
        subst hrole
        split at hbound
        next hgroup =>
          obtain ⟨memberName, hmember, heq⟩ := mem_map.mp hbound
          obtain ⟨rfl, rfl⟩ := Prod.mk.inj heq
          exact ⟨principalKind, principalName, hkind, hname,
            Option.isSome_iff_exists.mpr ⟨fact, hfact⟩,
            Or.inl ⟨hgroup, memberName, hmembers.mp hmember, rfl⟩⟩
        next hother =>
          obtain ⟨rfl, rfl⟩ := Prod.mk.inj (mem_singleton.mp hbound)
          exact ⟨principalKind, principalName, hkind, hname,
            Option.isSome_iff_exists.mpr ⟨fact, hfact⟩, Or.inr ⟨hother, rfl⟩⟩
      next => cases hbound
    next => cases hbound
  · rintro ⟨principalKind, principalName, hkind, hname, hsome, hbinds⟩
    obtain ⟨fact, hfact⟩ := Option.isSome_iff_exists.mp hsome
    have hkey := hvalid.stamped.key_eq hfact
    have hsplit := (@Str.splitN_four_iff slash _ principalKind principalName (lit "role")
      roleName).mpr ⟨rfl, hkind, hname, by decide⟩
    refine ⟨fact, (mem_watched hvalid nonOverlapping_watch (by decide)).mpr
      ⟨hkey.symm ▸ hfact, ?_⟩, ?_⟩
    · rw [hkey]
      exact isPrefix_fieldKey _ _ _
    · rw [boundPrincipals, hkey, keyAuthGrant, fieldKey, Str.trimPrefix_append, hsplit]
      dsimp only
      rcases hbinds with ⟨rfl, memberName, hmember, rfl⟩ | ⟨hother, rfl⟩
      · exact mem_map.mpr ⟨memberName, hmembers.mpr hmember, rfl⟩
      · rw [if_neg hother]
        exact mem_singleton.mpr rfl

/-- The grants of a role are those the table states. -/
theorem mem_grantsOfRole (hvalid : table.Valid) :
    grant ∈ grantsOfRole (parseRoleCapabilitiesFromFacts (visible watch table.allFacts))
        (parseRoleScopesFromFacts (visible watch table.allFacts)) roleName ↔
      RoleGrants table roleName grant := by
  have hcapabilities : ∀ {capability}, capability ∈
      (parseRoleCapabilitiesFromFacts (visible watch table.allFacts)).get roleName [] ↔
        HasCapability table roleName capability :=
    mem_itemsByEntity hvalid (by decide) (by decide)
  have hscopes : ∀ {scope}, scope ∈
      (parseRoleScopesFromFacts (visible watch table.allFacts)).get roleName [] ↔
        HasScope table roleName scope :=
    mem_itemsByEntity hvalid (by decide) (by decide)
  have hbare := (@eq_nil_iff_forall_not_mem _ _).trans
    (forall_congr' fun _ => not_congr hcapabilities)
  have hplain := (@eq_nil_iff_forall_not_mem _ _).trans (forall_congr' fun _ => not_congr hscopes)
  obtain ⟨capability, scope⟩ := grant
  rw [grantsOfRole, RoleGrants]
  rw [← hbare, ← hplain]
  split
  next hnone => simp [hnone, hbare.mp hnone]
  next hsome =>
    simp only [hsome, false_and, false_or, mem_flatMap, mem_map, CapabilityGrant.mk.injEq,
      hcapabilities]
    split
    next hempty => simp [hempty, hplain.mp hempty]
    next hscoped => simp [hscoped, hscopes]

/-- A principal's grants are those of its roles. -/
theorem mem_buildCapabilityGrants {principalRoles : Map (List Str)}
    {roleCapabilities : Map (List Capability)} {roleScopes : Map (List Scope)} :
    grant ∈ (buildCapabilityGrants principalRoles roleCapabilities roleScopes).get principalKey [] ↔
      ∃ roleName ∈ principalRoles.get principalKey [],
        grant ∈ grantsOfRole roleCapabilities roleScopes roleName := by
  let granted := fun key : Str =>
    (principalRoles.get key []).flatMap (grantsOfRole roleCapabilities roleScopes)
  have hpairs : buildCapabilityGrants principalRoles roleCapabilities roleScopes =
      ofPairs (principalRoles.sortedKeys.map (fun key => (key, granted key))) := by
    rw [ofPairs, foldl_map]
    rfl
  rw [hpairs, ← mem_flatMap]
  by_cases hkey : principalKey ∈ principalRoles.keys
  · have hfound := mem_map_of_mem (f := fun key => (key, granted key)) (mem_sortedKeys.mpr hkey)
    rw [Map.get, (lookup_ofPairs_iff ?_).mpr hfound]
    · rfl
    · simp only [mem_map]
      rintro _ ⟨_, -, rfl⟩ _ ⟨_, -, rfl⟩ rfl
      rfl
  · refine iff_of_false (fun hmem => hkey ?_) fun hmem => hkey ?_
    · obtain ⟨_, hpair⟩ := mem_keys_ofPairs.mp (mem_keys_of_mem_get hmem)
      obtain ⟨_, hmem, heq⟩ := mem_map.mp hpair
      exact (Prod.mk.inj heq).1 ▸ mem_sortedKeys.mp hmem
    · obtain ⟨_, hmem, -⟩ := mem_flatMap.mp hmem
      exact mem_keys_of_mem_get hmem

theorem holds_reconcile_iff (hvalid : table.Valid) (authorizer : APIAuthorizer) {principal : Str} :
    APIAuthorizer.Holds (reconcile authorizer (visible watch table.allFacts)).grants principal
        grant ↔ RoleAllows table principal grant := by
  simp only [APIAuthorizer.Holds, reconcile, APIAuthorizer.replaceGrants,
    APIAuthorizer.replacePolicies, mem_buildCapabilityGrants, mem_principalRoles hvalid,
    mem_grantsOfRole hvalid]
  constructor
  · rintro ⟨bound, hbound, roleName, hbinds, hgrants⟩
    exact ⟨bound, roleName, hbound, hbinds, hgrants⟩
  · rintro ⟨bound, roleName, hbound, hbinds, hgrants⟩
    exact ⟨bound, hbound, roleName, hbinds, hgrants⟩

/-! ## What the policy facts say -/

/-- The key of a condition component under any spelling of the index. -/
def conditionKey (policyName indexString component : Str) : Str :=
  fieldKey scanAuthPolicies policyName
    (lit "condition" ++ slash :: (indexString ++ slash :: component))

/-- The policy is stated with the capability. -/
def StatesCapability (table : FactTable) (policyName : Str) (capability : Capability) : Prop :=
  slash ∉ policyName ∧ table.value (keyAuthPolicyCapability policyName) = some capability

/-- The index is spelled so in a key of the policy. -/
structure Spells (table : FactTable) (policyName component : Str) (conditionIndex : Int)
    (indexString value : Str) : Prop where
  name_noSlash : slash ∉ policyName
  noSlash : slash ∉ indexString
  nonneg : 0 ≤ conditionIndex
  parsed : parseConditionIndex indexString = conditionIndex
  present : table.value (conditionKey policyName indexString component) = some value

/-- The component of the condition with the index. If several keys spell the
index, the last one counts. -/
def StatesComponent (table : FactTable) (policyName component : Str) (conditionIndex : Int)
    (value : Str) : Prop :=
  ∃ indexString, Spells table policyName component conditionIndex indexString value ∧
    ∀ otherString other, Spells table policyName component conditionIndex otherString other →
      conditionKey policyName otherString component ≤ conditionKey policyName indexString component

/-- The policy has the condition, with all three components. -/
def StatesCondition (table : FactTable) (policyName : Str) (condition : Condition) : Prop :=
  ∃ conditionIndex, StatesComponent table policyName (lit "field") conditionIndex condition.field ∧
    StatesComponent table policyName (lit "operator") conditionIndex condition.operator ∧
    StatesComponent table policyName (lit "value") conditionIndex condition.value

theorem assigned_filterMap_iff {facts : List Fact} (hsorted : KeySorted facts)
    {pick : Fact → Option (Int × Str)} (spelled : Str → Str → Prop)
    (hpick : ∀ fact ∈ facts, ∀ found,
      pick fact = some (conditionIndex, found) ↔ spelled fact.key found)
    (hfacts : ∀ key found, spelled key found → ∃ fact ∈ facts, fact.key = key) :
    assigned (facts.filterMap pick) conditionIndex = some value ↔
      ∃ key, spelled key value ∧ ∀ other found, spelled other found → other ≤ key := by
  rw [assigned_eq_some_iff]
  constructor
  · rintro ⟨_, _, heq, hlater⟩
    obtain ⟨before, _, rfl, -, hrest⟩ := filterMap_eq_append_iff.mp heq
    obtain ⟨_, fact, after, rfl, _, hfact, hafter⟩ :=
      filterMap_eq_cons_iff.mp hrest
    refine ⟨fact.key, (hpick fact (by simp) value).mp hfact, ?_⟩
    intro _ found hspelled
    obtain ⟨other, hother, rfl⟩ := hfacts _ found hspelled
    have hpicked := (hpick other hother found).mpr hspelled
    rw [← append_assoc] at hother hsorted
    rcases mem_append.mp hother with hearlier | hmem
    · exact List.le_of_lt ((pairwise_append.mp hsorted).2.2 other hearlier fact (by simp))
    · rcases mem_cons.mp hmem with rfl | hmem
      · exact List.le_refl _
      · refine absurd rfl (hlater (conditionIndex, found) ?_)
        rw [← hafter]
        exact mem_filterMap.mpr ⟨other, hmem, hpicked⟩
  · rintro ⟨key, hspelled, hlast⟩
    obtain ⟨fact, hfact, rfl⟩ := hfacts key value hspelled
    have hpicked := (hpick fact hfact value).mpr hspelled
    obtain ⟨before, after, rfl⟩ := append_of_mem hfact
    refine ⟨before.filterMap pick, after.filterMap pick, ?_, ?_⟩
    · rw [filterMap_append, filterMap_cons_some hpicked]
    · rintro ⟨_, found⟩ hmem rfl
      obtain ⟨other, hother, hotherPick⟩ := mem_filterMap.mp hmem
      have hle := hlast _ found ((hpick other (by simp [hother]) found).mp hotherPick)
      have hlt : fact.key < other.key :=
        (pairwise_cons.mp (pairwise_append.mp hsorted).2.1).1 other hother
      exact absurd hlt hle

theorem policyCapability_eq_some (hstarts : scanAuthPolicies <+: fact.key) :
    policyCapability fact = some (policyName, value) ↔
      slash ∉ policyName ∧ fact.key = keyAuthPolicyCapability policyName ∧ fact.value = value := by
  obtain ⟨rest, hrest⟩ := hstarts
  have hsplit : ∀ {first second : Str}, splitN slash 4 rest = [first, second] ↔
      rest = first ++ slash :: second ∧ slash ∉ first ∧ slash ∉ second := by
    intro first second
    constructor
    · intro h
      obtain ⟨_, rfl, hfirst, htail⟩ := Str.splitN_cons h
      obtain ⟨rfl, hsecond⟩ := Str.splitN_singleton_iff.mp htail
      exact ⟨rfl, hfirst, hsecond⟩
    · rintro ⟨rfl, hfirst, hsecond⟩
      rw [Str.splitN_append hfirst, Str.splitN_singleton_iff.mpr ⟨rfl, hsecond⟩]
  rw [policyCapability, ← hrest, Str.trimPrefix_append]
  constructor
  · intro h
    split at h
    next _ _ hparts =>
      obtain ⟨hrel, hfound, -⟩ := hsplit.mp hparts
      split at h
      next hsub =>
        obtain ⟨rfl, rfl⟩ := Prod.mk.inj (Option.some.inj h)
        exact ⟨hfound, by rw [hrel, hsub, keyAuthPolicyCapability, fieldKey], rfl⟩
      next => cases h
    next => cases h
  · rintro ⟨hname, hkey, rfl⟩
    have hrel : rest = policyName ++ slash :: lit "capability" :=
      append_cancel_left hkey
    rw [hsplit.mpr ⟨hrel, hname, by decide⟩]
    dsimp only
    rw [if_pos rfl]

theorem policyComponent_eq_some (hstarts : scanAuthPolicies <+: fact.key) :
    policyComponent component fact = some (policyName, conditionIndex, value) ↔
      ∃ indexString, slash ∉ policyName ∧ slash ∉ indexString ∧ 0 ≤ conditionIndex ∧
        parseConditionIndex indexString = conditionIndex ∧
        fact.key = conditionKey policyName indexString component ∧ fact.value = value := by
  obtain ⟨rest, hrest⟩ := hstarts
  rw [policyComponent, ← hrest, Str.trimPrefix_append]
  constructor
  · intro h
    split at h
    next _ _ indexString _ hparts =>
      obtain ⟨rfl, hfound, -, hindex⟩ := Str.splitN_four_iff.mp hparts
      split at h
      next hall =>
        obtain ⟨rfl, hpair⟩ := Prod.mk.inj (Option.some.inj h)
        obtain ⟨rfl, rfl⟩ := Prod.mk.inj hpair
        obtain ⟨rfl, hnonneg, rfl⟩ := hall
        exact ⟨indexString, hfound, hindex, hnonneg, rfl, rfl, rfl⟩
      next => cases h
    next => cases h
  · rintro ⟨indexString, hname, hindex, hnonneg, rfl, hkey, rfl⟩
    have hrel : rest = policyName ++ slash ::
        (lit "condition" ++ slash :: (indexString ++ slash :: component)) :=
      append_cancel_left hkey
    rw [Str.splitN_four_iff.mpr ⟨hrel, hname, by decide, hindex⟩]
    dsimp only
    rw [if_pos ⟨rfl, hnonneg, rfl⟩]

theorem conditionKey_isPrefix (policyName indexString component : Str) :
    scanAuthPolicies <+: conditionKey policyName indexString component :=
  isPrefix_fieldKey _ _ _

theorem assigned_component_iff (hvalid : table.Valid) :
    assigned ((Map.gather ((factsWithPrefix (visible watch table.allFacts)
        scanAuthPolicies).filterMap (policyComponent component))).get policyName [])
        conditionIndex = some value ↔
      StatesComponent table policyName component conditionIndex value := by
  have hscan : scanAuthPolicies ∈ watch := by decide
  rw [get_gather, filter_filterMap, map_filterMap, assigned_filterMap_iff (keySorted_watched hvalid
    nonOverlapping_watch hscan) fun key found => ∃ indexString, Spells table policyName component
    conditionIndex indexString found ∧ key = conditionKey policyName indexString component]
  · simp only [forall_exists_index, and_imp]
    constructor
    · rintro ⟨_, ⟨indexString, hspells, rfl⟩, hlast⟩
      exact ⟨indexString, hspells, fun _ _ hother => hlast _ _ _ hother rfl⟩
    · rintro ⟨indexString, hspells, hlast⟩
      refine ⟨_, ⟨indexString, hspells, rfl⟩, ?_⟩
      rintro _ found otherString hother rfl
      exact hlast otherString found hother
  · -- a fact that is picked and a key that spells the index are the same thing
    intro fact hmem found
    obtain ⟨hstarts, hvalue⟩ :=
      (exists_watched_iff hvalid nonOverlapping_watch hscan).mp ⟨fact, hmem, rfl, rfl⟩
    have hpick : (((policyComponent component fact).filter
        (fun found => found.1 = policyName)).map Prod.snd) = some (conditionIndex, found) ↔
        policyComponent component fact = some (policyName, conditionIndex, found) := by
      simp only [Option.map_eq_some_iff, Option.filter_eq_some_iff, decide_eq_true_eq]
      constructor
      · rintro ⟨⟨_, _⟩, ⟨hcomponent, rfl⟩, rfl⟩
        exact hcomponent
      · exact fun hcomponent => ⟨_, ⟨hcomponent, rfl⟩, rfl⟩
    rw [hpick, policyComponent_eq_some hstarts]
    constructor
    · rintro ⟨indexString, hname, hindex, hnonneg, hparsed, hkey, rfl⟩
      exact ⟨indexString, ⟨hname, hindex, hnonneg, hparsed, hkey ▸ hvalue⟩, hkey⟩
    · rintro ⟨indexString, ⟨hname, hindex, hnonneg, hparsed, hpresent⟩, hkey⟩
      rw [← hkey, hvalue] at hpresent
      exact ⟨indexString, hname, hindex, hnonneg, hparsed, hkey, Option.some.inj hpresent⟩
  · rintro _ found ⟨indexString, hspells, rfl⟩
    obtain ⟨fact, hmem, hkey, -⟩ := (exists_watched_iff hvalid nonOverlapping_watch hscan).mpr
      ⟨conditionKey_isPrefix policyName indexString component, hspells.present⟩
    exact ⟨fact, hmem, hkey⟩

theorem le_foldl_max {items : List Int} {item : Int} (hmem : item ∈ items) (start : Int) :
    item ≤ items.foldl max start := by
  have hstart : ∀ (items : List Int) (start : Int), start ≤ items.foldl max start := by
    intro items
    induction items with
    | nil => exact fun start => Int.le_refl start
    | cons first rest ih => exact fun start => Int.le_trans (Int.le_max_left _ _) (ih _)
  induction items generalizing start with
  | nil => cases hmem
  | cons first rest ih =>
    rcases mem_cons.mp hmem with rfl | hrest
    · exact Int.le_trans (Int.le_max_right _ _) (hstart rest _)
    · exact ih hrest _

/-- A condition is assembled from three parts of one index. -/
theorem mem_assembleConditions {fieldMap operatorMap valueMap : List (Int × Str)} :
    condition ∈ assembleConditions fieldMap operatorMap valueMap ↔
      ∃ conditionIndex : Nat, assigned fieldMap conditionIndex = some condition.field ∧
        assigned operatorMap conditionIndex = some condition.operator ∧
        assigned valueMap conditionIndex = some condition.value := by
  rw [assembleConditions, mem_filterMap]
  constructor
  · rintro ⟨conditionIndex, -, h⟩
    split at h
    next _ _ _ hfield hoperator hvalue =>
      obtain rfl := Option.some.inj h
      exact ⟨conditionIndex, hfield, hoperator, hvalue⟩
    next => cases h
  · rintro ⟨conditionIndex, hfield, hoperator, hvalue⟩
    refine ⟨conditionIndex, ?_, by rw [hfield, hoperator, hvalue]⟩
    obtain ⟨_, _, hlist, -⟩ := assigned_eq_some_iff.mp hfield
    have hle : (conditionIndex : Int) ≤ (fieldMap.map Prod.fst).foldl max (-1) :=
      le_foldl_max (by simp [hlist]) (-1)
    rw [mem_range]
    omega

theorem mem_assembleConditionsForPolicy (hvalid : table.Valid) :
    condition ∈ assembleConditionsForPolicy policyName
        (collectPolicyConditionComponentsFromFacts (visible watch table.allFacts)) ↔
      StatesCondition table policyName condition := by
  rw [assembleConditionsForPolicy, mem_assembleConditions]
  simp only [collectPolicyConditionComponentsFromFacts, assigned_component_iff hvalid]
  constructor
  · rintro ⟨conditionIndex, hall⟩
    exact ⟨conditionIndex, hall⟩
  · rintro ⟨conditionIndex, hall⟩
    have hnonneg : 0 ≤ conditionIndex := by
      obtain ⟨⟨_, hspelled, -⟩, -⟩ := hall
      exact hspelled.nonneg
    obtain ⟨index, rfl⟩ := Int.eq_ofNat_of_zero_le hnonneg
    exact ⟨index, hall⟩

theorem lookup_capabilities_iff (hvalid : table.Valid) : (collectPolicyConditionComponentsFromFacts
        (visible watch table.allFacts)).capabilities.lookup policyName = some capability ↔
      StatesCapability table policyName capability := by
  have hscan : scanAuthPolicies ∈ watch := by decide
  have hstated : ∀ {policyName} found, (policyName, found) ∈ (factsWithPrefix (visible watch
      table.allFacts) scanAuthPolicies).filterMap policyCapability ↔
        StatesCapability table policyName found := by
    intro policyName found
    rw [mem_filterMap]
    constructor
    · rintro ⟨fact, hmem, hfact⟩
      obtain ⟨hstarts, hvalue⟩ :=
        (exists_watched_iff hvalid nonOverlapping_watch hscan).mp ⟨fact, hmem, rfl, rfl⟩
      obtain ⟨hname, hkey, rfl⟩ := (policyCapability_eq_some hstarts).mp hfact
      exact ⟨hname, hkey ▸ hvalue⟩
    · rintro ⟨hname, hvalue⟩
      have hstarts := isPrefix_fieldKey scanAuthPolicies policyName (lit "capability")
      obtain ⟨fact, hmem, hkey, hfound⟩ :=
        (exists_watched_iff hvalid nonOverlapping_watch hscan).mpr ⟨hstarts, hvalue⟩
      exact ⟨fact, hmem, (policyCapability_eq_some (hkey ▸ hstarts)).mpr ⟨hname, hkey, hfound⟩⟩
  rw [collectPolicyConditionComponentsFromFacts, lookup_ofPairs_iff, hstated]
  rintro ⟨_, _⟩ hfirst ⟨_, _⟩ hsecond rfl
  have hsame := ((hstated _).mp hfirst).2
  rw [((hstated _).mp hsecond).2] at hsame
  exact (Option.some.inj hsame).symm

/-- The policy is about the capability, has conditions, and all of them pass. -/
def PolicyPasses (table : FactTable) (policyName : Str) (principal : Principal)
    (capability : Capability) (resource : Option ResourceContext) : Prop :=
  ∃ stated, StatesCapability table policyName stated ∧
    (stated = capability ∨ stated = capabilityClusterAdmin) ∧
    (∃ condition, StatesCondition table policyName condition) ∧
    ∀ condition, StatesCondition table policyName condition →
      evaluateSingleCondition condition principal resource = true

/-- Some policy passes. -/
def PolicyAllows (table : FactTable) (principal : Principal) (capability : Capability)
    (resource : Option ResourceContext) : Prop :=
  ∃ policyName, PolicyPasses table policyName principal capability resource

/-- A parsed policy allows what a stored one passes. -/
theorem policyAllows_iff (hvalid : table.Valid) :
    (∃ policy ∈ parseConditionalPoliciesFromFacts (visible watch table.allFacts),
        policy.concerns capability = true ∧
          evaluateConditions policy.conditions principal resource = true) ↔
      PolicyAllows table principal capability resource := by
  have hlookup {policyName capability} :=
    @lookup_capabilities_iff capability policyName table hvalid
  have hconditions {policyName condition} :=
    @mem_assembleConditionsForPolicy policyName condition table hvalid
  simp only [parseConditionalPoliciesFromFacts, mem_filter, mem_map,
    ConditionalPolicy.concerns, evaluateConditions, all_eq_true, decide_eq_true_eq,
    Bool.or_eq_true]
  constructor
  · rintro ⟨policy, ⟨⟨policyName, hkey, rfl⟩, hne⟩, hconcerns, hall⟩
    obtain ⟨stated, hstated⟩ := Option.isSome_iff_exists.mp
      (AList.lookup_isSome.mpr (AList.mem_keys.mpr (mem_sortedKeys.mp hkey)))
    obtain ⟨condition, hcondition⟩ := exists_mem_of_ne_nil _ hne
    rw [Map.get, hstated] at hconcerns
    exact ⟨policyName, stated, hlookup.mp hstated, hconcerns,
      ⟨condition, hconditions.mp hcondition⟩,
      fun condition hstates => hall condition (hconditions.mpr hstates)⟩
  · rintro ⟨policyName, stated, hstated, hconcerns, ⟨condition, hcondition⟩, hall⟩
    have hfound := hlookup.mpr hstated
    refine ⟨_, ⟨⟨policyName, mem_sortedKeys.mpr (mem_keys_of_lookup hfound), rfl⟩,
      ne_nil_of_mem (hconditions.mpr hcondition)⟩, ?_,
      fun condition hmem => hall condition (hconditions.mp hmem)⟩
    rw [Map.get, hfound]
    exact hconcerns

/-! ## What is allowed after a reconciliation -/

/-- What the reconciled authorizer allows, in stored facts. -/
theorem allows_reconcile_iff (hvalid : table.Valid) (authorizer : APIAuthorizer) {scope : Scope} :
    (reconcile authorizer (visible watch table.allFacts)).Allows principal capability scope
        resource ↔
      principal.name ≠ [] ∧
        ((∃ grant, (APIAuthorizer.Holds authorizer.bootstrapGrants principal.string grant ∨
            RoleAllows table principal.string grant) ∧ grant.covers capability scope = true) ∨
          PolicyAllows table principal capability resource) := by
  have hgrants {grant} := @holds_reconcile_iff grant table hvalid authorizer principal.string
  constructor
  · rintro ⟨hnamed, ⟨grant, hholds, hcovers⟩ | hpolicy⟩
    · exact ⟨hnamed, Or.inl ⟨grant, hholds.imp id hgrants.mp, hcovers⟩⟩
    · exact ⟨hnamed, Or.inr ((policyAllows_iff hvalid).mp hpolicy)⟩
  · rintro ⟨hnamed, ⟨grant, hholds, hcovers⟩ | hpolicy⟩
    · exact ⟨hnamed, Or.inl ⟨grant, hholds.imp id hgrants.mpr, hcovers⟩⟩
    · exact ⟨hnamed, Or.inr ((policyAllows_iff hvalid).mpr hpolicy)⟩

end Reading

/-! ## Tables that agree -/

section Agreement

variable {first second : FactTable}

/-- The tables hold the same values below a prefix. -/
def AgreeBelow (scan : Str) (first second : FactTable) : Prop :=
  ∀ key, scan <+: key → first.value key = second.value key

theorem AgreeBelow.of_common {common : FactTable} (hfirst : AgreeBelow scan first common)
    (hsecond : AgreeBelow scan second common) : AgreeBelow scan first second :=
  fun key hkey => (hfirst key hkey).trans (hsecond key hkey).symm

theorem AgreeBelow.isSome_iff (h : AgreeBelow scan first second) (entity field : Str) :
    (first.facts (fieldKey scan entity field)).isSome ↔
      (second.facts (fieldKey scan entity field)).isSome := by
  rw [← FactTable.value_isSome, ← FactTable.value_isSome, h _ (isPrefix_fieldKey scan entity field)]

theorem agreeBelow_putAll {other : Str} (hapart : Apart scan other) (table : FactTable)
    {entries : List (Str × Str)} (hentries : ∀ entry ∈ entries, other <+: entry.1) :
    AgreeBelow scan (table.putAll entries) table := by
  intro _ hkey
  apply FactTable.putAll_value_of_notMem
  rintro entry hentry rfl
  exact hapart.not_isPrefix hkey (hentries entry hentry)

theorem Binds.of_agree (h : Binds first principalKey roleName)
    (hgrants : AgreeBelow scanAuthGrants first second)
    (hgroups : AgreeBelow scanAuthGroups first second) : Binds second principalKey roleName := by
  obtain ⟨principalKind, principalName, hkind, hname, hgrant, hbinds⟩ := h
  refine ⟨principalKind, principalName, hkind, hname, (hgrants.isSome_iff _ _).mp hgrant, ?_⟩
  refine hbinds.imp ?_ id
  rintro ⟨hgroup, memberName, ⟨hslash, hmember⟩, hkey⟩
  exact ⟨hgroup, memberName, ⟨hslash, (hgroups.isSome_iff _ _).mp hmember⟩, hkey⟩

/-- A policy reads its own keys only. -/
theorem PolicyPasses.of_agree (h : PolicyPasses first policyName principal capability resource)
    (hagree : AgreeBelow (fieldKey scanAuthPolicies policyName []) first second) :
    PolicyPasses second policyName principal capability resource := by
  have hfield : ∀ field, first.value (fieldKey scanAuthPolicies policyName field) =
      second.value (fieldKey scanAuthPolicies policyName field) := fun field =>
    hagree _ (fieldKey_nil_isPrefix _ _ _)
  have hspells : ∀ {component conditionIndex indexString value},
      Spells first policyName component conditionIndex indexString value ↔
        Spells second policyName component conditionIndex indexString value := by
    intro component conditionIndex indexString value
    have hkey : first.value (conditionKey policyName indexString component) =
        second.value (conditionKey policyName indexString component) := hfield _
    exact ⟨fun h => ⟨h.1, h.2, h.3, h.4, hkey ▸ h.5⟩,
      fun h => ⟨h.1, h.2, h.3, h.4, hkey.symm ▸ h.5⟩⟩
  have hcondition : ∀ {condition},
      StatesCondition first policyName condition ↔ StatesCondition second policyName condition := by
    simp only [StatesCondition, StatesComponent, hspells, implies_true]
  obtain ⟨stated, ⟨hname, hstated⟩, hconcerns, ⟨condition, hhas⟩, hall⟩ := h
  have hcapability : first.value (keyAuthPolicyCapability policyName) =
      second.value (keyAuthPolicyCapability policyName) := hfield _
  exact ⟨stated, ⟨hname, hcapability ▸ hstated⟩, hconcerns, ⟨condition, hcondition.mp hhas⟩,
    fun other hother => hall other (hcondition.mpr hother)⟩

theorem PolicyAllows.of_agree (h : PolicyAllows first principal capability resource)
    (hagree : AgreeBelow scanAuthPolicies first second) :
    PolicyAllows second principal capability resource := by
  obtain ⟨policyName, hpasses⟩ := h
  refine ⟨policyName, hpasses.of_agree fun key hkey => hagree key ?_⟩
  exact (isPrefix_fieldKey _ _ _).trans hkey

theorem RoleGrants.of_agree (h : RoleGrants first roleName grant)
    (hagree : AgreeBelow scanAuthRoles first second) : RoleGrants second roleName grant := by
  have hcapability : ∀ {capability}, HasCapability first roleName capability ↔
      HasCapability second roleName capability := and_congr_right fun _ => hagree.isSome_iff _ _
  have hscope : ∀ {scope}, HasScope first roleName scope ↔ HasScope second roleName scope :=
    and_congr_right fun _ => hagree.isSome_iff _ _
  unfold RoleGrants at h ⊢
  simpa only [hcapability, hscope] using h

/-- The roles read the three auth scans only. -/
theorem RoleAllows.of_agree {principal : Str} (h : RoleAllows first principal grant)
    (hroles : AgreeBelow scanAuthRoles first second)
    (hgrants : AgreeBelow scanAuthGrants first second)
    (hgroups : AgreeBelow scanAuthGroups first second) : RoleAllows second principal grant := by
  obtain ⟨boundPrincipal, roleName, hbound, hbinds, hrole⟩ := h
  exact ⟨boundPrincipal, roleName, hbound, hbinds.of_agree hgrants hgroups, hrole.of_agree hroles⟩

end Agreement

/-! ## Spellings of an index -/

theorem parseConditionIndexFrom_of_parseUintFrom {start number : Nat} {text : Str}
    (h : parseUintFrom start text = .ok number) (hfits : number < 2 ^ 63) :
    parseConditionIndexFrom start text = number := by
  induction text generalizing start with
  | nil =>
    obtain rfl := Except.ok.inj h
    rfl
  | cons b rest ih =>
    simp only [parseUintFrom] at h
    rw [parseConditionIndexFrom]
    cases hdigit : digitValue b with
    | none =>
      rw [hdigit] at h
      cases h
    | some digit =>
      rw [hdigit] at h
      dsimp only at h ⊢
      split at h
      next => cases h
      next =>
        have hle := le_of_parseUintFrom h
        have hstep : wrap64 ((start : Int) * 10 + (digit : Int)) =
            ((start * 10 + digit : Nat) : Int) := by
          have hwrap := wrap64_natCast (n := start * 10 + digit) (by omega)
          push_cast at hwrap ⊢
          exact hwrap
        rw [hstep]
        exact ih h

theorem parseConditionIndex_itoa {conditionIndex : Nat}
    (hfits : (conditionIndex : Int) ≤ maxInt64) :
    parseConditionIndex (itoa conditionIndex) = conditionIndex := by
  have hlt : conditionIndex < 2 ^ 63 := by
    unfold maxInt64 at hfits
    omega
  have hread := parseUint_natDigits (n := conditionIndex) (by omega)
  obtain ⟨b, rest, hdigits, -⟩ := exists_natDigits_cons conditionIndex
  have hitoa : itoa conditionIndex = b :: rest := hdigits
  rw [hdigits] at hread
  rw [parseConditionIndex, hitoa]
  exact parseConditionIndexFrom_of_parseUintFrom hread hlt

end AuthController

end CCattler.Controllers
