import CCattler.Security.Audit
import CCattler.Security.Capability
import CCattler.Security.Rbac

/-! # Authorization at the API layer

`APIAuthorizer` decides by the grants of the caller, then by policies with conditions,
whatever the order in which the grant maps are visited.
-/

namespace CCattler.Security

open Go List

structure ConditionalPolicy where
  name : Str
  capability : Capability
  conditions : List Condition
  deriving DecidableEq, Repr

/-- `APIAuthorizer`; `audited` tells whether there is an audit log. -/
structure APIAuthorizer where
  grants : Map (List CapabilityGrant)
  bootstrapGrants : Map (List CapabilityGrant)
  policies : List ConditionalPolicy
  audited : Bool

/-- The refusals of `AuthorizeAPI`. -/
inductive APIDenial where
  | incompletePrincipal (kind : Str)
  | denied (principal : Str) (capability : Capability) (scope : Scope) (conditionFailed : Bool)
  deriving DecidableEq

/-- The policy is about the capability, or about all of them. -/
def ConditionalPolicy.concerns (policy : ConditionalPolicy) (capability : Capability) : Bool :=
  policy.capability = capability || policy.capability = capabilityClusterAdmin

/-- `appendMatchingGrants`: the exact entry, then the wildcards as the map is
visited. -/
def appendMatchingGrants (order : IterationOrder) (allGrants : List CapabilityGrant)
    (grantMap : Map (List CapabilityGrant)) (principal : Str) : List CapabilityGrant :=
  allGrants ++ grantMap.get principal [] ++
    (order.visit grantMap.keys).flatMap (fun boundPrincipal =>
      if wildcardMatches boundPrincipal principal then grantMap.get boundPrincipal [] else [])

variable {order : IterationOrder} {grant : CapabilityGrant}

namespace APIAuthorizer

/-- `NewAPIAuthorizer`. -/
def new : APIAuthorizer := ⟨∅, ∅, [], false⟩

section

variable (authorizer : APIAuthorizer)

def replaceGrants (newGrants : Map (List CapabilityGrant)) :
    APIAuthorizer := { authorizer with grants := newGrants }

def replacePolicies (newPolicies : List ConditionalPolicy) :
    APIAuthorizer := { authorizer with policies := newPolicies }

def resolveGrants (order : IterationOrder) (principal : Str) : List CapabilityGrant :=
  appendMatchingGrants order
    (appendMatchingGrants order [] authorizer.bootstrapGrants principal) authorizer.grants principal

def logConditionFailure (principal : Principal) (capability : Capability) (scope : Scope)
    (policy : ConditionalPolicy) : List AuditEntry :=
  if authorizer.audited then
    [{ principal := principal.string
       action := capability
       target := scope
       decision := .deny
       authMethod := []
       policy := policy.name ++ lit ":condition_failed"
       onBehalfOf := [] }]
  else []

end

/-- The first policy that concerns the capability and passes ends the loop. -/
def evaluatePolicies (authorizer : APIAuthorizer) (principal : Principal)
    (capability : Capability) (scope : Scope) (resourceContext : Option ResourceContext) :
    List ConditionalPolicy → Bool × List AuditEntry
  | [] => (false, [])
  | policy :: rest =>
    if evaluateConditions policy.conditions principal resourceContext then (true, [])
    else
      let later := evaluatePolicies authorizer principal capability scope resourceContext rest
      (later.1, authorizer.logConditionFailure principal capability scope policy ++ later.2)

section

variable (authorizer : APIAuthorizer) (order : IterationOrder) (principal : Principal)

/-- `AuthorizeAPI`, with the entries for the audit log. -/
def authorizeAPI (requiredCapability : Capability) (requiredScope : Scope)
    (resourceContext : Option ResourceContext) : Except APIDenial Unit × List AuditEntry :=
  if principal.name = [] then (.error (.incompletePrincipal principal.kind), [])
  else if (authorizer.resolveGrants order principal.string).any
      (fun grant => grant.covers requiredCapability requiredScope) then (.ok (), [])
  else
    let concerned := authorizer.policies.filter (fun policy => policy.concerns requiredCapability)
    let evaluated := authorizer.evaluatePolicies principal requiredCapability requiredScope
      resourceContext concerned
    if evaluated.1 then (.ok (), evaluated.2)
    else (.error (.denied principal.string requiredCapability requiredScope (!concerned.isEmpty)),
      evaluated.2)

def grantedScopes (capability : Capability) : List Scope :=
  if principal.name = [] then []
  else
    ((authorizer.resolveGrants order principal.string).filter (fun grant =>
      grant.capability = capability || grant.capability = capabilityClusterAdmin)).map
      CapabilityGrant.scope

end

/-! ## What is decided -/

variable {authorizer : APIAuthorizer} {principal : Principal} {capability : Capability}
  {scope : Scope} {resource : Option ResourceContext}

/-- A grant map holds the grant for the principal. -/
def Holds (grantMap : Map (List CapabilityGrant)) (principal : Str) (grant : CapabilityGrant) :
    Prop :=
  ∃ boundPrincipal, (boundPrincipal = principal ∨ wildcardMatches boundPrincipal principal = true) ∧
    grant ∈ grantMap.get boundPrincipal []

theorem mem_appendMatchingGrants {allGrants : List CapabilityGrant}
    {grantMap : Map (List CapabilityGrant)} {key : Str} :
    grant ∈ appendMatchingGrants order allGrants grantMap key ↔
      grant ∈ allGrants ∨ Holds grantMap key grant := by
  simp only [appendMatchingGrants, mem_append, mem_flatMap,
    (order.visit_perm grantMap.keys).mem_iff, or_assoc]
  refine or_congr Iff.rfl ⟨?_, ?_⟩
  · rintro (hexact | ⟨bound, -, hmem⟩)
    · exact ⟨key, Or.inl rfl, hexact⟩
    · split at hmem
      next hmatches => exact ⟨bound, Or.inr hmatches, hmem⟩
      next => cases hmem
  · rintro ⟨bound, rfl | hmatches, hmem⟩
    · exact Or.inl hmem
    · refine Or.inr ⟨bound, Map.mem_keys_of_mem_get hmem, ?_⟩
      rw [if_pos hmatches]
      exact hmem

theorem mem_resolveGrants {key : Str} : grant ∈ authorizer.resolveGrants order key ↔
      Holds authorizer.bootstrapGrants key grant ∨ Holds authorizer.grants key grant := by
  rw [resolveGrants, mem_appendMatchingGrants, mem_appendMatchingGrants]
  simp

theorem mem_grantedScopes : scope ∈ authorizer.grantedScopes order principal capability ↔
      principal.name ≠ [] ∧ ∃ grant, (Holds authorizer.bootstrapGrants principal.string grant ∨
        Holds authorizer.grants principal.string grant) ∧
        (grant.capability = capability ∨ grant.capability = capabilityClusterAdmin) ∧
        grant.scope = scope := by
  unfold grantedScopes
  split
  next hname => simp [hname]
  next hname => simp [hname, mem_resolveGrants, and_assoc]

theorem evaluatePolicies_iff {policies : List ConditionalPolicy} :
    (authorizer.evaluatePolicies principal capability scope resource policies).1 = true ↔
      ∃ policy ∈ policies, evaluateConditions policy.conditions principal resource = true := by
  induction policies with
  | nil => simp [evaluatePolicies]
  | cons policy rest ih =>
    simp only [evaluatePolicies]
    split
    next hpass => simp [hpass]
    next hfail => simp [ih, hfail]

/-- The request is allowed by a grant or by a policy. -/
structure Allows (authorizer : APIAuthorizer) (principal : Principal) (capability : Capability)
    (scope : Scope) (resource : Option ResourceContext) : Prop where
  named : principal.name ≠ []
  granted : (∃ grant, (Holds authorizer.bootstrapGrants principal.string grant ∨
      Holds authorizer.grants principal.string grant) ∧ grant.covers capability scope = true) ∨
    ∃ policy ∈ authorizer.policies, policy.concerns capability = true ∧
      evaluateConditions policy.conditions principal resource = true

theorem authorizeAPI_ok_iff (order : IterationOrder) :
    (authorizer.authorizeAPI order principal capability scope resource).1 = .ok () ↔
      authorizer.Allows principal capability scope resource := by
  have hgrants : (authorizer.resolveGrants order principal.string).any
      (fun grant => grant.covers capability scope) = true ↔
      ∃ grant, (Holds authorizer.bootstrapGrants principal.string grant ∨
        Holds authorizer.grants principal.string grant) ∧ grant.covers capability scope = true := by
    simp [mem_resolveGrants]
  have hpolicies : (authorizer.evaluatePolicies principal capability scope resource
      (authorizer.policies.filter (fun policy => policy.concerns capability))).1 = true ↔
      ∃ policy ∈ authorizer.policies, policy.concerns capability = true ∧
        evaluateConditions policy.conditions principal resource = true := by
    simp only [evaluatePolicies_iff, mem_filter, and_assoc]
  unfold authorizeAPI
  dsimp only
  split
  next hname => exact ⟨fun h => (by cases h), fun h => absurd hname h.named⟩
  next hname =>
    split
    next hany => exact iff_of_true rfl ⟨hname, Or.inl (hgrants.mp hany)⟩
    next hnone =>
      split
      next hpass => exact iff_of_true rfl ⟨hname, Or.inr (hpolicies.mp hpass)⟩
      next hfail =>
        refine ⟨fun h => (by cases h), fun h => ?_⟩
        rcases h.granted with hgrant | hpolicy
        · exact absurd (hgrants.mpr hgrant) hnone
        · exact absurd (hpolicies.mpr hpolicy) hfail

end APIAuthorizer

end CCattler.Security
