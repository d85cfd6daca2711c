import CCattler.Go.Map

/-! # Capabilities, scopes and conditions

The vocabulary of the API layer. Capabilities and scopes may be any text; conditions
fail when an attribute is missing.
-/

namespace CCattler.Security

open Go

/-! ## Capabilities -/

abbrev Capability := Str

def capabilityWorkloadRead : Capability := lit "workload.read"

def capabilityWorkloadCreate : Capability := lit "workload.create"

def capabilityWorkloadUpdate : Capability := lit "workload.update"

def capabilityWorkloadDelete : Capability := lit "workload.delete"

def capabilityWorkloadExec : Capability := lit "workload.exec"

def capabilitySecretMetadataRead : Capability := lit "secret.metadata.read"

def capabilitySecretRead : Capability := lit "secret.read"

def capabilitySecretUse : Capability := lit "secret.use"

def capabilitySecretWrite : Capability := lit "secret.write"

def capabilityNodeRead : Capability := lit "node.read"

def capabilityNodeManage : Capability := lit "node.manage"

def capabilityPlacementRead : Capability := lit "placement.read"

def capabilityPlacementWrite : Capability := lit "placement.write"

def capabilityScalingRead : Capability := lit "scaling.read"

def capabilityScalingWrite : Capability := lit "scaling.write"

def capabilityClusterAdmin : Capability := lit "cluster.admin"

def allCapabilities : List Capability :=
  [capabilityWorkloadRead, capabilityWorkloadCreate, capabilityWorkloadUpdate,
    capabilityWorkloadDelete, capabilityWorkloadExec, capabilitySecretMetadataRead,
    capabilitySecretRead, capabilitySecretUse, capabilitySecretWrite, capabilityNodeRead,
    capabilityNodeManage, capabilityPlacementRead, capabilityPlacementWrite,
    capabilityScalingRead, capabilityScalingWrite, capabilityClusterAdmin]

/-! ## Scopes -/

abbrev Scope := Str

def scopeCluster : Scope := lit "cluster"

def teamScope (teamName : Str) : Scope := lit "team/" ++ teamName

def Scope.contains (scope child : Scope) : Bool :=
  scope == scopeCluster || scope == child || child.hasPrefix (scope ++ [Str.slash])

theorem Scope.contains_iff {scope child : Scope} : Scope.contains scope child = true ↔
    scope = scopeCluster ∨ scope = child ∨ scope ++ [Str.slash] <+: child := by
  simp [Scope.contains, Str.hasPrefix_iff, or_assoc]

theorem Scope.contains_self (scope : Scope) : Scope.contains scope scope = true :=
  Scope.contains_iff.mpr (Or.inr (Or.inl rfl))

theorem Scope.contains_cluster {scope : Scope} (h : Scope.contains scope scopeCluster = true) :
    scope = scopeCluster := by
  rcases Scope.contains_iff.mp h with hcluster | hsame | hstarts
  · exact hcluster
  · exact hsame
  · have hslash : Str.slash ∈ scopeCluster := hstarts.subset (by simp)
    exact absurd hslash (by decide)

theorem Scope.contains_trans {scope middle child : Scope}
    (hfirst : Scope.contains scope middle = true) (hsecond : Scope.contains middle child = true) :
    Scope.contains scope child = true := by
  rcases Scope.contains_iff.mp hsecond with rfl | rfl | hbelow
  · exact Scope.contains_iff.mpr (Or.inl (Scope.contains_cluster hfirst))
  · exact hfirst
  · rcases Scope.contains_iff.mp hfirst with hcluster | rfl | habove
    · exact Scope.contains_iff.mpr (Or.inl hcluster)
    · exact hsecond
    · refine Scope.contains_iff.mpr (Or.inr (Or.inr ?_))
      exact habove.trans ((List.prefix_append _ _).trans hbelow)

/-! ## Principals and conditions -/

structure Attribute where
  key : Str
  value : Str
  deriving DecidableEq, Repr

/-- `Principal`; the kind is a string type of the source. -/
structure Principal where
  kind : Str
  name : Str
  groups : List Str
  attributes : List Attribute
  deriving DecidableEq, Repr

def Principal.string (principal : Principal) : Str := principal.kind ++ lit ":" ++ principal.name

structure ResourceContext where
  team : Str
  name : Str
  type : Str
  deriving DecidableEq, Repr

/-- `Condition`; an operator read from a fact may be any text. -/
structure Condition where
  field : Str
  operator : Str
  value : Str
  deriving DecidableEq, Repr

/-- A field that is empty counts as missing. -/
def presentField (value : Str) : Option (List Str) := if value = [] then none else some [value]

def resolveSubjectField (attributeName : Str) (principal : Principal) : Option (List Str) :=
  if attributeName = lit "name" then presentField principal.name
  else if attributeName = lit "groups" then
    if principal.groups = [] then none else some principal.groups
  else
    (principal.attributes.find? (fun candidate => candidate.key = attributeName)).map
      (fun found => [found.value])

def resolveResourceField (attributeName : Str) (resourceContext : Option ResourceContext) :
    Option (List Str) :=
  resourceContext.bind (fun resource =>
    if attributeName = lit "team" then presentField resource.team
    else if attributeName = lit "name" then presentField resource.name
    else if attributeName = lit "type" then presentField resource.type
    else none)

/-- `resolveField`: the path is split at its first dot. -/
def resolveField (fieldPath : Str) (principal : Principal)
    (resourceContext : Option ResourceContext) : Option (List Str) :=
  match Str.cut (lit ".") fieldPath with
  | none => none
  | some (objectName, attributeName) =>
    if objectName = lit "subject" then resolveSubjectField attributeName principal
    else if objectName = lit "resource" then resolveResourceField attributeName resourceContext
    else none

def isFieldReference (value : Str) : Bool :=
  value.hasPrefix (lit "subject.") || value.hasPrefix (lit "resource.")

def isValueInCommaSeparatedList (needle commaSeparatedList : Str) : Bool :=
  (Str.split 44 commaSeparatedList).any (fun entry => Str.trimSpace entry = needle)

/-- The comparison of one value; an unknown operator fails. -/
def compareValue (operator leftValue rightValue : Str) : Bool :=
  if operator = lit "==" then leftValue = rightValue
  else if operator = lit "!=" then leftValue ≠ rightValue
  else if operator = lit "in" then isValueInCommaSeparatedList leftValue rightValue
  else if operator = lit "not_in" then !isValueInCommaSeparatedList leftValue rightValue
  else false

/-- One match is enough for `==` and `in`, and is too much for the other two. -/
def evaluateMultiValueCondition (operator : Str) (leftValues : List Str) (rightValue : Str) :
    Bool :=
  if operator = lit "==" ∨ operator = lit "in" then
    leftValues.any (fun leftValue => compareValue operator leftValue rightValue)
  else leftValues.all (fun leftValue => compareValue operator leftValue rightValue) &&
    (operator = lit "!=" ∨ operator = lit "not_in")

/-- The right-hand side: a field reference is resolved to its first value. -/
def resolveRightValue (value : Str) (principal : Principal)
    (resourceContext : Option ResourceContext) : Option Str :=
  if isFieldReference value then
    (resolveField value principal resourceContext).map (fun values => values.headD [])
  else some value

def evaluateSingleCondition (condition : Condition) (principal : Principal)
    (resourceContext : Option ResourceContext) : Bool :=
  match resolveField condition.field principal resourceContext,
      resolveRightValue condition.value principal resourceContext with
  | some leftValues, some rightValue =>
    if leftValues.length > 1 then
      evaluateMultiValueCondition condition.operator leftValues rightValue
    else compareValue condition.operator (leftValues.headD []) rightValue
  | _, _ => false

/-- `EvaluateConditions`: all of them must pass. -/
def evaluateConditions (conditions : List Condition) (principal : Principal)
    (resourceContext : Option ResourceContext) : Bool :=
  conditions.all (fun condition => evaluateSingleCondition condition principal resourceContext)

/-! ## Grants -/

structure CapabilityGrant where
  capability : Capability
  scope : Scope
  deriving DecidableEq, Repr

/-- The grant covers a capability at a scope; `cluster.admin` covers every one. -/
def CapabilityGrant.covers (grant : CapabilityGrant) (capability : Capability) (scope : Scope) :
    Bool :=
  (grant.capability = capabilityClusterAdmin || grant.capability = capability) &&
    Scope.contains grant.scope scope

/-- `BuiltinRoleCapabilities`, without the scope, which is always the cluster. -/
def builtinCapabilities (roleName : Str) : List Capability :=
  if roleName = lit "cluster-admin" then [capabilityClusterAdmin]
  else if roleName = lit "api-reader" then
    [capabilityWorkloadRead, capabilityNodeRead, capabilityPlacementRead, capabilityScalingRead,
      capabilitySecretMetadataRead]
  else if roleName = lit "api-writer" then
    [capabilityWorkloadRead, capabilityWorkloadCreate, capabilityWorkloadUpdate,
      capabilityScalingRead, capabilityScalingWrite, capabilityNodeRead, capabilityPlacementRead,
      capabilitySecretMetadataRead]
  else if roleName = lit "node-agent" then
    [capabilityWorkloadRead, capabilityNodeRead, capabilityPlacementRead]
  else []

def builtinRoleCapabilities (roleName : Str) : List CapabilityGrant :=
  (builtinCapabilities roleName).map (fun capability => ⟨capability, scopeCluster⟩)

end CCattler.Security
