import CCattler.Api.Http
import CCattler.Types.Keys

/-! # Role grants over HTTP

`POST /api/role` and `DELETE /api/role` write and delete the facts from which the
auth controller rebuilds the grants. A capability granted directly goes to a role
of the principal's own, the inline role.
-/

namespace CCattler.Api

open Go Store CCattler.Types Security Handler

structure RoleGrantRequestBody where
  principal : Str
  role : Str
  capability : Capability
  scope : Scope
  deriving DecidableEq, Repr

def parseRoleRequestBody (request : Request RoleGrantRequestBody) :
    Except Response RoleGrantRequestBody :=
  match request.body with
  | .error .unreadable => .error (.error statusBadRequest (lit "cannot read request body"))
  | .error .invalidJSON => .error (.error statusBadRequest (lit "invalid JSON"))
  | .ok requestBody =>
    if requestBody.principal = [] then
      .error (.error statusBadRequest (lit "principal is required"))
    else .ok requestBody

variable (principalString : Str)

/-- `splitPrincipalString`: the kind and the name, around the first colon. -/
def splitPrincipalString : Option (Str × Str) :=
  (Str.cut (lit ":") principalString).filter (fun parts => parts.1 ≠ [] ∧ parts.2 ≠ [])

def isValidCapability (capabilityName : Str) : Bool := allCapabilities.contains capabilityName

def inlineRoleName (principalKind principalName : Str) : Str :=
  lit "inline-" ++ principalKind ++ lit "-" ++ principalName

def scopePath (scope : Scope) : Scope := if scope = [] then lit "cluster" else scope

section

variable (server : Server) (order : IterationOrder) (request : Request RoleGrantRequestBody)

/-- The checks that grants and revokes begin with: the body, and the kind and the
name of its principal. -/
def Server.roleRequest : Except Response (RoleGrantRequestBody × Str × Str) := do
  server.requireCapability order request capabilityClusterAdmin scopeCluster
  let requestBody ← parseRoleRequestBody request
  match splitPrincipalString requestBody.principal with
  | none =>
    throw (.error statusBadRequest
      (lit "invalid principal format — use kind:name (e.g. user:alice)"))
  | some (principalKind, principalName) => pure (requestBody, principalKind, principalName)

def Server.handleRoleGrant : Handler Response := do
  let (requestBody, principalKind, principalName) ← server.roleRequest order request
  if requestBody.role ≠ [] then
    let _ ← Handler.put (keyAuthGrant principalKind principalName requestBody.role) (lit "true")
    return .ok none
  else if requestBody.capability ≠ [] then
    if isValidCapability requestBody.capability then
      let roleName := inlineRoleName principalKind principalName
      let _ ← Handler.put (keyAuthRoleCapability roleName requestBody.capability) (lit "true")
      let _ ← Handler.put (keyAuthRoleScope roleName (scopePath requestBody.scope)) (lit "true")
      let _ ← Handler.put (keyAuthGrant principalKind principalName roleName) (lit "true")
      return .ok none
    else
      throw (.error statusBadRequest (lit "unknown capability: " ++ requestBody.capability))
  else
    throw (.error statusBadRequest (lit "either role or capability is required"))

/-- `handleRoleRevoke`: the scopes of the inline role and its binding stay. -/
def Server.handleRoleRevoke : Handler Response := do
  let (requestBody, principalKind, principalName) ← server.roleRequest order request
  if requestBody.role ≠ [] then
    Handler.delete (keyAuthGrant principalKind principalName requestBody.role)
    return .ok none
  else if requestBody.capability ≠ [] then
    Handler.delete (keyAuthRoleCapability (inlineRoleName principalKind principalName)
      requestBody.capability)
    return .ok none
  else
    throw (.error statusBadRequest (lit "either role or capability is required"))

end

/-! ## Capability changes -/

/-- A capability granted to a principal or revoked from it, as asked. -/
inductive RoleChange where
  | grant (capability : Capability) (scope : Scope)
  | revoke (capability : Capability)
  deriving DecidableEq, Repr

/-- The body of the request for the change. -/
def RoleChange.body : RoleChange → RoleGrantRequestBody
  | .grant capability scope => ⟨principalString, [], capability, scope⟩
  | .revoke capability => ⟨principalString, [], capability, []⟩

/-- A request for a change to a principal by an authorized caller. -/
structure RoleCall where
  server : Server
  order : IterationOrder
  request : Request RoleGrantRequestBody
  change : RoleChange
  isAdmin : server.requireCapability order request capabilityClusterAdmin scopeCluster = .ok ()

variable (call : RoleCall)

/-- The call asks for its change to the principal. -/
def RoleCall.IsFor (principalString : Str) : Prop :=
  call.request.body = .ok (call.change.body principalString)

def RoleCall.handler : Handler Response :=
  match call.change with
  | .grant _ _ => call.server.handleRoleGrant call.order call.request
  | .revoke _ => call.server.handleRoleRevoke call.order call.request

/-- The store after the call. -/
def RoleCall.applyTo (table : ValidTable) : ValidTable :=
  (call.handler.runOn table).2

/-- What a change does to the store. -/
def RoleChange.applyTo (principalKind principalName : Str) (table : ValidTable) :
    RoleChange → ValidTable
  | .grant capability scope =>
    let roleName := inlineRoleName principalKind principalName
    if isValidCapability capability then
      ((table.after (.put (keyAuthRoleCapability roleName capability) (lit "true"))).after
        (.put (keyAuthRoleScope roleName (scopePath scope)) (lit "true"))).after
        (.put (keyAuthGrant principalKind principalName roleName) (lit "true"))
    else table
  | .revoke capability =>
    if capability = [] then table
    else table.after
      (.delete (keyAuthRoleCapability (inlineRoleName principalKind principalName) capability))

section

variable (principalKind principalName : Str) (table : ValidTable) (capability : Capability)

/-- What a grant writes, key by key. -/
theorem RoleChange.value_applyTo_grant (scope : Scope) (key : Str) :
    ((RoleChange.grant capability scope).applyTo principalKind principalName table).value key =
      if isValidCapability capability = true ∧
          (key = keyAuthRoleCapability (inlineRoleName principalKind principalName) capability ∨
            key = keyAuthRoleScope (inlineRoleName principalKind principalName) (scopePath scope) ∨
            key = keyAuthGrant principalKind principalName
              (inlineRoleName principalKind principalName))
      then some (lit "true") else table.value key := by
  by_cases hvalid : isValidCapability capability = true
  · simp only [RoleChange.applyTo, hvalid, if_true, ValidTable.value_after_put]
    split_ifs <;> simp_all
  · simp only [RoleChange.applyTo, hvalid, if_false, false_and, Bool.false_eq_true]

/-- What a revocation deletes, key by key. -/
theorem RoleChange.value_applyTo_revoke (key : Str) :
    ((RoleChange.revoke capability).applyTo principalKind principalName table).value key =
      if capability ≠ [] ∧
          key = keyAuthRoleCapability (inlineRoleName principalKind principalName) capability
      then none else table.value key := by
  by_cases hempty : capability = []
  · simp [RoleChange.applyTo, hempty]
  · simp only [RoleChange.applyTo, hempty, if_false, ValidTable.value_after_delete, ne_eq,
      not_false_eq_true, true_and]

end

/-- The split is at a colon between nonempty parts. -/
theorem splitPrincipalString_eq_some {principalString principalKind principalName : Str}
    (h : splitPrincipalString principalString = some (principalKind, principalName)) :
    principalString = principalKind ++ lit ":" ++ principalName ∧ principalKind ≠ [] ∧
      principalName ≠ [] := by
  obtain ⟨hcut, hparts⟩ := Option.filter_eq_some_iff.mp h
  have hboth : principalKind ≠ [] ∧ principalName ≠ [] := by simpa using hparts
  exact ⟨Str.cut_eq_some hcut, hboth⟩

theorem not_isValidCapability_nil : isValidCapability [] = false := by decide

theorem RoleChange.body_principal (change : RoleChange) :
    (change.body principalString).principal = principalString := by
  cases change <;> rfl

variable {call : RoleCall} {principalString principalKind principalName : Str}
  (hfor : call.IsFor principalString)
  (hsplit : splitPrincipalString principalString = some (principalKind, principalName))
include hfor hsplit

theorem RoleCall.roleRequest_eq : call.server.roleRequest call.order call.request =
      .ok (call.change.body principalString, principalKind, principalName) := by
  obtain ⟨hstring, hkind, -⟩ := splitPrincipalString_eq_some hsplit
  have hne : principalString ≠ [] := by
    rw [hstring]
    simp [hkind]
  have hprincipal := call.change.body_principal principalString
  have hparsed : parseRoleRequestBody call.request = .ok (call.change.body principalString) := by
    rw [parseRoleRequestBody, hfor]
    exact if_neg (hprincipal.symm ▸ hne)
  rw [Server.roleRequest, call.isAdmin, hparsed]
  change (match splitPrincipalString (call.change.body principalString).principal with
    | none => _
    | some (kind, name) => _) = _
  rw [hprincipal, hsplit]
  rfl

theorem RoleCall.applyTo_eq (table : ValidTable) :
    call.applyTo table = call.change.applyTo principalKind principalName table := by
  have hchecked := RoleCall.roleRequest_eq hfor hsplit
  rw [RoleCall.applyTo, RoleCall.handler]
  cases hchange : call.change with
  | grant capability scope =>
    rw [hchange] at hchecked
    simp only [Server.handleRoleGrant, hchecked, runOn_bind, runOn_lift,
      RoleChange.body, ne_eq, not_true_eq_false, if_false, RoleChange.applyTo]
    by_cases hempty : capability = []
    · simp [hempty, not_isValidCapability_nil]
    · rw [if_pos hempty]
      split
      next => simp
      next => rfl
  | revoke capability =>
    rw [hchange] at hchecked
    simp only [Server.handleRoleRevoke, hchecked, runOn_bind, runOn_lift,
      RoleChange.body, ne_eq, not_true_eq_false, if_false, RoleChange.applyTo]
    by_cases hempty : capability = []
    · simp [hempty]
    · rw [if_pos hempty, if_neg hempty, runOn_bind_pure_table, runOn_delete_table]

end CCattler.Api
