import CCattler.Go.Map

/-! # Role-based access control of the store layer

Principals are bound to roles by name or by a wildcard, and a grant on a prefix extends
to every key below it.
-/

namespace CCattler.Security

open Go List

inductive Permission where
  | read
  | write
  | delete
  | watch
  deriving DecidableEq, Repr

/-- `Rule`: operations allowed on the keys with a prefix. -/
structure Rule where
  keyPrefix : Str
  operations : List Permission

structure Role where
  name : Str
  rules : List Rule

/-- `RBACAuthorizer`: the roles by name, and the role names bound to a principal. -/
structure RBACAuthorizer where
  roles : Map Role
  bindings : Map (List Str)

/-- The two refusals of `Authorize`. -/
inductive RBACError where
  | noRoleBindings (principal : Str)
  | denied (principal : Str) (operation : Permission) (key : Str)
  deriving DecidableEq

/-- Whether a binding for a principal ending in `*` matches. -/
def wildcardMatches (boundPrincipal principal : Str) : Bool :=
  boundPrincipal.hasSuffix (lit "*") && principal.hasPrefix (boundPrincipal.trimSuffix (lit "*"))

/-- The rule applies to the key and allows the operation. -/
def Rule.allows (rule : Rule) (operation : Permission) (key : Str) : Bool :=
  key.hasPrefix rule.keyPrefix && rule.operations.contains operation

namespace RBACAuthorizer

section

variable (authorizer : RBACAuthorizer) (order : IterationOrder) (principal : Str)

/-- `resolveRoleNames`: the exact binding first, then the wildcards as the map is
visited. -/
def resolveRoleNames : List Str :=
  authorizer.bindings.get principal [] ++
    (order.visit authorizer.bindings.keys).flatMap (fun boundPrincipal =>
      if wildcardMatches boundPrincipal principal then authorizer.bindings.get boundPrincipal []
      else [])

def authorize (operation : Permission) (key : Str) : Except RBACError Unit :=
  let roleNames := authorizer.resolveRoleNames order principal
  if roleNames = [] then .error (.noRoleBindings principal)
  else if roleNames.any (fun roleName =>
      -- a bound role that does not exist is skipped
      match authorizer.roles.lookup roleName with
      | none => false
      | some role => role.rules.any (fun rule => rule.allows operation key)) then .ok ()
  else .error (.denied principal operation key)

end

/-- Some role bound to the principal grants the operation on a prefix of the key. -/
def Permits (authorizer : RBACAuthorizer) (principal : Str) (operation : Permission) (key : Str) :
    Prop :=
  ∃ boundPrincipal roleNames roleName role rule,
    authorizer.bindings.lookup boundPrincipal = some roleNames ∧
    (boundPrincipal = principal ∨ wildcardMatches boundPrincipal principal = true) ∧
    roleName ∈ roleNames ∧ authorizer.roles.lookup roleName = some role ∧ rule ∈ role.rules ∧
    rule.keyPrefix <+: key ∧ operation ∈ rule.operations

variable {authorizer : RBACAuthorizer} {principal : Str} {operation : Permission} {key : Str}

/-- The roles of the exact and of the wildcard bindings. -/
theorem mem_resolveRoleNames {order : IterationOrder} {roleName : Str} :
    roleName ∈ authorizer.resolveRoleNames order principal ↔
      ∃ boundPrincipal roleNames, authorizer.bindings.lookup boundPrincipal = some roleNames ∧
        (boundPrincipal = principal ∨ wildcardMatches boundPrincipal principal = true) ∧
        roleName ∈ roleNames := by
  have hget : ∀ bound, roleName ∈ authorizer.bindings.get bound [] ↔
      ∃ roleNames, authorizer.bindings.lookup bound = some roleNames ∧ roleName ∈ roleNames := by
    intro bound
    unfold Map.get
    cases authorizer.bindings.lookup bound <;> simp
  simp only [resolveRoleNames, mem_append, mem_flatMap,
    (order.visit_perm authorizer.bindings.keys).mem_iff, hget]
  constructor
  · rintro (⟨roleNames, hlookup, hmem⟩ | ⟨bound, -, hmem⟩)
    · exact ⟨principal, roleNames, hlookup, Or.inl rfl, hmem⟩
    · split at hmem
      next hmatches =>
        obtain ⟨roleNames, hlookup, hname⟩ := (hget bound).mp hmem
        exact ⟨bound, roleNames, hlookup, Or.inr hmatches, hname⟩
      next => cases hmem
  · rintro ⟨bound, roleNames, hlookup, rfl | hmatches, hmem⟩
    · exact Or.inl ⟨roleNames, hlookup, hmem⟩
    · refine Or.inr ⟨bound, Map.mem_keys_of_lookup hlookup, ?_⟩
      rw [if_pos hmatches]
      exact (hget bound).mpr ⟨roleNames, hlookup, hmem⟩

theorem authorize_ok_iff (order : IterationOrder) :
    authorizer.authorize order principal operation key = .ok () ↔
      authorizer.Permits principal operation key := by
  have hany : (authorizer.resolveRoleNames order principal).any (fun roleName =>
      match authorizer.roles.lookup roleName with
      | none => false
      | some role => role.rules.any (fun rule => rule.allows operation key)) = true ↔
      authorizer.Permits principal operation key := by
    rw [any_eq_true]
    constructor
    · rintro ⟨roleName, hname, hrole⟩
      obtain ⟨bound, roleNames, hlookup, hbound, hmem⟩ := mem_resolveRoleNames.mp hname
      cases hfound : authorizer.roles.lookup roleName with
      | none => simp [hfound] at hrole
      | some role =>
        simp only [hfound, any_eq_true, Rule.allows, Bool.and_eq_true,
          Str.hasPrefix_iff, contains_iff_mem] at hrole
        obtain ⟨rule, hrule, hstarts, hoperation⟩ := hrole
        exact ⟨bound, roleNames, roleName, role, rule, hlookup, hbound, hmem, hfound, hrule,
          hstarts, hoperation⟩
    · rintro ⟨bound, roleNames, roleName, role, rule, hlookup, hbound, hmem, hfound, hrule,
        hstarts, hoperation⟩
      refine ⟨roleName, mem_resolveRoleNames.mpr ⟨bound, roleNames, hlookup, hbound, hmem⟩, ?_⟩
      simp only [hfound, any_eq_true, Rule.allows, Bool.and_eq_true,
        Str.hasPrefix_iff, contains_iff_mem]
      exact ⟨rule, hrule, hstarts, hoperation⟩
  unfold authorize
  dsimp only
  split
  next hempty =>
    refine ⟨fun h => (by cases h), fun h => ?_⟩
    rw [hempty] at hany
    exact absurd (hany.mpr h) (by simp)
  next =>
    split
    next hallowed => exact ⟨fun _ => hany.mp hallowed, fun _ => rfl⟩
    next hnot => exact ⟨fun h => (by cases h), fun h => absurd (hany.mpr h) hnot⟩

theorem Permits.below (h : authorizer.Permits principal operation key) {longer : Str}
    (hstarts : key <+: longer) : authorizer.Permits principal operation longer := by
  obtain ⟨bound, roleNames, roleName, role, rule, hlookup, hbound, hmem, hfound, hrule, hkey,
    hoperation⟩ := h
  exact ⟨bound, roleNames, roleName, role, rule, hlookup, hbound, hmem, hfound, hrule,
    hkey.trans hstarts, hoperation⟩

end RBACAuthorizer

end CCattler.Security
