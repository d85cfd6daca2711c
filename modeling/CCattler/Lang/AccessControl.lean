import CCattler.Lang.Ast
import CCattler.Types.Keys

/-! # Compilation of access control declarations

A declaration becomes a list of facts, in the order in which they are written.
-/

namespace CCattler.Lang

open Go CCattler.Types

/-- `Fact`: a key and a value ready to be written. -/
structure Fact where
  key : Str
  value : Str
  deriving DecidableEq, Repr

/-- `ParseError`, for the compiler's errors: they know no file and no column. -/
structure ParseError where
  line : Int
  message : Str
  sourceLine : Str
  deriving DecidableEq, Repr

def sourceLineAt (sourceLines : List Str) (lineNumber : Int) : Str :=
  if lineNumber < 1 ∨ lineNumber > sourceLines.length then []
  else sourceLines.getD (lineNumber - 1).toNat []

def declarationError (sourceLines : List Str) (line : Int) (message : Str) : ParseError :=
  ⟨line, message, sourceLineAt sourceLines line⟩

def RoleDecl.facts (roleDecl : RoleDecl) : List Fact :=
  roleDecl.capabilities.map (fun capabilityName =>
    ⟨keyAuthRoleCapability roleDecl.name capabilityName, lit "true"⟩) ++
  roleDecl.scopes.map (fun scopePath => ⟨keyAuthRoleScope roleDecl.name scopePath, lit "true"⟩)

def compileRoleDeclaration (roleDecl : RoleDecl) (sourceLines : List Str) :
    Except ParseError (List Fact) :=
  if roleDecl.name = [] then
    .error (declarationError sourceLines roleDecl.line (lit "role name is required"))
  else if roleDecl.capabilities = [] then
    .error (declarationError sourceLines roleDecl.line
      (lit "role must have at least one capability"))
  else .ok roleDecl.facts

def PolicyConditionDecl.facts (policyName : Str) (conditionIndex : Nat)
    (conditionDecl : PolicyConditionDecl) : List Fact :=
  [⟨keyAuthPolicyCondition policyName conditionIndex (lit "field"), conditionDecl.field⟩,
    ⟨keyAuthPolicyCondition policyName conditionIndex (lit "operator"), conditionDecl.operator⟩,
    ⟨keyAuthPolicyCondition policyName conditionIndex (lit "value"), conditionDecl.value⟩]

def conditionFacts (policyName : Str) : Nat → List PolicyConditionDecl → List Fact
  | _, [] => []
  | conditionIndex, conditionDecl :: rest =>
    conditionDecl.facts policyName conditionIndex ++
      conditionFacts policyName (conditionIndex + 1) rest

def PolicyDecl.facts (policyDecl : PolicyDecl) : List Fact :=
  ⟨keyAuthPolicyCapability policyDecl.name, policyDecl.capability⟩ ::
    conditionFacts policyDecl.name 0 policyDecl.conditions

def compilePolicyDeclaration (policyDecl : PolicyDecl) (sourceLines : List Str) :
    Except ParseError (List Fact) :=
  if policyDecl.name = [] then
    .error (declarationError sourceLines policyDecl.line (lit "policy name is required"))
  else if policyDecl.capability = [] then
    .error (declarationError sourceLines policyDecl.line
      (lit "policy must have an \"allow\" clause with a capability"))
  else .ok policyDecl.facts

end CCattler.Lang
