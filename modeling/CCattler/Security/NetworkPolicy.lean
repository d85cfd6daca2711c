import CCattler.Store.Values
import CCattler.Types.Keys

/-! # Network policy between services

`NetworkPolicyEngine` reads rules `source:target:port:action`. A denial counts more than
an allowance, and without a rule the answer is deny.
-/

namespace CCattler.Security

open Go Store CCattler.Types

/-- `PolicyAction`, a string type: a rule may carry any text. -/
abbrev PolicyAction := Str

def policyAllow : PolicyAction := lit "allow"

def policyDeny : PolicyAction := lit "deny"

structure NetworkPolicyRule where
  name : Str
  sourceService : Str
  targetService : Str
  port : Int
  action : PolicyAction
  deriving DecidableEq, Repr

def parseNetworkPolicyRule (name value : Str) : Option NetworkPolicyRule :=
  match Str.splitN Str.colon 4 value with
  | [source, target, portText, action] =>
    if portText = [] then some ⟨name, source, target, 0, action⟩
    else
      match parseInt portText with
      | (parsedPort, none) => some ⟨name, source, target, parsedPort, action⟩
      | (_, some _) => none
  | _ => none

def matchesRule (rule : NetworkPolicyRule) (sourceService targetService : Str)
    (port : Int) : Bool :=
  (rule.sourceService = lit "*" || rule.sourceService = sourceService) &&
    (rule.targetService = lit "*" || rule.targetService = targetService) &&
    (rule.port = 0 || rule.port = port)

/-- A loop for a rule that denies, then one for a rule that allows. -/
def denyOverrides {Rule : Type} (action : Rule → PolicyAction) (applies : Rule → Bool)
    (rules : List Rule) : PolicyAction :=
  if rules.any (fun rule => action rule = policyDeny && applies rule) then policyDeny
  else if rules.any (fun rule => action rule = policyAllow && applies rule) then policyAllow
  else policyDeny

namespace NetworkPolicyEngine

/-- `ListRules`: a fact that does not parse is skipped. -/
def listRules (facts : List Fact) : List NetworkPolicyRule :=
  facts.filterMap (fun fact =>
    parseNetworkPolicyRule (fact.key.trimPrefix scanNetworkPolicies) fact.value)

/-- `Evaluate` on a store. -/
def evaluate (table : FactTable) (sourceService targetService : Str) (port : Int) :
    PolicyAction :=
  denyOverrides NetworkPolicyRule.action
    (fun rule => matchesRule rule sourceService targetService port)
    (listRules (table.scanned scanNetworkPolicies))

end NetworkPolicyEngine

section Decisions

variable {Rule : Type} {action : Rule → PolicyAction} {applies : Rule → Bool} {rules : List Rule}

theorem denyOverrides_eq_allow_iff : denyOverrides action applies rules = policyAllow ↔
      (¬∃ rule ∈ rules, action rule = policyDeny ∧ applies rule = true) ∧
        ∃ rule ∈ rules, action rule = policyAllow ∧ applies rule = true := by
  have hdiffer : policyDeny ≠ policyAllow := by decide
  have hany (wanted : PolicyAction) :
      rules.any (fun rule => action rule = wanted && applies rule) = true ↔
        ∃ rule ∈ rules, action rule = wanted ∧ applies rule = true := by
    simp
  rw [← hany, ← hany, denyOverrides]
  by_cases hdeny : rules.any (fun rule => action rule = policyDeny && applies rule) = true
  · simp [hdeny, hdiffer]
  · by_cases hallow : rules.any (fun rule => action rule = policyAllow && applies rule) = true
    · simp [hdeny, hallow]
    · simp [hdeny, hdiffer]

theorem denyOverrides_eq_iff {Other : Type} {otherAction : Other → PolicyAction}
    {otherApplies : Other → Bool} {others : List Other} :
    denyOverrides action applies rules = denyOverrides otherAction otherApplies others ↔
      (denyOverrides action applies rules = policyAllow ↔
        denyOverrides otherAction otherApplies others = policyAllow) := by
  have hdiffer : policyDeny ≠ policyAllow := by decide
  unfold denyOverrides
  split_ifs <;> simp [hdiffer, hdiffer.symm]

end Decisions

end CCattler.Security
