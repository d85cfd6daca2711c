import CCattler.Controllers.Controller
import CCattler.Controllers.Helpers
import CCattler.Security.NetworkPolicy

/-! # The network policy controller

Compiles the policy between services into rules between addresses. The rules of
a node are those whose target is an instance placed on it. They are kept as facts
`derived/network/rule/{node}/{index}` with values `source:target:port:action`.
-/

namespace CCattler.Controllers

open Go Store CCattler.Types Security

/-! ## Reading the facts -/

structure IdentityPolicyRule where
  name : Str
  sourceService : Str
  targetService : Str
  port : Int
  action : PolicyAction
  deriving DecidableEq, Repr

/-- `parseIdentityPolicyRuleValue`: a port that does not parse is logged and
counts as zero. -/
def parseIdentityPolicyRuleValue (ruleName ruleValue : Str) : Option IdentityPolicyRule :=
  match Str.splitN Str.colon 4 ruleValue with
  | [source, target, portText, action] =>
    some ⟨ruleName, source, target, sscanfDecimal portText, action⟩
  | _ => none

variable (facts : List Fact)

def parseIdentityPolicyRulesFromFacts : List IdentityPolicyRule :=
  (factsWithPrefix facts scanNetworkPolicies).filterMap (fun fact =>
    parseIdentityPolicyRuleValue (fact.key.trimPrefix scanNetworkPolicies) fact.value)

structure ServiceEndpointEntry where
  instanceID : Str
  ipAddress : Str
  deriving DecidableEq, Repr

def extractIPFromEndpointValue (endpointValue : Str) : Str :=
  match Str.beforeLast Str.colon endpointValue with
  | none => endpointValue
  | some before => if before = [] then endpointValue else before

/-- `parseEndpointFact`: the service ends at the first slash. -/
def parseEndpointFact (fact : Fact) : Str × Str × Str :=
  match Str.splitN Str.slash 3 (fact.key.trimPrefix scanEndpoints) with
  | serviceName :: instanceID :: _ =>
    (serviceName, instanceID, extractIPFromEndpointValue fact.value)
  | _ => ([], [], [])

/-- The loop of `buildServiceEndpointMapFromFacts`, with the instances seen. -/
def serviceEndpointsFrom (seenInstances : List Str) : List Fact → List (Str × ServiceEndpointEntry)
  | [] => []
  | fact :: rest =>
    let (serviceName, instanceID, ipAddress) := parseEndpointFact fact
    if serviceName = [] ∨ instanceID = [] then serviceEndpointsFrom seenInstances rest
    else
      let dedupKey := serviceName ++ lit ":" ++ instanceID
      if dedupKey ∈ seenInstances then serviceEndpointsFrom seenInstances rest
      else (serviceName, ⟨instanceID, ipAddress⟩) ::
        serviceEndpointsFrom (dedupKey :: seenInstances) rest

def buildServiceEndpointMapFromFacts : Map (List ServiceEndpointEntry) :=
  Map.gather (serviceEndpointsFrom [] (factsWithPrefix facts scanEndpoints))

def buildInstanceNodeMapFromPlacements : Map Str :=
  Map.ofPairs ((factsWithPrefix facts scanPlacements).map (fun fact =>
    (fact.key.trimPrefix scanPlacements, fact.value)))

/-! ## Compiling the rules -/

structure TargetNodeEntry where
  ipAddress : Str
  nodeID : Str
  deriving DecidableEq, Repr

section

variable (serviceName : Str) (serviceEndpoints : Map (List ServiceEndpointEntry))

/-- `resolveServiceToIPAddresses`: any source stays any source. -/
def resolveServiceToIPAddresses : List Str :=
  if serviceName = lit "*" then [lit "*"]
  else (serviceEndpoints.get serviceName []).map ServiceEndpointEntry.ipAddress

/-- Instances without a placement are left out, and any target is no service. -/
def resolveServiceToTargetNodeEntries (instanceNodeMap : Map Str) : List TargetNodeEntry :=
  (serviceEndpoints.get serviceName []).filterMap (fun endpoint =>
    (instanceNodeMap.lookup endpoint.instanceID).map (fun nodeID => ⟨endpoint.ipAddress, nodeID⟩))

end

def formatCompiledFirewallRule (sourceIP targetIP : Str) (port : Int) (action : PolicyAction) :
    Str :=
  sourceIP ++ Str.colon :: (targetIP ++ Str.colon :: (itoa port ++ Str.colon :: action))

/-- `appendCompiledRulesForPolicyRule`: the node and the value of each rule. -/
def compiledRulesForPolicyRule (sourceIPs : List Str) (targetEntries : List TargetNodeEntry)
    (rule : IdentityPolicyRule) : List (Str × Str) :=
  targetEntries.flatMap (fun target => sourceIPs.map (fun sourceIP =>
    (target.nodeID, formatCompiledFirewallRule sourceIP target.ipAddress rule.port rule.action)))

def sortCompiledRulesPerNode (rulesPerNode : Map (List Str)) : Map (List Str) :=
  rulesPerNode.keys.foldl (fun sorted nodeID => sorted.update nodeID [] sortStrings) rulesPerNode

def compileIdentityRulesToIPRulesPerNode (policyRules : List IdentityPolicyRule)
    (serviceEndpoints : Map (List ServiceEndpointEntry)) (instanceNodeMap : Map Str) :
    Map (List Str) :=
  sortCompiledRulesPerNode (Map.gather (policyRules.flatMap (fun rule =>
    compiledRulesForPolicyRule (resolveServiceToIPAddresses rule.sourceService serviceEndpoints)
      (resolveServiceToTargetNodeEntries rule.targetService serviceEndpoints instanceNodeMap)
      rule)))

/-! ## The difference -/

def parseDerivedNetworkRuleKey (factKey : Str) : Option (Str × Int) :=
  match splitFactKeyIntoEntityAndSuffix factKey scanDerivedNetworkRules with
  | none => none
  | some (nodeID, indexString) =>
    match parseInt indexString with
    | (ruleIndex, none) => some (nodeID, ruleIndex)
    | (_, some _) => none

def existingRule (fact : Fact) : Option (Str × Int × Str) :=
  (parseDerivedNetworkRuleKey fact.key).map (fun place => (place.1, place.2, fact.value))

/-- `collectExistingDerivedNetworkRules`; the rules of a node are kept as
assignments to their indices. -/
def collectExistingDerivedNetworkRules : Map (List (Int × Str)) :=
  Map.gather ((factsWithPrefix facts scanDerivedNetworkRules).filterMap existingRule)

/-- The deletes of one node's rules whose index passes the test, in some order. -/
def deletesForNode (nodeID : Str) (existingForNode : List (Int × Str)) (test : Int → Bool) :
    List Change :=
  (((existingForNode.map Prod.fst).dedup).filter test).map (fun ruleIndex =>
    Change.delete (keyDerivedNetworkRule nodeID ruleIndex))

def removeExcessRulesForNode (nodeID : Str) (desiredCount : Nat)
    (existingForNode : List (Int × Str)) : List Change :=
  deletesForNode nodeID existingForNode (fun ruleIndex => (desiredCount : Int) ≤ ruleIndex)

def putsForNode (nodeID : Str) (desiredRules : List Str) (existingForNode : List (Int × Str)) :
    List Change :=
  desiredRules.zipIdx.filterMap (fun (ruleValue, ruleIndex) =>
    if existingForNode ≠ [] ∧ (assigned existingForNode ruleIndex).getD [] = ruleValue then none
    else some (Change.put (keyDerivedNetworkRule nodeID ruleIndex) ruleValue))

section

variable (order : IterationOrder) (desiredRulesPerNode : Map (List Str))
  (existingRulesPerNode : Map (List (Int × Str)))

def diffDesiredNodeRules : List Change :=
  (order.visit desiredRulesPerNode.keys).flatMap (fun nodeID =>
    let desiredRules := desiredRulesPerNode.get nodeID []
    let existingForNode := existingRulesPerNode.get nodeID []
    putsForNode nodeID desiredRules existingForNode ++
      removeExcessRulesForNode nodeID desiredRules.length existingForNode)

def removeStaleNodeRules : List Change :=
  (order.visit existingRulesPerNode.keys).flatMap (fun nodeID =>
    if desiredRulesPerNode.has nodeID then []
    else deletesForNode nodeID (existingRulesPerNode.get nodeID []) (fun _ => true))

def diffDerivedNetworkRules : List Change :=
  diffDesiredNodeRules order desiredRulesPerNode existingRulesPerNode ++
    removeStaleNodeRules order desiredRulesPerNode existingRulesPerNode

end

namespace NetworkPolicyController

def watch : List Str :=
  [scanNetworkPolicies, scanEndpoints, scanPlacements, scanDerivedNetworkRules]

def desiredRules : Map (List Str) :=
  compileIdentityRulesToIPRulesPerNode (parseIdentityPolicyRulesFromFacts facts)
    (buildServiceEndpointMapFromFacts facts) (buildInstanceNodeMapFromPlacements facts)

def reconcile (order : IterationOrder) (facts : List Fact) : List Change :=
  diffDerivedNetworkRules order (desiredRules facts) (collectExistingDerivedNetworkRules facts)

end NetworkPolicyController

/-! ## Evaluating the rules -/

structure FirewallRule where
  sourceIP : Str
  targetIP : Str
  port : Int
  action : PolicyAction
  deriving DecidableEq, Repr

/-- `parseCompiledFirewallRule`: the port is what `Atoi` returns, error or not. -/
def parseCompiledFirewallRule (compiledRule : Str) : Option FirewallRule :=
  match Str.splitN Str.colon 4 compiledRule with
  | [sourceIP, targetIP, portText, action] =>
    some ⟨sourceIP, targetIP, (parseInt portText).1, action⟩
  | _ => none

end CCattler.Controllers
