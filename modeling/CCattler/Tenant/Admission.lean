import CCattler.Lang.Apply
import CCattler.Security.Audit
import CCattler.Security.Rbac
import CCattler.Tenant.PolicyGate
import CCattler.Tenant.ScopedQuery

/-! # Admission of a file

The policy gate authorizes every fact, checks the quota of every declared service,
refuses tenants that are being deleted, and then writes the facts one by one.
-/

namespace CCattler.Tenant

open Go Store CCattler.Types Concurrency Security

/-! ## The tenant registry -/

/-- `Quota`: zero and the empty text stand for no limit. -/
structure Quota where
  cpu : Int := 0
  memory : Str := []
  instances : Int := 0
  volumes : Int := 0
  storage : Str := []
  deriving DecidableEq

/-- `Tenant`. -/
structure TenantRecord where
  name : Str
  quota : Quota := {}
  weight : Int := 0
  deriving DecidableEq

def maxQuotaValue : Int := 10000000

/-- `parseQuotaInt`. Numerals outside the 32-bit range are outside the quota range too. -/
def parseQuotaInt (rawValue : Str) : Option Int :=
  match parseInt rawValue with
  | (parsedValue, none) =>
    if parsedValue < 0 ∨ parsedValue > maxQuotaValue then none else some parsedValue
  | (_, some _) => none

/-- `ResolveTenantForService`; `none` is the error for a service without an owner. -/
def resolveTenantForService (serviceName : Str) : StoreProgram (Option Str) := do
  let fromName : Option Str :=
    if extractTenantFromName serviceName = [] then none
    else some (extractTenantFromName serviceName)
  match ← StoreProgram.get (keyDesiredServiceOwner serviceName) with
  | .ok ownerFact => return if ownerFact.value = [] then fromName else some ownerFact.value
  | .error _ => return fromName

/-- A number of a tenant: zero if absent, an error of the lookup if corrupt. -/
def tenantNumber (key : Str) : StoreProgram (Option Int) := do
  match ← StoreProgram.get key with
  | .ok fact => return parseQuotaInt fact.value
  | .error _ => return some 0

def tenantText (key : Str) : StoreProgram Str := do
  match ← StoreProgram.get key with
  | .ok fact => return fact.value
  | .error _ => return []

/-- `GetTenant`; `none` is any of its errors. -/
def getTenant (tenantName : Str) : StoreProgram (Option TenantRecord) := do
  match ← StoreProgram.get (keyDesiredTenant tenantName) with
  | .error _ => return none
  | .ok _ =>
    match ← tenantNumber (keyDesiredTenantQuotaCPU tenantName) with
    | none => return none
    | some cpu =>
      let memory ← tenantText (keyDesiredTenantQuotaMemory tenantName)
      match ← tenantNumber (keyDesiredTenantQuotaInstances tenantName) with
      | none => return none
      | some instances =>
        match ← tenantNumber (keyDesiredTenantQuotaVolumes tenantName) with
        | none => return none
        | some volumes =>
          let storage ← tenantText (keyDesiredTenantQuotaStorage tenantName)
          match ← tenantNumber (keyDesiredTenantWeight tenantName) with
          | none => return none
          | some weight =>
            return some ⟨tenantName, ⟨cpu, memory, instances, volumes, storage⟩, weight⟩

/-! ## Quota admission -/

def instanceField (fact : Fact) : Option (Str × Str) :=
  match Str.splitN Str.slash 2 (fact.key.trimPrefix scanObservedInstances) with
  | [instanceID, fieldName] => some (instanceID, fieldName)
  | _ => none

def instanceValue (fieldName : Str) (fact : Fact) : Option (Str × Str) :=
  match instanceField fact with
  | some (instanceID, field) => if field = fieldName then some (instanceID, fact.value) else none
  | none => none

def instanceValues (facts : List Fact) (fieldName : Str) : Map Str :=
  Map.ofPairs (facts.filterMap (instanceValue fieldName))

def countOwned (tenantName : Str) (instanceServices instanceStates : Map Str) :
    List Str → StoreProgram Int
  | [] => pure 0
  | instanceID :: rest => do
      if instanceStates.get instanceID [] = instanceStopped then
        countOwned tenantName instanceServices instanceStates rest
      else
        let owner ← resolveTenantForService (instanceServices.get instanceID [])
        let count ← countOwned tenantName instanceServices instanceStates rest
        return if owner = some tenantName then count + 1 else count

/-- `countTenantInstances`, with the order in which the map is visited. -/
def countTenantInstances (order : IterationOrder) (tenantName : Str) : StoreProgram Int := do
  match ← StoreProgram.scan scanObservedInstances with
  | .error _ => return 0
  | .ok instanceFacts =>
    let instanceServices := instanceValues instanceFacts (lit "service")
    countOwned tenantName instanceServices (instanceValues instanceFacts (lit "state"))
      (order.visit instanceServices.keys)

structure AdmissionResult where
  allowed : Bool
  reason : Str
  tenantName : Str := []
  usage : Int := 0
  quota : Int := 0
  deriving DecidableEq

def newTotal (currentUsage additionalInstances : Int) : Int :=
  wrap64 (currentUsage + additionalInstances)

def quotaVerdict (tenantName : Str) (quota currentUsage additionalInstances : Int) :
    AdmissionResult :=
  let sum : Str := itoa currentUsage ++ lit " + " ++ itoa additionalInstances ++ lit " = " ++
    itoa (newTotal currentUsage additionalInstances)
  if newTotal currentUsage additionalInstances > quota then
    ⟨false, lit "instance quota exceeded: " ++ sum ++ lit " > " ++ itoa quota, tenantName,
      currentUsage, quota⟩
  else
    ⟨true, lit "within quota: " ++ sum ++ lit " <= " ++ itoa quota, tenantName, currentUsage, quota⟩

/-- `CheckInstanceAdmission`. It never returns an error. -/
def checkInstanceAdmission (order : IterationOrder) (serviceName : Str)
    (additionalInstances : Int) : StoreProgram AdmissionResult := do
  match ← resolveTenantForService serviceName with
  | none => return { allowed := true, reason := lit "no tenant, quota not enforced" }
  | some tenantName =>
    match ← getTenant tenantName with
    | none => return { allowed := true, reason := lit "tenant not found, quota not enforced" }
    | some tenant =>
      if tenant.quota.instances = 0 then
        return { allowed := true, reason := lit "no instance quota set", tenantName }
      else
        let currentUsage ← countTenantInstances order tenantName
        return quotaVerdict tenantName tenant.quota.instances currentUsage additionalInstances

/-! ## The gate -/

inductive Stage where
  | syntactic
  | schema
  | authorization
  | quota
  | security
  | commit
  deriving DecidableEq, Repr

def Stage.text : Stage → Str
  | .syntactic => lit "syntax"
  | .schema => lit "schema"
  | .authorization => lit "authorization"
  | .quota => lit "quota"
  | .security => lit "security"
  | .commit => lit "commit"

/-- `PolicyGate`: whether it has a quota admission, and its authorizer with the texts
of its refusals. -/
structure Gate where
  checksQuota : Bool
  authorizer : Option (Str → Permission → Str → Except Str Unit)

/-- `GateResult`, without the duration but with the entry for the audit log. -/
structure GateResult where
  allowed : Bool
  stage : Stage
  reason : Str
  facts : List Lang.Fact
  audited : AuditEntry

/-- The entry of `logAudit`. -/
def auditOf (principal target : Str) (decision : AuditDecision) (stage : Stage) : AuditEntry :=
  { principal, action := lit "apply", target, decision, authMethod := [], policy := stage.text,
    onBehalfOf := [] }

structure Denial where
  target : Str
  stage : Stage
  reason : Str

def Denial.result (principal : Str) (facts : List Lang.Fact) (denial : Denial) : GateResult :=
  ⟨false, denial.stage, denial.reason, facts, auditOf principal denial.target .deny denial.stage⟩

namespace Gate

variable (gate : Gate) (frontend : Lang.Frontend) (order : IterationOrder) (principal : Str)

/-- `evaluateAuthorizationGate`: the refusal of the first fact that may not be written. -/
def evaluateAuthorizationGate (facts : List Lang.Fact) : Option Denial :=
  match gate.authorizer with
  | none => none
  | some authorize =>
    facts.findSome? (fun fact =>
      match authorize principal .write fact.key with
      | .ok () => none
      | .error message =>
        some ⟨fact.key, .authorization,
          lit "not authorized to write " ++ frontend.quote fact.key ++ lit ": " ++ message⟩)

/-- The loop of `evaluateQuotaGate`. -/
def quotaRefusal : List Lang.ServiceDecl → StoreProgram (Option Denial)
  | [] => pure none
  | serviceDecl :: rest => do
      if serviceDecl.instances > 0 then
        let result ← checkInstanceAdmission order serviceDecl.name serviceDecl.instances
        if result.allowed then quotaRefusal rest
        else return some ⟨serviceDecl.name, .quota, result.reason⟩
      else quotaRefusal rest

variable (file : Lang.File)

def evaluateQuotaGate : StoreProgram (Option Denial) :=
  if gate.checksQuota then quotaRefusal order file.services else pure none

def tenantDeleting : Str := lit "deleting"

/-- The loop of `evaluateSecurityPolicyGate`. -/
def securityRefusal : List Lang.ServiceDecl → StoreProgram (Option Denial)
  | [] => pure none
  | serviceDecl :: rest => do
      if serviceDecl.ownerTenant = [] then securityRefusal rest
      else
        match ← StoreProgram.get (keyDesiredTenantState serviceDecl.ownerTenant) with
        | .error _ => securityRefusal rest
        | .ok stateFact =>
          if stateFact.value = tenantDeleting then
            return some ⟨serviceDecl.name, .security,
              lit "tenant " ++ frontend.quote serviceDecl.ownerTenant ++ lit " is being deleted"⟩
          else securityRefusal rest

def evaluateSecurityPolicyGate : StoreProgram (Option Denial) :=
  securityRefusal frontend file.services

def evaluateCompiled (facts : List Lang.Fact) : StoreProgram GateResult :=
  match gate.evaluateAuthorizationGate frontend principal facts with
  | some denial => pure (denial.result principal facts)
  | none => do
      match ← gate.evaluateQuotaGate order file with
      | some denial => return denial.result principal facts
      | none =>
        match ← evaluateSecurityPolicyGate frontend file with
        | some denial => return denial.result principal facts
        | none =>
          return ⟨true, .commit, lit "all gates passed", facts,
            auditOf principal (lit "dsl") .allow .commit⟩

variable (describe : Lang.CompileError → Str)

/-- `Evaluate`. The texts of parse and compile errors are those of the front end. -/
def evaluate (dslInput : Str) : StoreProgram GateResult :=
  match frontend.parse dslInput with
  | .error message =>
    pure (Denial.result principal [] ⟨lit "dsl", .syntactic, lit "syntax error: " ++ message⟩)
  | .ok file =>
    match Lang.compile frontend.toSurroundings file with
    | .error error =>
      pure (Denial.result principal [] ⟨lit "dsl", .schema, lit "schema error: " ++ describe error⟩)
    | .ok facts => gate.evaluateCompiled frontend order principal file facts

def commitFacts : List Lang.Fact → StoreProgram (Except Str Unit)
  | [] => pure (.ok ())
  | fact :: rest => do
      match ← StoreProgram.put fact.key fact.value with
      | .error putError =>
        return .error (lit "commit fact " ++ frontend.quote fact.key ++ lit ": " ++
          putError.message)
      | .ok _ => commitFacts rest

def evaluateAndCommit (dslInput : Str) : StoreProgram (Except Str GateResult) := do
  let result ← gate.evaluate frontend order principal describe dslInput
  if result.allowed then
    match ← commitFacts frontend result.facts with
    | .error message => return .error message
    | .ok () => return .ok result
  else return .ok result

end Gate

end CCattler.Tenant
