import CCattler.Agent.SecretDelivery

/-! # Init steps

Before the first start of an instance its service's init steps are run in order,
one attempt in a cycle. What has succeeded is recorded in the store; attempts and
retry times are kept in the agent's memory.
-/

namespace CCattler.NodeAgent

open Go Store Concurrency CCattler.Types CCattler.Controllers AgentProgram

def initStepBackoffBaseDelay : Int := 1 * second

def connectionProbeDefaultRetry : Int := 30

def initStepMaxBackoffDelay : Int := 30 * second

structure InitStepDefinition where
  index : Int
  exec : Str
  connection : Str
  timeout : Int
  retry : Int
  deriving DecidableEq

/-! ## Definitions -/

def isInitStepKey (scanPrefix key : Str) : Bool := (atoi? (key.trimPrefix scanPrefix)).isSome

def hasInitSteps (serviceName : Str) : AgentProgram Bool := do
  let facts ← scanned (scanDesiredServiceInitSteps serviceName)
  return facts.any (fun fact => isInitStepKey (scanDesiredServiceInitSteps serviceName) fact.key)

/-- One step of `loadInitStepDefinitions`. A connection step without a retry
limit has the default one. -/
def loadInitStepDefinition (libraries : Libraries) (serviceName : Str) (stepIndex : Int) :
    AgentProgram InitStepDefinition := do
  let exec := (← lookup (keyDesiredServiceInitStepExec serviceName stepIndex)).getD []
  let connection := (← lookup (keyDesiredServiceInitStepConnection serviceName stepIndex)).getD []
  let timeoutValue ← lookup (keyDesiredServiceInitStepTimeout serviceName stepIndex)
  let retryValue ← lookup (keyDesiredServiceInitStepRetry serviceName stepIndex)
  let retry := (retryValue.bind atoi?).getD 0
  return {
    index := stepIndex
    exec := exec
    connection := connection
    timeout := (timeoutValue.bind libraries.parseDuration).getD 0
    retry := if connection ≠ [] ∧ retry = 0 then connectionProbeDefaultRetry else retry }

def loadInitSteps (libraries : Libraries) (serviceName : Str) :
    List Nat → AgentProgram (List InitStepDefinition)
  | [] => return []
  | stepIndex :: rest => do
      let stepDefinition ← loadInitStepDefinition libraries serviceName stepIndex
      let following ← loadInitSteps libraries serviceName rest
      return stepDefinition :: following

/-- As many steps as there are step numbers are read, from zero on. -/
def loadInitStepDefinitions (libraries : Libraries) (serviceName : Str) :
    AgentProgram (List InitStepDefinition) := do
  let initFacts ← scanned (scanDesiredServiceInitSteps serviceName)
  let stepCount := initFacts.countP (fun fact =>
    isInitStepKey (scanDesiredServiceInitSteps serviceName) fact.key)
  loadInitSteps libraries serviceName (List.range stepCount)

section

variable (instanceID : Str)

def readCurrentInitPhase : AgentProgram Str := do
  return (← lookup (keyDerivedInstanceInitPhase instanceID)).getD []

def readInitStepState (stepIndex : Int) : AgentProgram Str := do
  return (← lookup (keyObservedInstanceInitStepState instanceID stepIndex)).getD []

def clearInitProgress : AgentProgram Unit :=
  retract (keyObservedInstanceInitProgress instanceID)

def recordInitStepFailure (stepIndex : Int) (reason : Str) : AgentProgram Unit := do
  publish (keyObservedInstanceInitStepState instanceID stepIndex) initStepFailed
  publish (keyObservedInstanceInitStepReason instanceID stepIndex) reason

end

/-- The status reason of `publishInitProgress`. -/
def InitProgress.text (progress : InitProgress) : Str :=
  if progress.lastError ≠ [] then
    lit "init:" ++ itoa progress.step ++ lit " " ++ progress.stepLabel ++ lit " attempt " ++
      itoa progress.attempt ++ lit "/" ++ itoa progress.maxRetries ++ lit ": " ++ progress.lastError
  else
    lit "init:" ++ itoa progress.step ++ lit "/" ++ itoa progress.totalSteps ++ lit " " ++
      progress.stepLabel

def publishInitProgress (libraries : Libraries) (instanceID : Str) (progress : InitProgress) :
    AgentProgram Unit := do
  match libraries.marshalInitProgress progress with
  | none => return ()
  | some progressJSON => do
      publish (keyObservedInstanceInitProgress instanceID) progressJSON
      publish (keyObservedInstanceStatusReason instanceID) progress.text

/-! ## Running a step -/

namespace Agent

variable (agent : Agent)

def materializeInitConfigFiles (info : PlacedInstance) (initSpec : ExecSpec) :
    AgentProgram (Except Str ExecSpec) := do
  match ← agent.buildInstanceSecretMounts info (← agent.readDeliveredSecretValues info.id) with
  | .error message => return .error message
  | .ok secretMounts =>
    return .ok { initSpec with
      secretMounts := secretMounts
      configFiles := addSecretHelperIfMounted secretMounts initSpec.configFiles }

def runInitCommand (image : Str) (info : PlacedInstance) (stepDefinition : InitStepDefinition) :
    AgentProgram (Except Str Unit) := do
  if Str.trimSpace stepDefinition.exec = [] then
    return .error (lit "empty init exec command for step " ++ itoa stepDefinition.index)
  else do
    let serviceEnvVars ← resolveServiceConfigEnvVars info.service
    match ← agent.materializeInitConfigFiles info ⟨stepDefinition.exec, serviceEnvVars, ∅, ∅⟩ with
    | .error message => return .error message
    | .ok initSpec =>
      Proc.request (AgentCall.execInit ⟨info.id, stepDefinition.index⟩ image initSpec)

def resolveConnectionAddress (hostname originalAddress : Str) : AgentProgram (Except Str Str) := do
  if agent.libraries.isIP hostname then return .ok originalAddress
  else
    match ← (Proc.request (AgentCall.lookupHost hostname) : AgentProgram _) with
    | .error message =>
      return .error
        (lit "DNS lookup for " ++ agent.libraries.quote hostname ++ lit " failed: " ++ message)
    | .ok [] =>
      return .error
        (lit "DNS lookup for " ++ agent.libraries.quote hostname ++ lit " returned no addresses")
    | .ok (resolvedAddress :: _) =>
      match agent.libraries.splitPort originalAddress with
      | none =>
        return .error (lit "invalid address " ++ agent.libraries.quote originalAddress)
      | some port => return .ok (joinHostPort resolvedAddress port)

def connectionError (connectionName message : Str) : Except Str Unit :=
  .error (lit "connection " ++ agent.libraries.quote connectionName ++ lit ": " ++ message)

def runConnectionProbe (info : PlacedInstance) (stepDefinition : InitStepDefinition) :
    AgentProgram (Except Str Unit) := do
  let secretValues ← agent.readDeliveredSecretValues info.id
  let connectionURL ← assembleConnectionURL stepDefinition.connection secretValues
  if connectionURL = [] then
    return agent.connectionError stepDefinition.connection (lit "failed to assemble URL")
  else
    match ← lookup (keyDesiredConnection stepDefinition.connection) with
    | none => return agent.connectionError stepDefinition.connection (lit "definition not found")
    | some connectionValue => do
        let connectionDef := parseConnectionJSON connectionValue
        match ← agent.resolveConnectionAddress connectionDef.host connectionDef.dialAddress with
        | .error message => return agent.connectionError stepDefinition.connection message
        | .ok resolvedAddress =>
          match ← (Proc.request (AgentCall.dial ⟨info.id, stepDefinition.index⟩ resolvedAddress) :
              AgentProgram _) with
          | .error message =>
            return agent.connectionError stepDefinition.connection
              (lit "TCP dial to " ++ connectionDef.dialAddress ++ lit " (resolved: " ++
                resolvedAddress ++ lit ") failed: " ++ message)
          | .ok _ => return .ok ()

def runInitStep (image : Str) (info : PlacedInstance) (stepDefinition : InitStepDefinition) :
    AgentProgram (Except Str Unit) :=
  if stepDefinition.connection ≠ [] then agent.runConnectionProbe info stepDefinition
  else agent.runInitCommand image info stepDefinition

end Agent

def InitStepDefinition.label (stepDefinition : InitStepDefinition) : Str :=
  if stepDefinition.connection ≠ [] then lit "connection:" ++ stepDefinition.connection
  else stepDefinition.exec

def InitStepDefinition.maxAttempts (stepDefinition : InitStepDefinition) : Int :=
  wrap64 (1 + stepDefinition.retry)

def initStepBackoffKey (instanceID : Str) (stepIndex : Int) : Str :=
  instanceID ++ lit "/" ++ itoa stepIndex

def InitStepBackoffEntry.afterFailure (backoffEntry : InitStepBackoffEntry) (time : Int) :
    InitStepBackoffEntry :=
  let attemptCount := backoffEntry.attemptCount + 1
  let backoffDuration :=
    wrap64 (initStepBackoffBaseDelay * wrap64 (2 ^ (attemptCount - 1).toNat))
  ⟨attemptCount, some (time + min backoffDuration initStepMaxBackoffDelay)⟩

def isInitStepBackingOff (backoffEntry : InitStepBackoffEntry) : AgentProgram Bool := do
  match backoffEntry.nextRetryAt with
  | none => return false
  | some nextRetryAt => return decide ((← now) < nextRetryAt)

def recallInitStepBackoff (backoffKey : Str) : AgentProgram InitStepBackoffEntry := do
  match (← readMemory).initStepBackoffs.lookup backoffKey with
  | some backoffEntry => return backoffEntry
  | none => do
      modify (AgentMemory.setInitBackoff backoffKey ⟨0, none⟩)
      return ⟨0, none⟩

namespace Agent

variable (agent : Agent)

def progressOf (stepDefinition : InitStepDefinition) (totalSteps attempt : Int) (lastError : Str) :
    InitProgress :=
  ⟨stepDefinition.index, totalSteps, attempt, stepDefinition.maxAttempts, stepDefinition.label,
    lastError⟩

section

variable (info : PlacedInstance) (stepDefinition : InitStepDefinition) (image : Str)
  (totalSteps : Int)

/-- The attempt of `executeInitStep`, once it is due. -/
def attemptInitStep (backoffEntry : InitStepBackoffEntry) : AgentProgram Bool := do
  publishInitProgress agent.libraries info.id
    (progressOf stepDefinition totalSteps backoffEntry.attemptCount [])
  publish (keyObservedInstanceInitStepState info.id stepDefinition.index) initStepRunning
  match ← agent.runInitStep image info stepDefinition with
  | .ok _ => do
      publish (keyObservedInstanceInitStepState info.id stepDefinition.index) initStepSucceeded
      modify (AgentMemory.eraseInitBackoff (initStepBackoffKey info.id stepDefinition.index))
      return true
  | .error message => do
      let failedEntry := backoffEntry.afterFailure (← now)
      modify (AgentMemory.setInitBackoff (initStepBackoffKey info.id stepDefinition.index)
        failedEntry)
      publishInitProgress agent.libraries info.id
        (progressOf stepDefinition totalSteps failedEntry.attemptCount message)
      return false

def executeInitStep : AgentProgram Bool := do
  let backoffEntry ← recallInitStepBackoff (initStepBackoffKey info.id stepDefinition.index)
  if backoffEntry.attemptCount ≥ stepDefinition.maxAttempts then do
    recordInitStepFailure info.id stepDefinition.index (lit "max retries exceeded")
    return false
  else do
    if ← isInitStepBackingOff backoffEntry then return false
    else agent.attemptInitStep info stepDefinition image totalSteps backoffEntry

end

/-- The loop of `executeInitializationSteps`; a step recorded as running was interrupted. -/
def executeInitSteps (info : PlacedInstance) (image : Str) (totalSteps : Int) :
    List InitStepDefinition → AgentProgram Bool
  | [] => do
      clearInitProgress info.id
      return true
  | stepDefinition :: rest => do
      let existingState ← readInitStepState info.id stepDefinition.index
      if existingState = initStepSucceeded then executeInitSteps info image totalSteps rest
      else do
        whenever (existingState = initStepRunning)
          (recordInitStepFailure info.id stepDefinition.index
            (lit "agent restarted during execution"))
        if ← agent.executeInitStep info stepDefinition image totalSteps then
          executeInitSteps info image totalSteps rest
        else return false

def executeInitializationSteps (info : PlacedInstance) (image : Str) : AgentProgram Bool := do
  let stepDefinitions ← loadInitStepDefinitions agent.libraries info.service
  if stepDefinitions = [] then return true
  else do
    let currentPhase ← readCurrentInitPhase info.id
    if currentPhase = initPhaseComplete then return true
    else agent.executeInitSteps info image stepDefinitions.length stepDefinitions

end Agent

end CCattler.NodeAgent
