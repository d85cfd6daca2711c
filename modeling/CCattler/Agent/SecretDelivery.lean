import CCattler.Agent.Connections
import CCattler.Agent.Publish
import CCattler.Go.Time

/-! # Secret material of an instance

What the service needs is read once to decide about the delivery and once more to
build the mounts.
-/

namespace CCattler.NodeAgent

open Go Store Concurrency CCattler.Types CCattler.Controllers AgentProgram

def secretDeliveryRetryInitial : Int := 2 * second

def secretDeliveryRetryMax : Int := 30 * second

def secretDeliveryRefusedRetry : Int := 5 * 60 * second

/-! ## Requirements -/

/-- `serviceSecretRequirements`. -/
structure SecretRequirements where
  grantMountPaths : Map Str
  referencedSecretNames : List Str
  needsSecrets : Bool
  requirementsVersion : Str

variable (serviceName : Str)

def validGrants (grantFacts : List Fact) : List (Str × Str) :=
  (grantFacts.map (fun fact =>
    (fact.key.trimPrefix (scanDesiredServiceSecrets serviceName), fact.value))).filter
      (fun grant => validateSecretName grant.1)

/-- The loop of `collectConnectionSecretNames`: the connections that name a
secret, with it. -/
def collectConnectionSecrets : List Str → AgentProgram (Except CallError (List (Str × Str)))
  | [] => return .ok []
  | connectionName :: rest => do
      match ← get (keyDesiredConnection connectionName) with
      | .error .keyNotFound => collectConnectionSecrets rest
      | .error error => return .error error
      | .ok connectionFact =>
        match ← collectConnectionSecrets rest with
        | .error error => return .error error
        | .ok found =>
          let connectionSecret := (parseConnectionJSON connectionFact.value).secret
          return .ok (if connectionSecret = [] then found
              else (connectionName, connectionSecret) :: found)

def connectionNames (connectionRefs : List Fact) : List Str :=
  connectionRefs.map (fun fact =>
    fact.key.trimPrefix (scanDesiredServiceConnections serviceName))

def collectConnectionSecretNames : AgentProgram (Except CallError (List (Str × Str))) := do
  match ← scan (scanDesiredServiceConnections serviceName) with
  | .error error => return .error error
  | .ok connectionRefs => collectConnectionSecrets (connectionNames serviceName connectionRefs)

def requirementsOf (grants connectionSecrets : List (Str × Str)) (pullSecret : Str) :
    SecretRequirements where
  grantMountPaths := Map.ofPairs grants
  referencedSecretNames :=
    connectionSecrets.map Prod.snd ++ (if pullSecret = [] then [] else [pullSecret])
  needsSecrets := grants ≠ [] ∨ connectionSecrets ≠ [] ∨ pullSecret ≠ []
  requirementsVersion :=
    Str.join (lit ";") (sortStrings
      (grants.map (fun grant => lit "grant=" ++ grant.1 ++ lit "@" ++ grant.2) ++
        connectionSecrets.map (fun entry => lit "connection=" ++ entry.1 ++ lit "@" ++ entry.2) ++
        if pullSecret = [] then [] else [lit "pull=" ++ pullSecret]))

def loadServiceSecretRequirements : AgentProgram (Except CallError SecretRequirements) := do
  match ← scan (scanDesiredServiceSecrets serviceName) with
  | .error error => return .error error
  | .ok grantFacts =>
    match ← collectConnectionSecretNames serviceName with
    | .error error => return .error error
    | .ok connectionSecrets =>
      match ← get (keyDesiredServiceImagePullSecret serviceName) with
      | .error (.failed message) => return .error (.failed message)
      | .error .keyNotFound =>
        return .ok (requirementsOf (validGrants serviceName grantFacts) connectionSecrets [])
      | .ok pullSecretFact =>
        return .ok (requirementsOf (validGrants serviceName grantFacts) connectionSecrets
          pullSecretFact.value)

def materialMatchesRequirements (secretValues : Map Str) (requirements : SecretRequirements) :
    Bool :=
  secretValues.len = requirements.grantMountPaths.len &&
    requirements.grantMountPaths.keys.all secretValues.has &&
    requirements.referencedSecretNames.all secretValues.has

/-! ## Waiting -/

/-- The doubling loop of `secretDeliveryRetryDelay`. -/
def doubledRetryDelay : Nat → Int → Int
  | 0, retryDelay => retryDelay
  | attempts + 1, retryDelay =>
    if retryDelay < secretDeliveryRetryMax then doubledRetryDelay attempts (retryDelay * 2)
    else retryDelay

def secretDeliveryRetryDelay (reason : SecretWaitReason) (attempts : Int) : Int :=
  if reason = secretWaitSecretMissing then secretDeliveryRetryMax
  else if reason ≠ secretWaitAPIUnreachable then secretDeliveryRefusedRetry
  else
    min (doubledRetryDelay (attempts - 1).toNat secretDeliveryRetryInitial) secretDeliveryRetryMax

def clearSecretDeliveryWait (instanceID : Str) : AgentProgram Unit := do
  if (← readMemory).secretDeliveryWaits.has instanceID then do
    modify (AgentMemory.eraseSecretWait instanceID)
    retract (keyObservedInstanceSecretWait instanceID)
  else return ()

def DeliveryFailure.cause : DeliveryFailure → SecretWaitReason × List Str
  | .typed reason secretNames => (reason, secretNames)
  | .other _ => (secretWaitAPIUnreachable, [])

def nextWaitEntry (known : Option SecretDeliveryWaitEntry) (cause : SecretWaitReason × List Str)
    (requirementsVersion : Str) (time : Int) : SecretDeliveryWaitEntry :=
  let attempts :=
    match known with
    | some waitEntry => if waitEntry.reason = cause.1 then waitEntry.attempts + 1 else 1
    | none => 1
  ⟨cause.1, cause.2, attempts, time + secretDeliveryRetryDelay cause.1 attempts,
    requirementsVersion⟩

variable (waitEntry : SecretDeliveryWaitEntry)

/-- `"waiting for secrets: "` with the reason and the names, if any. -/
def waitReasonText : Str :=
  lit "waiting for secrets: " ++ waitEntry.reason ++
    if waitEntry.secretNames = [] then []
    else lit " (" ++ Str.join (lit ", ") waitEntry.secretNames ++ lit ")"

def SecretDeliveryWaitEntry.keepsWaiting (requirements : SecretRequirements) (time : Int) : Bool :=
  decide (time < waitEntry.retryAfter) && !(decide (waitEntry.reason ≠ secretWaitAPIUnreachable) &&
      decide (waitEntry.requirementsVersion ≠ requirements.requirementsVersion))

def isWaitingForSecrets (instanceID : Str) (requirements : SecretRequirements) :
    AgentProgram Bool := do
  match (← readMemory).secretDeliveryWaits.lookup instanceID with
  | none => return false
  | some waitEntry =>
    return waitEntry.keepsWaiting requirements (← now)

def fetchSecrets (instanceID : Str) : AgentProgram (Except DeliveryFailure (Map Str)) := do
  match ← (Proc.request (AgentCall.fetchInstanceSecrets instanceID) : AgentProgram _) with
  | .error failure => return .error failure
  | .ok deliveredValues =>
    match ← (Proc.request (AgentCall.writeInstanceSecrets instanceID deliveredValues) :
        AgentProgram _) with
    | .error message => return .error (.other message)
    | .ok _ => return .ok deliveredValues

namespace Agent

variable (agent : Agent)

def recordSecretDeliveryWait (info : PlacedInstance) (requirements : SecretRequirements)
    (failure : DeliveryFailure) : AgentProgram Unit := do
  let memory ← readMemory
  let waitEntry := nextWaitEntry (memory.secretDeliveryWaits.lookup info.id) failure.cause
    requirements.requirementsVersion (← now)
  modify (AgentMemory.setSecretWait info.id waitEntry)
  agent.publishInstanceStateToStore info.id info.service instanceWaitingForSecrets []
  publish (keyObservedInstanceSecretWait info.id)
    (agent.libraries.marshalSecretWait ⟨waitEntry.reason, waitEntry.secretNames,
      agent.libraries.rfc3339 waitEntry.retryAfter⟩)
  publishStatusReason info.id (waitReasonText waitEntry)

def reusableMaterial (instanceID : Str) (requirements : SecretRequirements) :
    AgentProgram (Option (Map Str)) := do
  if agent.secretMaterialDirectory.isSome then
    match ← (Proc.request (AgentCall.readInstanceSecrets instanceID) : AgentProgram _) with
    | some existingValues =>
      if materialMatchesRequirements existingValues requirements then return some existingValues
      else return none
    | none => return none
  else return none

def deliverSecrets (info : PlacedInstance) (requirements : SecretRequirements) :
    AgentProgram (Option (Map Str)) := do
  if agent.hasSecretDeliveryClient = false ∨ agent.secretMaterialDirectory = none then do
    agent.recordSecretDeliveryWait info requirements (.typed secretWaitDeliveryNotConfigured [])
    return none
  else
    match ← fetchSecrets info.id with
    | .error failure => do
        agent.recordSecretDeliveryWait info requirements failure
        return none
    | .ok deliveredValues => do
        let wasWaiting := (← readMemory).secretDeliveryWaits.has info.id
        whenever wasWaiting
          (agent.publishInstanceStateToStore info.id info.service instancePending [])
        clearSecretDeliveryWait info.id
        return some deliveredValues

def prepareInstanceSecretMaterial (info : PlacedInstance) : AgentProgram (Option (Map Str)) := do
  match ← loadServiceSecretRequirements info.service with
  | .error _ => return none
  | .ok requirements =>
    if requirements.needsSecrets = false then do
      clearSecretDeliveryWait info.id
      return some ∅
    else
      match ← agent.reusableMaterial info.id requirements with
      | some existingValues => do
          clearSecretDeliveryWait info.id
          return some existingValues
      | none => do
          if ← isWaitingForSecrets info.id requirements then return none
          else agent.deliverSecrets info requirements

end Agent

/-! ## Mounts -/

def ccaSecretMountPrefix : Str := lit "/run/cca-secrets/"

def ccaSecretHelperPath : Str := lit "/usr/local/bin/cca-secret"

def ccaSecretHelperScript : Str := lit "#!/bin/sh\ncat \"/run/cca-secrets/$1\"\n"

def forbiddenSecretMountPrefixes : List Str :=
  [lit "/proc", lit "/sys", lit "/dev", lit "/run/cca-secrets"]

def resolveExplicitSecretMountPath (mountPath : Str) : Option Str :=
  if mountPath.hasPrefix (lit "/") = false then none
  else
    let cleanedPath := cleanPath mountPath
    if cleanedPath = lit "/" then none
    else if forbiddenSecretMountPrefixes.any (fun forbidden =>
        cleanedPath = forbidden || cleanedPath.hasPrefix (forbidden ++ lit "/")) then none
    else some cleanedPath

/-- `SecretValuePath`: a slash in the name is written `%2F`. -/
def secretValuePath (materialDirectory instanceID secretName : Str) : Str :=
  joinPath [materialDirectory, instanceID, lit "values",
    if validateSecretName secretName then
      secretName.flatMap (fun b => if b = Str.slash then lit "%2F" else [b])
    else []]

def addSecretMount (materialDirectory instanceID : Str) (grantMountPaths secretValues : Map Str)
    (secretMounts : Map Str) (secretName : Str) : Map Str :=
  if secretValues.has secretName then
    let hostPath := secretValuePath materialDirectory instanceID secretName
    let mounted := secretMounts.set (ccaSecretMountPrefix ++ secretName) hostPath
    match resolveExplicitSecretMountPath (grantMountPaths.get secretName []) with
    | some explicitMountPath => mounted.set explicitMountPath hostPath
    | none => mounted
  else secretMounts

/-- The loop of `addConnectionFileMounts` over the names and paths of the
references. -/
def addConnectionFiles (instanceID : Str) (secretValues : Map Str) :
    List (Str × Str) → Map Str → AgentProgram (Except Str (Map Str))
  | [], secretMounts => return .ok secretMounts
  | (connectionName, mountPath) :: rest, secretMounts => do
      let connectionURL ← assembleConnectionURL connectionName secretValues
      match resolveExplicitSecretMountPath mountPath with
      | none => addConnectionFiles instanceID secretValues rest secretMounts
      | some usablePath =>
        if connectionName = [] ∨ connectionURL = [] then
          addConnectionFiles instanceID secretValues rest secretMounts
        else
          match ← (Proc.request (AgentCall.writeConnectionFile instanceID connectionName
              connectionURL) : AgentProgram _) with
          | .error message => return .error message
          | .ok hostPath =>
            addConnectionFiles instanceID secretValues rest (secretMounts.set usablePath hostPath)

def addConnectionFileMounts (info : PlacedInstance) (secretValues secretMounts : Map Str) :
    AgentProgram (Except Str (Map Str)) := do
  match ← scan (scanDesiredServiceConnections info.service) with
  | .error error =>
    return .error (lit "read connections of " ++ info.service ++ lit ": " ++ error.message)
  | .ok connectionRefs =>
    addConnectionFiles info.id secretValues
      ((connectionNames info.service connectionRefs).zip (connectionRefs.map Fact.value))
      secretMounts

namespace Agent

variable (agent : Agent)

def buildInstanceSecretMounts (info : PlacedInstance) (secretValues : Map Str) :
    AgentProgram (Except Str (Map Str)) := do
  match agent.secretMaterialDirectory with
  | none => return .ok ∅
  | some materialDirectory =>
    if secretValues.len = 0 then return .ok ∅
    else
      match ← loadServiceSecretRequirements info.service with
      | .error error => return .error error.message
      | .ok requirements =>
        addConnectionFileMounts info secretValues (requirements.grantMountPaths.sortedKeys.foldl
            (addSecretMount materialDirectory info.id requirements.grantMountPaths secretValues)
            ∅)

def readDeliveredSecretValues (instanceID : Str) : AgentProgram (Map Str) := do
  if agent.secretMaterialDirectory.isSome then
    return (← (Proc.request (AgentCall.readInstanceSecrets instanceID) : AgentProgram _)).getD ∅
  else return ∅

end Agent

def addSecretHelperIfMounted (secretMounts configFiles : Map Str) : Map Str :=
  if secretMounts.keys.any (fun containerPath =>
      containerPath.hasPrefix ccaSecretMountPrefix) then
    configFiles.set ccaSecretHelperPath ccaSecretHelperScript
  else configFiles

end CCattler.NodeAgent
