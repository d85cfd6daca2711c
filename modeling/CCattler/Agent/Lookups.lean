import CCattler.Agent.Calls

/-! # What the agent reads of a service

Image, command, ports, resources and configuration of a service, each read from
the store when it is needed. A fact that cannot be read counts as absent.
-/

namespace CCattler.NodeAgent

open Go Store Concurrency CCattler.Types CCattler.Controllers AgentProgram

variable (service : Str)

def lookupServiceImageFromStore : AgentProgram Str := do
  return (← lookup (keyDesiredServiceImage service)).getD []

def lookupServicePullPolicyFromStore : AgentProgram Str := do
  return (← lookup (keyDesiredServicePullPolicy service)).getD []

def lookupImagePullSecretFromStore : AgentProgram Str := do
  return (← lookup (keyDesiredServiceImagePullSecret service)).getD []

def lookupServiceNameForInstance (instanceID : Str) : AgentProgram Str := do
  return (← lookup (keyObservedInstanceService instanceID)).getD []

/-! ## The command -/

def commandRequiresShell (commandString : Str) : Bool :=
  commandString.any (lit "|&;<>$`()\x7b\x7d*?!~").contains

/-- The scanner of `splitSimpleCommand`. -/
structure CommandScanner where
  tokens : List Str
  currentToken : Str
  inSingleQuote : Bool
  inDoubleQuote : Bool

def CommandScanner.flush (scanner : CommandScanner) : CommandScanner :=
  if scanner.currentToken = [] then scanner
  else { scanner with tokens := scanner.tokens ++ [scanner.currentToken], currentToken := [] }

def CommandScanner.read (scanner : CommandScanner) (currentChar : UInt8) : CommandScanner :=
  if currentChar = 39 ∧ ¬scanner.inDoubleQuote then
    { scanner with inSingleQuote := !scanner.inSingleQuote }
  else if currentChar = 34 ∧ ¬scanner.inSingleQuote then
    { scanner with inDoubleQuote := !scanner.inDoubleQuote }
  else if currentChar = 32 ∧ ¬scanner.inSingleQuote ∧ ¬scanner.inDoubleQuote then scanner.flush
  else { scanner with currentToken := scanner.currentToken ++ [currentChar] }

def splitSimpleCommand (commandString : Str) : List Str :=
  (commandString.foldl CommandScanner.read ⟨[], [], false, false⟩).flush.tokens

example : splitSimpleCommand (lit "redis-server --save \"60 1000\"") =
    [lit "redis-server", lit "--save", lit "60 1000"] := by decide +kernel

def lookupServiceCommandFromStore : AgentProgram (List Str) := do
  let commandString := (← lookup (keyDesiredServiceCommand service)).getD []
  if commandString = [] then return []
  else if commandRequiresShell commandString then return [lit "sh", lit "-c", commandString]
  else return splitSimpleCommand commandString

/-! ## Ports and resources -/

def lookupServiceExposedPortsFromStore : AgentProgram (List Int) := do
  let exposeFacts ← scanned (scanDesiredServiceExpose service)
  return exposeFacts.filterMap (fun fact =>
    atoi? ((Str.split Str.slash fact.key).getLast?.getD []))

variable (libraries : Libraries)

def parseMillicores (cpuString : Str) : Int :=
  let millicores :=
    if cpuString.getLast? = some 109 then atoi? cpuString.dropLast else none
  match millicores with
  | some milliValue => milliValue
  | none => if cpuString = [] then 0 else (libraries.parseCores cpuString).getD 0

/-- The factor of a binary suffix, up to `Ti`. -/
def memoryMultiplier (suffix : Str) : Option Int :=
  if suffix = lit "Ti" then some (1024 * 1024 * 1024 * 1024) else binaryMultiplier suffix

def parseMemoryBytes (memString : Str) : Int :=
  if memString.length < 2 then (atoi? memString).getD 0
  else
    match memoryMultiplier (memString.drop (memString.length - 2)) with
    | none => (atoi? memString).getD 0
    | some multiplier =>
      ((atoi? (memString.take (memString.length - 2))).map
        (fun parsedValue => wrap64 (parsedValue * multiplier))).getD 0

def lookupResourceWithFallback (primaryKey fallbackKey : Str) (parse : Str → Int) :
    AgentProgram Int := do
  let primary := (← lookup primaryKey).getD []
  if primary ≠ [] then return parse primary
  else
    match ← lookup fallbackKey with
    | some value => return parse value
    | none => return 0

def lookupServiceResourcesFromStore (service : Str) : AgentProgram AppliedResourceAllocation := do
  let cpuMillicores ← lookupResourceWithFallback (keyEffectiveServiceResourcesCPU service)
    (keyDesiredServiceResourcesCPU service) (parseMillicores libraries)
  let memoryBytes ← lookupResourceWithFallback (keyEffectiveServiceResourcesMemory service)
    (keyDesiredServiceResourcesMemory service) parseMemoryBytes
  return ⟨cpuMillicores, memoryBytes⟩

/-! ## Configuration -/

def resolveServiceConfig (configPrefix partPrefix : Str) : AgentProgram (Map Str) := do
  let facts ← scanned configPrefix
  return facts.foldl (fun entries fact =>
    if fact.key.hasPrefix partPrefix then entries.set (fact.key.trimPrefix partPrefix) fact.value
    else entries) ∅

variable (serviceName : Str)

def resolveServiceConfigEnvVars : AgentProgram (Map Str) :=
  resolveServiceConfig (scanDesiredServiceConfig serviceName)
    (scanDesiredServiceConfigEnv serviceName)

def resolveServiceConfigFiles : AgentProgram (Map Str) :=
  resolveServiceConfig (scanDesiredServiceConfig serviceName)
    (scanDesiredServiceConfigFile serviceName)

def hashInputs (kind : Str) (entries : Map Str) : Str :=
  entries.sortedKeys.flatMap (fun key => kind ++ key ++ lit "=" ++ entries.get key [] ++ lit "\n")

def computeServiceConfigHash (serviceName : Str) : AgentProgram Str := do
  let envVars ← resolveServiceConfigEnvVars serviceName
  let configFiles ← resolveServiceConfigFiles serviceName
  let secretFacts ← scanned (scanDesiredServiceSecrets serviceName)
  if envVars.len = 0 ∧ configFiles.len = 0 ∧ secretFacts = [] then return []
  else
    return libraries.sha256Hex (hashInputs (lit "env:") envVars ++
      hashInputs (lit "file:") configFiles ++
      secretFacts.flatMap
        (fun fact => lit "secret:" ++ fact.key ++ lit "=" ++ fact.value ++ lit "\n"))

/-! ## Volumes of a service -/

def lookupServiceVolumeMountsFromStore : AgentProgram (Map Str) := do
  let facts ← scanned (scanDesiredServiceVolumes serviceName)
  return Map.ofPairs (facts.map (fun fact =>
    (fact.key.trimPrefix (scanDesiredServiceVolumes serviceName), fact.value)))

end CCattler.NodeAgent
