import CCattler.Concurrency.Execution
import CCattler.Controllers.Helpers
import CCattler.Go.Path
import CCattler.Go.Url
import CCattler.Store.Client
import CCattler.Types.Validate
import CCattler.Types.WorkloadKeys

/-! # The node agent and what it calls

The agent reaches everything outside of itself, its own maps and their iteration order
through calls, so that a cycle can be run against any behaviour of what it calls.
-/

namespace CCattler.NodeAgent

open Go Store Concurrency CCattler.Types CCattler.Controllers

/-! ## Records -/

/-- `runtime.Status`, as far as the agent reads it. -/
structure Status where
  id : Str
  running : Bool
  exitCode : Int
  error : Str
  ip : Str
  deriving DecidableEq

/-- `runtime.Spec`, without the log settings, which the agent leaves unset. -/
structure Spec where
  id : Str
  serviceName : Str
  image : Str
  command : List Str
  env : Map Str
  configFiles : Map Str
  secretMounts : Map Str
  ports : List Int
  cpuMillicores : Int
  memoryBytes : Int
  ip : Str
  volumeMounts : Map Str
  deriving DecidableEq

structure ExecSpec where
  command : Str
  env : Map Str
  configFiles : Map Str
  secretMounts : Map Str
  deriving DecidableEq

/-- `placedInstanceInfo`. -/
structure PlacedInstance where
  id : Str
  service : Str
  deriving DecidableEq

structure AppliedResourceAllocation where
  cpuMillicores : Int
  memoryBytes : Int
  deriving DecidableEq

/-- `imagePullBackoffEntry`; times are nanoseconds since the epoch. -/
structure ImagePullBackoffEntry where
  attempts : Int
  retryAfter : Int
  lastError : Str
  deriving DecidableEq

/-- `initStepBackoffEntry`; the zero time is absent. -/
structure InitStepBackoffEntry where
  attemptCount : Int
  nextRetryAt : Option Int
  deriving DecidableEq

abbrev SecretWaitReason := Str

def secretWaitAPIUnreachable : SecretWaitReason := lit "api_unreachable"

def secretWaitSecretMissing : SecretWaitReason := lit "secret_missing"

def secretWaitDeliveryNotConfigured : SecretWaitReason := lit "delivery_not_configured"

structure SecretDeliveryWaitEntry where
  reason : SecretWaitReason
  secretNames : List Str
  attempts : Int
  retryAfter : Int
  requirementsVersion : Str
  deriving DecidableEq

structure AgentMemory where
  appliedInstanceResources : Map AppliedResourceAllocation
  imagePullBackoffs : Map ImagePullBackoffEntry
  initStepBackoffs : Map InitStepBackoffEntry
  secretDeliveryWaits : Map SecretDeliveryWaitEntry
  bridgeRetryAttempted : Bool
  deriving DecidableEq

namespace AgentMemory

/-- `NewAgent` makes the maps empty. -/
def new : AgentMemory := ⟨∅, ∅, ∅, ∅, false⟩

section

variable (instanceID : Str)

def setApplied (resources : AppliedResourceAllocation) (memory : AgentMemory) : AgentMemory :=
  { memory with
    appliedInstanceResources := memory.appliedInstanceResources.set instanceID resources }

def eraseApplied (memory : AgentMemory) : AgentMemory :=
  { memory with
    appliedInstanceResources := AList.erase instanceID memory.appliedInstanceResources }

def setPullBackoff (entry : ImagePullBackoffEntry) (memory : AgentMemory) : AgentMemory :=
  { memory with imagePullBackoffs := memory.imagePullBackoffs.set instanceID entry }

def erasePullBackoff (memory : AgentMemory) : AgentMemory :=
  { memory with imagePullBackoffs := AList.erase instanceID memory.imagePullBackoffs }

end

def setInitBackoff (backoffKey : Str) (entry : InitStepBackoffEntry) (memory : AgentMemory) :
    AgentMemory :=
  { memory with initStepBackoffs := memory.initStepBackoffs.set backoffKey entry }

def eraseInitBackoff (backoffKey : Str) (memory : AgentMemory) : AgentMemory :=
  { memory with initStepBackoffs := AList.erase backoffKey memory.initStepBackoffs }

def setSecretWait (instanceID : Str) (entry : SecretDeliveryWaitEntry) (memory : AgentMemory) :
    AgentMemory :=
  { memory with secretDeliveryWaits := memory.secretDeliveryWaits.set instanceID entry }

def eraseSecretWait (instanceID : Str) (memory : AgentMemory) : AgentMemory :=
  { memory with secretDeliveryWaits := AList.erase instanceID memory.secretDeliveryWaits }

def setBridgeRetryAttempted (memory : AgentMemory) : AgentMemory :=
  { memory with bridgeRetryAttempted := true }

end AgentMemory

structure ImagePullStatus where
  error : Str
  attempts : Int
  retryAfter : Str
  image : Str

structure InitProgress where
  step : Int
  totalSteps : Int
  attempt : Int
  maxRetries : Int
  stepLabel : Str
  lastError : Str

structure SecretWaitStatus where
  reason : Str
  secrets : List Str
  nextRetry : Str

/-- An error of `FetchInstanceSecrets` or of writing what it returned. -/
inductive DeliveryFailure where
  | typed (reason : SecretWaitReason) (secretNames : List Str)
  | other (message : Str)
  deriving DecidableEq

/-! ## Calls -/

/-- The primary provider and the one for volumes of type `local`. -/
inductive StorageBackend where
  | primary
  | localPath
  deriving DecidableEq

structure StorageProvider where
  backend : StorageBackend
  supportsSharedAttach : Bool
  nodeLocal : Bool
  deriving DecidableEq

/-- The step that an init command or a connection probe is run for. -/
structure InitExecution where
  instanceID : Str
  stepIndex : Int
  deriving DecidableEq

inductive AgentCall where
  | store (request : StoreRequest)
  | now
  | readMemory
  | modify (change : AgentMemory → AgentMemory)
  | visit (keys : List Str)
  -- the runtime
  | list
  | start (spec : Spec)
  | stop (instanceID : Str)
  | stopWithGracePeriod (instanceID : Str) (gracePeriod : Int)
  | status (instanceID : Str)
  | exec (instanceID command : Str)
  | execInit (execution : InitExecution) (image : Str) (spec : ExecSpec)
  | resize (instanceID : Str) (cpuMillicores memoryBytes : Int)
  | hostPortsForInstance (instanceID : Str)
  | isImageCached (image : Str)
  | pullImage (image credentials : Str)
  -- the storage providers
  | createVolume (backend : StorageBackend) (volumeName : Str)
  | attachVolume (backend : StorageBackend) (volumeName nodeID : Str)
  | detachVolume (backend : StorageBackend) (volumeName nodeID : Str)
  | volumeUsage (backend : StorageBackend) (volumeName : Str)
  -- the network and the data plane
  | allocateIP (nodeID instanceID : Str)
  | releaseIP (nodeID instanceID : Str)
  | registerEndpointIdentity (containerIP service : Str) (containerPort : Int)
  | retryBridgeAttachment
  | lookupHost (hostname : Str)
  | dial (execution : InitExecution) (address : Str)
  -- secrets
  | fetchInstanceSecrets (instanceID : Str)
  | readInstanceSecrets (instanceID : Str)
  | writeInstanceSecrets (instanceID : Str) (secretValues : Map Str)
  | writeConnectionFile (instanceID connectionName connectionURL : Str)
  | removeInstanceSecrets (instanceID : Str)
  | listInstancesWithSecrets
  | registerInstanceToken (instanceID service : Str)
  | revokeInstanceToken (instanceID : Str)
  -- the probe scheduler
  | cleanupProbes (instanceID : Str)
  -- a nil dereference: the process ends here, and what the model still does is not done
  | panic

inductive ResizeError where
  | unsupported
  | failed (message : Str)
  deriving DecidableEq

abbrev AgentReply : AgentCall → Type
  | .store request => StoreReply request
  | .now => Int
  | .readMemory => AgentMemory
  | .modify _ => Unit
  | .visit keys => { visited : List Str // visited.Perm keys }
  | .list => Except Str (List Status)
  | .start _ | .stop _ | .stopWithGracePeriod _ _ | .exec _ _ | .execInit _ _ _ | .pullImage _ _ =>
    Except Str Unit
  | .status _ => Except Str Status
  | .resize _ _ _ => Except ResizeError Unit
  | .hostPortsForInstance _ => List (Int × Int)
  | .isImageCached _ => Bool
  | .createVolume _ _ | .detachVolume _ _ _ => Except Str Unit
  | .attachVolume _ _ _ => Except Str Str
  | .volumeUsage _ _ => Int × Int
  | .allocateIP _ _ => Except Str Str
  | .releaseIP _ _ | .registerEndpointIdentity _ _ _ | .retryBridgeAttachment | .dial _ _ =>
    Except Str Unit
  | .lookupHost _ => Except Str (List Str)
  | .fetchInstanceSecrets _ => Except DeliveryFailure (Map Str)
  | .readInstanceSecrets _ => Option (Map Str)
  | .writeInstanceSecrets _ _ => Except Str Unit
  | .writeConnectionFile _ _ _ => Except Str Str
  | .removeInstanceSecrets _ | .revokeInstanceToken _ | .cleanupProbes _ | .panic => Unit
  | .listInstancesWithSecrets => List Str
  | .registerInstanceToken _ _ => Except Str Str

abbrev AgentProgram (Result : Type) : Type := Proc AgentCall AgentReply Result

/-! ## The agent -/

structure Libraries where
  /-- `time.Time.Format(time.RFC3339)`. -/
  rfc3339 : Int → Str
  /-- `strconv.Quote`. -/
  quote : Str → Str
  /-- `time.ParseDuration`. -/
  parseDuration : Str → Option Int
  /-- `int64(coreValue * 1000)` of what `strconv.ParseFloat` returns. -/
  parseCores : Str → Option Int
  /-- The hexadecimal SHA-256 sum. -/
  sha256Hex : Str → Str
  /-- `net.ParseIP(s) != nil`. -/
  isIP : Str → Bool
  /-- The port of `net.SplitHostPort`. -/
  splitPort : Str → Option Str
  /-- The user name and the password of registry credentials. -/
  registryCredentials : Str → Option (Str × Str)
  marshalPullStatus : ImagePullStatus → Option Str
  marshalInitProgress : InitProgress → Option Str
  marshalSecretWait : SecretWaitStatus → Str

/-- The fields of the agent that a cycle does not change. -/
structure Agent where
  nodeID : Str
  supportsPull : Bool
  supportsGracefulStop : Bool
  providesHostPorts : Bool
  storageProvider : Option StorageProvider
  localStorageProvider : Option StorageProvider
  hasNetworkProvider : Bool
  registersEndpoints : Bool
  retriesBridge : Bool
  hasSecretDeliveryClient : Bool
  secretMaterialDirectory : Option Str
  secretAPIBaseURL : Option Str
  libraries : Libraries

/-! ## The calls as programs -/

namespace AgentProgram

variable (key : Str)

def get : AgentProgram (Except CallError Fact) :=
  Proc.request (AgentCall.store (StoreRequest.get key))

def put (value : Str) : AgentProgram (Except CallError Int) :=
  Proc.request (AgentCall.store (StoreRequest.put key value))

def delete : AgentProgram (Except CallError Unit) :=
  Proc.request (AgentCall.store (StoreRequest.delete key))

def scan (scanPrefix : Str) : AgentProgram (Except CallError (List Fact)) :=
  Proc.request (AgentCall.store (StoreRequest.scan scanPrefix))

def transaction (compares : List Compare) (onSuccess : List Op) :
    AgentProgram (Except CallError Bool) :=
  Proc.request (AgentCall.store (StoreRequest.transaction compares onSuccess []))

/-- A `Get` after which any error counts as absence. -/
def lookup : AgentProgram (Option Str) := do
  match ← get key with
  | .ok fact => return some fact.value
  | .error _ => return none

/-- A `Scan` after which an error counts as no facts. -/
def scanned (scanPrefix : Str) : AgentProgram (List Fact) := do
  match ← scan scanPrefix with
  | .ok facts => return facts
  | .error _ => return []

/-- A `Put` whose error is only logged. -/
def publish (value : Str) : AgentProgram Unit := do
  let _ ← put key value
  return ()

/-- A `Delete` whose error is only logged. -/
def retract : AgentProgram Unit := do
  let _ ← delete key
  return ()

/-- The create-only transaction; whether it took effect is not looked at. -/
def publishIfAbsent (value : Str) : AgentProgram Unit := do
  let _ ← transaction [⟨key, 0⟩] [⟨.put, key, value⟩]
  return ()

def readMemory : AgentProgram AgentMemory := Proc.request AgentCall.readMemory

def modify (change : AgentMemory → AgentMemory) : AgentProgram Unit :=
  Proc.request (AgentCall.modify change)

def now : AgentProgram Int := Proc.request AgentCall.now

def visit (keys : List Str) : AgentProgram (List Str) := do
  let visited ← (Proc.request (AgentCall.visit keys) : AgentProgram _)
  return visited.val

/-- `if condition { action }`. -/
def whenever (condition : Bool) (action : AgentProgram Unit) : AgentProgram Unit :=
  if condition then action else pure ()

def each {α : Type} (body : α → AgentProgram Unit) : List α → AgentProgram Unit
  | [] => return ()
  | item :: rest => do
      body item
      each body rest

end AgentProgram

end CCattler.NodeAgent
