import CCattler.Agent.Lookups

/-! # What the agent reports

The observed facts of an instance: its state with service, node and address, the
reason of the state, the last exit and the ports of its container.
-/

namespace CCattler.NodeAgent

open Go Store Concurrency CCattler.Types CCattler.Controllers AgentProgram

variable (instanceID : Str)

def publishStatusReason (reason : Str) : AgentProgram Unit :=
  publish (keyObservedInstanceStatusReason instanceID) reason

def clearPullStatusFromStore : AgentProgram Unit :=
  retract (keyObservedInstancePullStatus instanceID)

/-- `fmt.Sprintf("exit(%d)", exitCode)`. -/
def exitText (exitCode : Int) : Str := lit "exit(" ++ itoa exitCode ++ lit ")"

def publishExitReasonFromStatus (runtimeStatus : Status) : AgentProgram Unit :=
  let exitReason :=
    if runtimeStatus.error = [] ∧ runtimeStatus.exitCode ≠ 0 then exitText runtimeStatus.exitCode
    else runtimeStatus.error
  if exitReason ≠ [] then publish (keyObservedInstanceExitReason instanceID) exitReason
  else return ()

def publishExitReasonIfFailed (state : InstanceState) (exitReason : Str) : AgentProgram Unit :=
  if state = instanceFailed ∧ exitReason ≠ [] then
    publish (keyObservedInstanceExitReason instanceID) exitReason
  else retract (keyObservedInstanceExitReason instanceID)

def publishInstanceHostPorts (portMappings : List (Int × Int)) : AgentProgram Unit :=
  each (fun mapping =>
    if mapping.2 ≤ 0 then return ()
    else publish (keyObservedInstanceHostPortForPort instanceID mapping.1) (itoa mapping.2))
    portMappings

namespace Agent

variable (agent : Agent)

def registerEndpointIdentityIfSupported (containerIP service : Str) : AgentProgram Unit := do
  if containerIP = [] ∨ agent.registersEndpoints = false then return ()
  else do
    let exposedPorts ← lookupServiceExposedPortsFromStore service
    let _ ← (Proc.request (AgentCall.registerEndpointIdentity containerIP service
      (exposedPorts.head?.getD 0)) : AgentProgram _)
    return ()

/-- The address part of `publishInstanceStateToStore`: the published address. -/
def publishInstanceIP (instanceID runtimeIP : Str) : AgentProgram Str := do
  if agent.hasNetworkProvider then do
    match ← (Proc.request (AgentCall.allocateIP agent.nodeID instanceID) : AgentProgram _) with
    | .error _ => return []
    | .ok allocatedIP => do
        publish (keyObservedInstanceIP instanceID) allocatedIP
        publish (keyNetworkAllocation instanceID) allocatedIP
        return allocatedIP
  else if runtimeIP ≠ [] ∧ agent.libraries.isIP runtimeIP = true then do
    publish (keyObservedInstanceIP instanceID) runtimeIP
    return runtimeIP
  else return []

def publishInstanceStateToStore (instanceID service : Str) (state : InstanceState)
    (runtimeIP : Str) : AgentProgram Unit := do
  publish (keyObservedInstance instanceID) []
  publish (keyObservedInstanceService instanceID) service
  publish (keyObservedInstanceState instanceID) state
  publish (keyObservedInstanceNode instanceID) agent.nodeID
  let createdTimestamp ← now
  publishIfAbsent (keyObservedInstanceCreatedAt instanceID)
    (agent.libraries.rfc3339 createdTimestamp)
  let publishedContainerIP ← agent.publishInstanceIP instanceID runtimeIP
  agent.registerEndpointIdentityIfSupported publishedContainerIP service

def republishHostPortIfNeeded (instanceID : Str) : AgentProgram Unit := do
  if agent.providesHostPorts then do
    let portMappings ← (Proc.request (AgentCall.hostPortsForInstance instanceID) : AgentProgram _)
    publishInstanceHostPorts instanceID portMappings
  else return ()

end Agent

def stateOfStatus : Except Str Status → InstanceState × Str
  | .error _ => (instanceStarting, [])
  | .ok observedStatus =>
    if observedStatus.running then (instanceRunning, [])
    else if observedStatus.exitCode ≠ 0 ∨ observedStatus.error ≠ [] then
      (instanceFailed,
        if observedStatus.error = [] then exitText observedStatus.exitCode
        else observedStatus.error)
    else (instanceStarting, [])

def observeInstanceState : AgentProgram (InstanceState × Str) := do
  return stateOfStatus (← (Proc.request (AgentCall.status instanceID) : AgentProgram _))

end CCattler.NodeAgent
