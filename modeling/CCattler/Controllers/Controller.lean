import CCattler.Store.Types

/-! # Controllers and the changes they propose -/

namespace CCattler.Controllers

open Go Store

structure Change where
  type : OpType
  key : Str
  value : Str
  group : Str
  deriving DecidableEq, Repr

def Change.put (key value : Str) : Change := ⟨.put, key, value, []⟩

def Change.delete (key : Str) : Change := ⟨.delete, key, [], []⟩

def groupedChanges (groupID : Str) (changes : List Change) : List Change :=
  changes.map (fun change => { change with group := groupID })

/-- The error of a delta reconciliation: `ErrDeltaFallback` or any other. -/
inductive DeltaError where
  | fallback
  | other (text : Str)
  deriving DecidableEq, Repr

/-- A controller value with its private state and its optional methods. -/
structure Controller (State : Type) where
  name : Str
  watch : List Str
  reconcile : State → List Fact → Except Str (List Change) × State
  reconcileDelta : Option (State → List Fact → List Event → Except DeltaError (List Change) × State)
  executePostCommitOperations : Option (State → Except Str Unit × State)

def controllerOutputPrefixes (name : Str) : Option (List Str) :=
  if name = lit "intent-resolver" then some [lit "effective/service/"]
  else if name = lit "instance" then some [lit "observed/instance/", lit "derived/instance/"]
  else if name = lit "scheduler" then
    some [lit "placement/", lit "derived/scheduler/unplaced/", lit "derived/instance/"]
  else if name = lit "endpoint" then some [lit "endpoint/"]
  else if name = lit "failure" then
    some [lit "observed/instance/", lit "derived/instance/", lit "derived/crash-loop/"]
  else if name = lit "node-failure" then some [lit "observed/node/", lit "derived/instance/"]
  else if name = lit "network" then some [lit "network/vip/", lit "network/dns/"]
  else if name = lit "autoscale" then some [lit "intent/autoscaler/"]
  else if name = lit "rollout" then
    some [lit "observed/instance/", lit "derived/service/", lit "desired/service/"]
  else if name = lit "storage" then some [lit "observed/volume/", lit "derived/volume/"]
  else if name = lit "warm-zero" then some [lit "derived/service/"]
  else if name = lit "init" then some [lit "derived/instance/"]
  else if name = lit "credential-broker" then some [lit "derived/credential/"]
  else if name = lit "cloud-node-lifecycle" then
    some [lit "observed/cloud/instance/", lit "observed/node/"]
  else if name = lit "cloud-loadbalancer" then
    some [lit "observed/cloud/loadbalancer/", lit "derived/cloud/loadbalancer/"]
  else if name = lit "cloud-routes" then
    some [lit "observed/cloud/route/", lit "derived/cloud/route/"]
  else if name = lit "eviction" then some [lit "derived/instance/", lit "derived/node/"]
  else if name = lit "drain" then some [lit "derived/node/"]
  else if name = lit "cluster-autoscale" then some [lit "derived/capacity/request/"]
  else if name = lit "route" then some [lit "derived/route/"]
  else if name = lit "auth" then some []
  else none

def isKeyWithinWriteDomain (key : Str) (allowedPrefixes : List Str) : Bool :=
  allowedPrefixes.any (fun allowed => key.hasPrefix allowed)

end CCattler.Controllers
