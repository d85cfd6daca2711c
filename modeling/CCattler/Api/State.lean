import CCattler.Api.Http
import CCattler.Tenant.ScopedQuery

/-! # Reading facts through the API

`/api/state` answers with the facts at a key or below a prefix, and `/api/watch`
streams their changes. Both pass a fact only if its key is readable and one of
the teams that the caller may read for sees it.
-/

namespace CCattler.Api

open Go Store Security Tenant

/-! ## The teams of a caller -/

structure WorkloadVisibility where
  allTeams : Bool
  teams : List Str
  deriving DecidableEq, Repr

variable (visibility : WorkloadVisibility)

namespace WorkloadVisibility

def isEmpty : Bool :=
  !visibility.allTeams && visibility.teams.isEmpty

def allowsFactKey (factKey : Str) : Bool :=
  visibility.allTeams || isFactVisibleToTeams factKey visibility.teams

end WorkloadVisibility

def teamOfScope (grantedScope : Scope) : Option Str :=
  (grantedScope.cutPrefix (lit "team/")).filter (fun teamName =>
    !teamName.isEmpty && !teamName.contains Str.slash)

def collectTeams (teamSet : Map Bool) : List Scope → WorkloadVisibility
  | [] => ⟨false, teamSet.sortedKeys⟩
  | grantedScope :: rest =>
    if grantedScope = scopeCluster then ⟨true, []⟩
    else
      match teamOfScope grantedScope with
      | some teamName => collectTeams (teamSet.set teamName true) rest
      | none => collectTeams teamSet rest

def resolveWorkloadVisibility (apiAuthorizer : Option APIAuthorizer) (order : IterationOrder)
    (principal : Principal) : WorkloadVisibility :=
  match apiAuthorizer with
  | none => ⟨false, []⟩
  | some authorizer =>
    collectTeams ∅ (authorizer.grantedScopes order principal capabilityWorkloadRead)

variable (server : Server)

def Server.requireWorkloadVisibility (server : Server) (order : IterationOrder) {Body : Type}
    (request : Request Body) : Except Response WorkloadVisibility :=
  if server.apiAuthorizer = none then
    .error (.error statusInternalServerError (lit "authorization not configured"))
  else
    let visibility := resolveWorkloadVisibility server.apiAuthorizer order request.principal
    if visibility.isEmpty then
      .error (.error statusForbidden (lit "forbidden: no workload.read grant at any scope"))
    else .ok visibility

/-! ## Readable keys -/

def readableStateRoots : List Str :=
  [lit "desired", lit "effective", lit "observed", lit "placement", lit "endpoint", lit "intent",
    lit "network", lit "derived", lit "event"]

def unreadableKeySuffixes : List Str := [lit "/tls/key"]

variable (scanPrefix : Str)

def isReadableStatePrefix : Bool :=
  readableStateRoots.any (fun readableRoot =>
    scanPrefix == readableRoot || scanPrefix.hasPrefix (readableRoot ++ lit "/"))

def isReadableFactKey (factKey : Str) : Bool :=
  isReadableStatePrefix factKey && !unreadableKeySuffixes.any factKey.hasSuffix

def filterReadableFacts (facts : List Fact) : List Fact :=
  facts.filter (fun fact => isReadableFactKey fact.key)

/-! ## The handlers -/

structure FactResponse where
  key : Str
  value : Str
  revision : Int
  deriving DecidableEq, Repr

def FactResponse.ofFact (fact : Fact) : FactResponse := ⟨fact.key, fact.value, fact.revision⟩

def FactResponse.json (response : FactResponse) : Json :=
  .object [(lit "key", .str response.key), (lit "value", .str response.value),
    (lit "revision", .int response.revision)]

/-- The scan of `handleState`, with or without the filter by team. -/
def WorkloadVisibility.scan : Handler (List Fact) :=
  Handler.orFail (if visibility.allTeams then StoreProgram.scan scanPrefix
      else scanVisibleToTeams scanPrefix visibility.teams) []

/-- `handleState` with a `key` parameter. A key of another team is answered like a
missing one. -/
def handleStateKey (singleKey : Str) : Handler Response := do
  if !isReadableFactKey singleKey then
    throw (.error statusForbidden (lit "access denied: key is not readable through the state API"))
  let notFound : Response := .error statusNotFound (lit "key not found: " ++ singleKey)
  match ← StoreProgram.get singleKey with
  | .error _ => throw notFound
  | .ok fact =>
    if visibility.allowsFactKey singleKey then
      return .ok (some (FactResponse.ofFact fact).json)
    else throw notFound

/-- `handleState` with a `prefix` parameter. -/
def handleStatePrefix : Handler Response := do
  if scanPrefix = [] then
    throw (.error statusBadRequest (lit "prefix or key parameter required"))
  if !isReadableStatePrefix scanPrefix then
    throw (.error statusForbidden
      (lit "access denied: prefix is not readable through the state API"))
  let facts ← visibility.scan scanPrefix
  return .ok (some (.array ((filterReadableFacts facts).map
    (fun fact => (FactResponse.ofFact fact).json))))

def Server.handleState (order : IterationOrder) {Body : Type} (request : Request Body) :
    Handler Response := do
  if request.method ≠ .get then
    throw (.error statusMethodNotAllowed (lit "GET only"))
  let visibility ← server.requireWorkloadVisibility order request
  if request.query (lit "key") ≠ [] then
    handleStateKey visibility (request.query (lit "key"))
  else handleStatePrefix visibility (request.query (lit "prefix"))

/-- What `streamWatchEventsAsSSE` sends for an event, if anything. -/
def WorkloadVisibility.sent (event : Event) : Option Json :=
  if !isReadableFactKey event.fact.key || !visibility.allowsFactKey event.fact.key then none
  else
    some (.object [(lit "type", .str (if event.type = .delete then lit "delete" else lit "put")),
      (lit "key", .str event.fact.key), (lit "value", .str event.fact.value),
      (lit "revision", .int event.fact.revision)])

/-- `streamWatchEventsAsSSE`: the data lines sent for the events of a channel. -/
def streamWatchEventsAsSSE (events : List Event) : List Json :=
  events.filterMap visibility.sent

/-- The count of open connections, and whether the response writer can flush. -/
structure WatchConnection where
  activeWatchConnectionCount : Int
  flushes : Bool

def maxConcurrentWatchConnections : Int := 1000

def setupWatchStream {Body : Type} (request : Request Body) (connection : WatchConnection) :
    Handler Unit := do
  if connection.activeWatchConnectionCount + 1 > maxConcurrentWatchConnections then
    throw (.error statusServiceUnavailable (lit "too many concurrent watch connections"))
  let scanPrefix := request.query (lit "prefix")
  if scanPrefix = [] then
    throw (.error statusBadRequest (lit "prefix parameter required"))
  if !isReadableStatePrefix scanPrefix then
    throw (.error statusForbidden
      (lit "access denied: prefix is not readable through the watch API"))
  if !connection.flushes then
    throw (.error statusInternalServerError (lit "streaming not supported"))
  let _ ← Handler.orFail (StoreProgram.watch scanPrefix ⟨true, 0⟩) (lit "watch: ")

/-- `handleWatch`: how the events of the channel are sent on. -/
def Server.handleWatch (order : IterationOrder) {Body : Type} (request : Request Body)
    (connection : WatchConnection) : Handler (List Event → List Json) := do
  if request.method ≠ .get then
    throw (.error statusMethodNotAllowed (lit "GET only"))
  let visibility ← server.requireWorkloadVisibility order request
  setupWatchStream request connection
  return streamWatchEventsAsSSE visibility

end CCattler.Api
