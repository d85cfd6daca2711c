import CCattler.Go.Map
import CCattler.Store.Client
import CCattler.Types.Keys

/-! # Which facts a team may see

Below `desired/service/` the filter takes the tenant from the name in the key; every
other key passes. Lists of services go by the declared owner first.
-/

namespace CCattler.Tenant

open Go Store CCattler.Types

/-- `ExtractTenantFromName`: what comes before the first slash, unless it is first. -/
def extractTenantFromName (serviceName : Str) : Str :=
  match Str.cut [Str.slash] serviceName with
  | some (tenantName, _) => tenantName
  | none => []

def knownServiceFields : List Str :=
  [lit "image", lit "instances", lit "port", lit "owner", lit "cpu", lit "memory", lit "health",
    lit "config", lit "secret", lit "scale", lit "placement", lit "update", lit "init",
    lit "startup", lit "liveness", lit "readiness", lit "cloud_identity", lit "external_port",
    lit "volume"]

/-- The loop over the segments from the last one down to the second. -/
def nameBeforeField (pathSegments : List Str) : Nat → Option Str
  | 0 => none
  | segmentIndex + 1 =>
    if pathSegments.getD (segmentIndex + 1) [] ∈ knownServiceFields then
      some (Str.join [Str.slash] (pathSegments.take (segmentIndex + 1)))
    else nameBeforeField pathSegments segmentIndex

def extractServiceNameFromPath (servicePath : Str) : Str :=
  let pathSegments := Str.split Str.slash servicePath
  match nameBeforeField pathSegments (pathSegments.length - 1) with
  | some serviceName => serviceName
  | none =>
    match pathSegments with
    | first :: second :: _ => first ++ lit "/" ++ second
    | [only] => only
    | [] => servicePath

def isFactVisibleToTenant (factKey tenantName : Str) : Bool :=
  if factKey.hasPrefix scanDesiredServices then
    extractTenantFromName
      (extractServiceNameFromPath (factKey.trimPrefix scanDesiredServices)) == tenantName
  else true

def isFactVisibleToTeams (factKey : Str) (teamNames : List Str) : Bool :=
  teamNames.any (isFactVisibleToTenant factKey)

def scanVisibleToTeams (scanPrefix : Str) (teamNames : List Str) :
    StoreProgram (Except CallError (List Fact)) := do
  match ← StoreProgram.scan scanPrefix with
  | .error callError => return .error callError
  | .ok facts => return .ok (facts.filter (fun fact => isFactVisibleToTeams fact.key teamNames))

end CCattler.Tenant
