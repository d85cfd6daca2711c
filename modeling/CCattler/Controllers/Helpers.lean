import CCattler.Go.Map
import CCattler.Store.PrefixSearch
import CCattler.Types.Keys

/-! # Reading facts

The helpers through which the controllers take values out of the fact slice they
are given. Each reads the facts below one prefix and nothing else.
-/

namespace CCattler.Controllers

open Go Store CCattler.Types

/-! ## Records and generators -/

/-- Package `encoding/json` at a record type; a failure has no result. -/
structure JSONCodec (α : Type) where
  unmarshal : Str → Option α
  marshal : α → Option Str

structure CapacityRequestRequirements where
  cpu : Int
  memory : Int
  architecture : Str
  deriving DecidableEq, Repr

def CapacityRequestRequirements.zero : CapacityRequestRequirements := ⟨0, 0, []⟩

/-- `types.IDFunc`, a generator with its state. -/
abbrev IDFunc (Source : Type) := Source → Str × Source

/-! ## Keys and values -/

def splitFactKeyIntoEntityAndSuffix (factKey pre : Str) : Option (Str × Str) :=
  match Str.splitN Str.slash 2 (factKey.trimPrefix pre) with
  | [entity, suffix] => some (entity, suffix)
  | _ => none

/-- The loop shared by the `collect…BySuffix` helpers. -/
def collectValuesBySuffix {ν : Type} (parse : Str → ν) (facts : List Fact)
    (pre matchSuffix : Str) : Map ν :=
  (factsWithPrefix facts pre).foldl (fun collectedValues fact =>
    match splitFactKeyIntoEntityAndSuffix fact.key pre with
    | some (entityName, suffix) =>
      if suffix = matchSuffix then collectedValues.set entityName (parse fact.value)
      else collectedValues
    | none => collectedValues) ∅

variable (facts : List Fact)

def collectStringValuesBySuffix (pre matchSuffix : Str) : Map Str :=
  collectValuesBySuffix id facts pre matchSuffix

/-- A value that is no integer is stored as what `Atoi` returns with its error. -/
def collectIntValuesBySuffix (pre matchSuffix : Str) : Map Int :=
  collectValuesBySuffix (fun value => (parseInt value).1) facts pre matchSuffix

def binaryMultiplier (suffix : Str) : Option Int :=
  if suffix = lit "Ki" then some 1024
  else if suffix = lit "Mi" then some (1024 * 1024)
  else if suffix = lit "Gi" then some (1024 * 1024 * 1024)
  else none

/-- The value of a numeral that parses, `Atoi` with a nil error. -/
def atoi? (s : Str) : Option Int :=
  match parseInt s with
  | (value, none) => some value
  | (_, some _) => none

/-- A quantity such as `500m`, `512Mi` or `7`; what is none is zero. -/
def parseResourceQuantity (rawValue : Str) : Int :=
  let millicores :=
    if rawValue.getLast? = some 109 then atoi? rawValue.dropLast else none
  let binary :=
    if rawValue.length ≥ 3 then
      (binaryMultiplier (rawValue.drop (rawValue.length - 2))).bind (fun multiplier =>
        (atoi? (rawValue.take (rawValue.length - 2))).map (fun parsedValue =>
          wrap64 (parsedValue * multiplier)))
    else none
  match millicores, binary with
  | some value, _ => value
  | none, some value => value
  | none, none => (atoi? rawValue).getD 0

abbrev InstanceFields := Map Str

/-- `fields[name]`. -/
def InstanceFields.field (fields : InstanceFields) (name : String) : Str := fields.get (lit name) []

/-- One prefix of `parseInstanceFieldsFromFacts`. -/
def addInstanceFields (instanceFields : Map InstanceFields) (instancePrefix : Str) :
    Map InstanceFields :=
  (factsWithPrefix facts instancePrefix).foldl (fun fields fact =>
    match splitFactKeyIntoEntityAndSuffix fact.key instancePrefix with
    | some (instanceID, fieldName) =>
      fields.update instanceID ∅ (fun known => known.set fieldName fact.value)
    | none => fields) instanceFields

def parseInstanceFieldsFromFacts : Map InstanceFields :=
  [scanObservedInstances, scanDerivedInstances].foldl (addInstanceFields facts) ∅

variable (instanceFields : InstanceFields)

def endpointEligibleState : InstanceState :=
  if instanceFields.field "controller_stopped" = lit "true" then instanceStopped
  else instanceFields.field "state"

def effectiveInstanceState : InstanceState :=
  if instanceFields.field "controller_stopped" = lit "true" then instanceStopped
  else if instanceFields.field "node_failure" = lit "true" then instanceFailed
  else instanceFields.field "state"

def extractServiceExposedPorts : Map (List Int) :=
  (factsWithPrefix facts scanDesiredServices).foldl (fun servicePorts fact =>
    let pathParts := Str.split Str.slash (fact.key.trimPrefix scanDesiredServices)
    if pathParts.length ≥ 3 ∧ pathParts.getD 1 [] = lit "expose" ∧
        pathParts.getLastD [] ≠ lit "external" then
      let portNumber := (parseInt (pathParts.getD 2 [])).1
      let serviceName := pathParts.getD 0 []
      if portNumber > 0 ∧ portNumber ∉ servicePorts.get serviceName [] then
        servicePorts.update serviceName [] (fun ports => ports ++ [portNumber])
      else servicePorts
    else servicePorts) ∅

end CCattler.Controllers
