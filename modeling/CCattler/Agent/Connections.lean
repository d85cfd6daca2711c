import CCattler.Agent.Lookups

/-! # Connection definitions

A service refers to connections by name. The definition is a JSON text that the
agent reads by searching for its fields, and the URL is put together from it and
the delivered password.
-/

namespace CCattler.NodeAgent

open Go Store Concurrency CCattler.Types CCattler.Controllers AgentProgram

structure ConnectionDefinition where
  driver : Str
  user : Str
  secret : Str
  host : Str
  port : Int
  database : Str
  deriving DecidableEq

variable (jsonValue : Str)

def extractJSONStringField (fieldName : Str) : Str :=
  match Str.cut (lit "\"" ++ fieldName ++ lit "\":\"") jsonValue with
  | none => []
  | some (_, remaining) =>
    match Str.cut (lit "\"") remaining with
    | none => []
    | some (value, _) => value

def extractJSONIntField (fieldName : Str) : Int :=
  match Str.cut (lit "\"" ++ fieldName ++ lit "\":") jsonValue with
  | none => 0
  | some (_, remaining) =>
    if remaining.any (lit ",\x7d").contains then
      (atoi? (Str.trimSpace (remaining.takeWhile (fun b => !(lit ",\x7d").contains b)))).getD 0
    else 0

def parseConnectionJSON : ConnectionDefinition where
  driver := extractJSONStringField jsonValue (lit "driver")
  user := extractJSONStringField jsonValue (lit "user")
  secret := extractJSONStringField jsonValue (lit "secret")
  host := extractJSONStringField jsonValue (lit "host")
  port := extractJSONIntField jsonValue (lit "port")
  database := extractJSONStringField jsonValue (lit "database")

section

variable (connectionDef : ConnectionDefinition)

def buildConnectionURL (password : Str) : Str :=
  Url.string {
    scheme := connectionDef.driver
    host :=
      if connectionDef.port > 0 then joinHostPort connectionDef.host (itoa connectionDef.port)
      else connectionDef.host
    user :=
      if connectionDef.user = [] then none
      else some (connectionDef.user, if password = [] then none else some password)
    path := if connectionDef.database = [] then [] else Str.slash :: connectionDef.database }

def ConnectionDefinition.dialAddress : Str :=
  joinHostPort connectionDef.host
    (if connectionDef.port > 0 then itoa connectionDef.port else lit "0")

/-- The URL of a definition that has a driver, a host and its secret. -/
def ConnectionDefinition.url (secretValues : Map Str) : Option Str :=
  if connectionDef.driver = [] ∨ connectionDef.host = [] then none
  else if connectionDef.secret = [] then some (buildConnectionURL connectionDef [])
  else (secretValues.lookup connectionDef.secret).map (buildConnectionURL connectionDef)

end

def assembleConnectionURL (connectionName : Str) (secretValues : Map Str) : AgentProgram Str := do
  match ← lookup (keyDesiredConnection connectionName) with
  | none => return []
  | some value => return ((parseConnectionJSON value).url secretValues).getD []

theorem ConnectionDefinition.url_ne_nil {connectionDef : ConnectionDefinition}
    {secretValues : Map Str} {url : Str} (h : connectionDef.url secretValues = some url) :
    url ≠ [] := by
  unfold ConnectionDefinition.url at h
  split at h
  next => cases h
  next hparts =>
    have hurl : ∀ password, buildConnectionURL connectionDef password ≠ [] :=
      fun password => Url.string_ne_nil (fun hdriver => hparts (Or.inl hdriver))
    split at h
    next =>
      cases h
      exact hurl []
    next =>
      obtain ⟨password, -, rfl⟩ := Option.map_eq_some_iff.mp h
      exact hurl password

end CCattler.NodeAgent
