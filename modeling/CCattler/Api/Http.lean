import CCattler.Security.ApiAuthorizer
import CCattler.Store.Client

/-! # Requests, responses and handlers

A handler asks the authorizer, works on the store and stops at the first error. A
request carries the decoded body or the way it failed to decode.
-/

namespace CCattler.Api

open Go Store Security Concurrency
open ValidTable (perform)

/-- The methods that the handlers tell apart. -/
inductive Method where
  | get
  | post
  | put
  | delete
  | other
  deriving DecidableEq, Repr

inductive BodyError where
  | unreadable
  | invalidJSON
  deriving DecidableEq, Repr

/-- A request with its principal as authenticated; `query` is `Query().Get`. -/
structure Request (Body : Type) where
  method : Method
  query : Str → Str
  principal : Principal
  body : Except BodyError Body

/-- What handlers encode into a response. -/
inductive Json where
  | null
  | bool (value : Bool)
  | int (value : Int)
  | str (value : Str)
  | array (items : List Json)
  | object (fields : List (Str × Json))

/-- A response; `forbidden` is a 403 with the text of the denial. -/
inductive Response where
  | ok (body : Option Json)
  | error (statusCode : Nat) (message : Str)
  | forbidden (denial : APIDenial)

def statusBadRequest : Nat := 400

def statusForbidden : Nat := 403

def statusNotFound : Nat := 404

def statusMethodNotAllowed : Nat := 405

def statusInternalServerError : Nat := 500

def statusServiceUnavailable : Nat := 503

abbrev Handler (Result : Type) : Type := ExceptT Response StoreProgram Result

namespace Handler

variable {Result Second : Type}

/-- Run a step against a store. -/
def runOn (handler : Handler Result) (table : ValidTable) : Except Response Result × ValidTable :=
  Proc.eval perform handler.run table

/-- A store call whose error is answered with a text before the store's own. -/
def orFail {Value : Type} (call : StoreProgram (Except CallError Value)) (text : Str) :
    Handler Value := do
  match ← call with
  | .ok value => pure value
  | .error callError => throw (.error statusInternalServerError (text ++ callError.message))

def put (key value : Str) : Handler Int :=
  orFail (StoreProgram.put key value) (lit "store write failed: ")

def delete (key : Str) : Handler Unit :=
  orFail (StoreProgram.delete key) (lit "store delete failed: ")

def scan (scanPrefix : Str) : Handler (List Fact) :=
  orFail (StoreProgram.scan scanPrefix) (lit "store scan failed: ")

variable (table : ValidTable)

@[simp] theorem runOn_pure (result : Result) :
    (pure result : Handler Result).runOn table = (.ok result, table) := rfl

@[simp] theorem runOn_throw (response : Response) :
    (throw response : Handler Result).runOn table = (.error response, table) := rfl

@[simp] theorem runOn_lift (outcome : Except Response Result) :
    (liftM outcome : Handler Result).runOn table = (outcome, table) := rfl

@[simp] theorem runOn_bind (first : Handler Result) (rest : Result → Handler Second) :
    (first >>= rest).runOn table =
      match first.runOn table with
      | (.ok result, later) => (rest result).runOn later
      | (.error response, later) => (.error response, later) := by
  unfold runOn
  rw [ExceptT.run_bind, Proc.eval_bind]
  cases Proc.eval perform first.run table with
  | mk outcome later => cases outcome <;> rfl

@[simp] theorem runOn_put (key value : Str) : (put key value).runOn table =
      (.ok (table.put key value).result, table.after (.put key value)) := rfl

theorem runOn_call (call : StoreProgram Result) : runOn (ExceptT.lift call) table =
      (.ok (call.eval perform table).1, (call.eval perform table).2) :=
  Proc.eval_bind perform call (fun result => pure (Except.ok result : Except Response Result)) table

theorem runOn_orFail_table {Value : Type} (call : StoreProgram (Except CallError Value))
    (text : Str) : ((orFail call text).runOn table).2 = (call.eval perform table).2 := by
  have hcall : orFail call text = (ExceptT.lift call >>= fun reply =>
      match reply with
      | .ok value => pure value
      | .error callError => throw (.error statusInternalServerError (text ++ callError.message))) :=
    rfl
  rw [hcall, runOn_bind, runOn_call]
  cases (call.eval perform table).1 <;> rfl

theorem runOn_bind_pure_table (first : Handler Result) (second : Second) :
    ((first >>= fun _ => pure second).runOn table).2 = (first.runOn table).2 := by
  rw [runOn_bind]
  cases first.runOn table with
  | mk outcome later => cases outcome <;> rfl

theorem runOn_delete_table (key : Str) : ((delete key).runOn table).2 = table.after (.delete key) :=
  runOn_orFail_table table _ _

end Handler

/-- The parts of `Server` that its handlers use. -/
structure Server where
  apiAuthorizer : Option APIAuthorizer

def Server.requireCapability (server : Server) (order : IterationOrder) {Body : Type}
    (request : Request Body) (capability : Capability) (scope : Scope) : Except Response Unit :=
  match server.apiAuthorizer with
  | none => .error (.error statusInternalServerError (lit "authorization not configured"))
  | some authorizer =>
    match (authorizer.authorizeAPI order request.principal capability scope none).1 with
    | .error denial => .error (.forbidden denial)
    | .ok () => .ok ()

end CCattler.Api
