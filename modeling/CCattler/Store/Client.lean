import CCattler.Concurrency.Program
import CCattler.Store.Interface
import CCattler.Store.Values

/-! # Programs over the store

Handlers and services are programs over the requests of the store, which can be run,
made to fail at any call, or interleaved.
-/

namespace CCattler.Store

open Go Concurrency

/-- What a caller can tell about a failed call: whether it is `ErrKeyNotFound`,
and the text. -/
inductive CallError where
  | keyNotFound
  | failed (message : Str)
  deriving DecidableEq

def CallError.message : CallError → Str
  | .keyNotFound => lit "key not found"
  | .failed message => message

abbrev StoreReply (request : StoreRequest) : Type := Except CallError (StoreResult request)

/-- A program over the store. -/
abbrev StoreProgram (Result : Type) : Type := Proc StoreRequest StoreReply Result

namespace StoreProgram

def get (key : Str) : StoreProgram (Except CallError Fact) :=
  Proc.request (StoreRequest.get key)

def put (key value : Str) : StoreProgram (Except CallError Int) :=
  Proc.request (StoreRequest.put key value)

def delete (key : Str) : StoreProgram (Except CallError Unit) :=
  Proc.request (StoreRequest.delete key)

def scan (scanPrefix : Str) : StoreProgram (Except CallError (List Fact)) :=
  Proc.request (StoreRequest.scan scanPrefix)

def watch (key : Str) (opts : WatchOption) : StoreProgram (Except CallError Nat) :=
  Proc.request (StoreRequest.watch key opts)

end StoreProgram

/-- The error of a store as its callers see it. -/
def StoreError.seen : StoreError → CallError
  | .keyNotFound => .keyNotFound
  | error => .failed (lit error.message)

namespace ValidTable

/-- The table of `NewMemoryStore`. -/
def new : ValidTable := ⟨FactTable.new, FactTable.valid_new⟩

/-- The table after a data section. -/
def after (table : ValidTable) (operation : Operation) : ValidTable :=
  ⟨(table.toFactTable.perform operation).1, table.valid.perform operation⟩

/-- An open in-memory store that answers requests one at a time. -/
def perform : (request : StoreRequest) → ValidTable → StoreReply request × ValidTable
  | .get key, table => ((table.get key).mapError StoreError.seen, table)
  | .put key value, table | .putWithLease key value _, table =>
    (.ok (table.put key value).result, table.after (.put key value))
  | .delete key, table =>
    ((table.delete key).result.mapError StoreError.seen, table.after (.delete key))
  | .scan scanPrefix, table => (.ok (table.scanned scanPrefix), table)
  | .scanWithRevision scanPrefix, table =>
    (.ok ⟨table.scanned scanPrefix, table.currentRevision⟩, table)
  | .watch _ _, table => (.ok 0, table)
  | .grantLease _, table => (.ok table.grantLease.result, table.after .grantLease)
  | .renewLease _, table => (.ok 900, table)
  | .revokeLease _, table | .close, table => (.ok (), table)
  | .transaction compares onSuccess onFailure, table =>
    ((table.transaction compares onSuccess onFailure).result.mapError StoreError.seen,
      table.after (.transaction compares onSuccess onFailure))
  | .revision, table => (.ok table.currentRevision, table)

variable (table : ValidTable)

@[simp] theorem value_after_put (key value other : Str) :
    (table.after (.put key value)).value other =
      if other = key then some value else table.value other :=
  FactTable.value_put table.toFactTable key value other

@[simp] theorem value_after_delete (key other : Str) :
    (table.after (.delete key)).value other = if other = key then none else table.value other :=
  FactTable.value_delete table.toFactTable key other

end ValidTable

/-- The request changes no fact. -/
def StoreRequest.IsRead (request : StoreRequest) : Prop :=
  match request with
  | .get _ | .scan _ | .scanWithRevision _ | .watch _ _ | .revision => True
  | _ => False

theorem ValidTable.perform_of_isRead {request : StoreRequest} (h : request.IsRead)
    (table : ValidTable) : (perform request table).2 = table := by
  cases request <;> first | rfl | exact h.elim

end CCattler.Store
