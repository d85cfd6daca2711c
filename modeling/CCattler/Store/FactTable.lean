import CCattler.Store.Types
import CCattler.Store.Trie

/-! # The data-lock side of the in-memory store

What `dataMutex` guards. A writing section leaves the events it owes behind, to be
broadcast after the lock is released.
-/

namespace CCattler.Store

open Go

/-- `facts`, `keyIndex`, and the revision counter. -/
structure FactTable where
  facts : Str → Option Fact
  keyIndex : PrefixTrie
  currentRevision : Int

/-- The table a locked section leaves, its result, and the events to be broadcast. -/
structure Locked (Result : Type) where
  table : FactTable
  result : Result
  pendingEvents : List Event

def memoryStoreTransactionOperationLimit : Nat := 128

namespace FactTable

/-- The table of `NewMemoryStore`. -/
def new : FactTable := ⟨fun _ => none, PrefixTrie.new, 0⟩

section

variable (table : FactTable)

variable (key : Str)

/-- `found && bytes.Equal(existingFact.Value, value)`. -/
def holds (value : Str) : Bool :=
  (table.facts key).any (fun existingFact => existingFact.value == value)

/-- `currentRevision.Add(1)`. -/
def advance : FactTable :=
  { table with currentRevision := table.currentRevision + 1 }

def applyPut (value : Str) (revision : Int) : FactTable × Event :=
  let previousFact := table.facts key
  let createRevision := (previousFact.map Fact.createRevision).getD revision
  let newFact : Fact := ⟨key, value, revision, createRevision, 0⟩
  ({ table with
      facts := Function.update table.facts key (some newFact)
      keyIndex := table.keyIndex.insert key },
    ⟨.put, newFact, previousFact⟩)

/-- The removal shared by `Delete` and `executeDeleteOperation`. -/
def applyDelete (existingFact : Fact) (key : Str) (revision : Int) : FactTable × Event :=
  ({ table with
      facts := Function.update table.facts key none
      keyIndex := (table.keyIndex.remove key).1 },
    ⟨.delete, ⟨key, [], revision, 0, 0⟩, some existingFact⟩)

def get : Except StoreError Fact :=
  match table.facts key with
  | none => .error .keyNotFound
  | some existingFact => .ok existingFact

/-- The data section of `Put`: an equal value only reports the fact's revision. -/
def put (value : Str) : Locked Int :=
  match table.facts key with
  | some existingFact =>
    if existingFact.value = value then ⟨table, existingFact.revision, []⟩
    else
      let newRevision := table.currentRevision + 1
      let written := table.advance.applyPut key value newRevision
      ⟨written.1, newRevision, [written.2]⟩
  | none =>
    let newRevision := table.currentRevision + 1
    let written := table.advance.applyPut key value newRevision
    ⟨written.1, newRevision, [written.2]⟩

/-- The data section of `Delete`. -/
def delete : Locked (Except StoreError Unit) :=
  match table.facts key with
  | none => ⟨table, .error .keyNotFound, []⟩
  | some existingFact =>
    let removed := table.advance.applyDelete existingFact key (table.currentRevision + 1)
    ⟨removed.1, .ok (), [removed.2]⟩

/-- Pointers to the facts; `none` is the nil pointer of a key not in the map. -/
def collectFactPointers (scanPrefix : Str) : List (Option Fact) :=
  (table.keyIndex.keysWithPrefix scanPrefix).map table.facts

end

/-- Copies of the pointed-to facts; `none` is a nil dereference. -/
def copyFactPointers : List (Option Fact) → Option (List Fact)
  | [] => some []
  | none :: _ => none
  | some fact :: rest => (copyFactPointers rest).map (fun copied => fact :: copied)

section

variable (table : FactTable)

/-- `Scan`, through `snapshotMatchingFacts`. -/
def scan (scanPrefix : Str) : Option (List Fact) :=
  copyFactPointers (table.collectFactPointers scanPrefix)

def scanWithRevision (scanPrefix : Str) : Option ScanResult :=
  (copyFactPointers (table.collectFactPointers scanPrefix)).map
    (fun facts => ⟨facts, table.currentRevision⟩)

def meets (comparison : Compare) : Bool :=
  if comparison.revision = 0 then (table.facts comparison.key).isNone
  else (table.facts comparison.key).any
    (fun existingFact => existingFact.revision == comparison.revision)

def evaluateTransactionPreconditions (compares : List Compare) : Bool :=
  compares.all table.meets

def wouldMutate (operation : Op) : Bool :=
  match operation.type with
  | .put => !table.holds operation.key operation.value
  | .delete => (table.facts operation.key).isSome

def transactionWouldMutateState (operations : List Op) : Bool :=
  operations.any table.wouldMutate

variable (operation : Op) (transactionRevision : Int)

def executePutOperation : FactTable × Option Event :=
  if table.holds operation.key operation.value then (table, none)
  else
    let written := table.applyPut operation.key operation.value transactionRevision
    (written.1, some written.2)

def executeDeleteOperation : FactTable × Option Event :=
  match table.facts operation.key with
  | none => (table, none)
  | some existingFact =>
    let removed := table.applyDelete existingFact operation.key transactionRevision
    (removed.1, some removed.2)

/-- The switch in the loop of `executeTransactionOperations`. -/
def executeOperation : FactTable × Option Event :=
  match operation.type with
  | .put => table.executePutOperation operation transactionRevision
  | .delete => table.executeDeleteOperation operation transactionRevision

end

def executeTransactionOperations (table : FactTable) (operations : List Op)
    (transactionRevision : Int) : FactTable × List Event :=
  match operations with
  | [] => (table, [])
  | operation :: rest =>
    let first := table.executeOperation operation transactionRevision
    let later := first.1.executeTransactionOperations rest transactionRevision
    (later.1, first.2.toList ++ later.2)

def commitBranch (table : FactTable) (operationsToExecute : List Op) : FactTable × List Event :=
  -- the check sees every operation against the table before the branch
  if table.transactionWouldMutateState operationsToExecute then
    table.advance.executeTransactionOperations operationsToExecute (table.currentRevision + 1)
  else table.executeTransactionOperations operationsToExecute 0

/-- The data section of `Transaction`. -/
def transaction (table : FactTable) (compares : List Compare) (onSuccess onFailure : List Op) :
    Locked (Except StoreError Bool) :=
  let totalTransactionOperations := compares.length + onSuccess.length + onFailure.length
  if totalTransactionOperations > memoryStoreTransactionOperationLimit then
    ⟨table, .error (.transactionTooLarge totalTransactionOperations
      memoryStoreTransactionOperationLimit), []⟩
  else
    let allPreconditionsMet := table.evaluateTransactionPreconditions compares
    let committed := table.commitBranch (if allPreconditionsMet then onSuccess else onFailure)
    ⟨committed.1, .ok allPreconditionsMet, committed.2⟩

/-- `GrantLease`: the synthetic lease ID is a fresh revision. -/
def grantLease (table : FactTable) : Locked Int :=
  ⟨table.advance, table.currentRevision + 1, []⟩

end FactTable

/-- A call of the store's data interface. `PutWithLease` is `Put`. -/
inductive Operation where
  | get (key : Str)
  | put (key value : Str)
  | delete (key : Str)
  | scan (scanPrefix : Str)
  | scanWithRevision (scanPrefix : Str)
  | transaction (compares : List Compare) (onSuccess onFailure : List Op)
  | grantLease
  deriving DecidableEq, Repr

def Operation.writtenKeys : Operation → List Str
  | .put key _ => [key]
  | .delete key => [key]
  | .transaction _ onSuccess onFailure => (onSuccess ++ onFailure).map Op.key
  | _ => []

namespace FactTable

def perform (table : FactTable) : Operation → FactTable × List Event
  | .put key value => ((table.put key value).table, (table.put key value).pendingEvents)
  | .delete key => ((table.delete key).table, (table.delete key).pendingEvents)
  | .transaction compares onSuccess onFailure =>
    ((table.transaction compares onSuccess onFailure).table,
      (table.transaction compares onSuccess onFailure).pendingEvents)
  | .grantLease => (table.grantLease.table, table.grantLease.pendingEvents)
  | .get _ | .scan _ | .scanWithRevision _ => (table, [])

def run (table : FactTable) (operations : List Operation) : FactTable :=
  operations.foldl (fun current operation => (current.perform operation).1) table

end FactTable

end CCattler.Store
