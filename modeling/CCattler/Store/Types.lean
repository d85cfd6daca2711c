import CCattler.Go.Strings

/-! # Facts, events, and transaction items of the state store -/

namespace CCattler.Store

open Go

structure Fact where
  key : Str
  value : Str
  revision : Int
  createRevision : Int
  leaseID : Int
  deriving DecidableEq, Repr, Inhabited

inductive EventType where
  | put
  | delete
  | overflow
  | compacted
  deriving DecidableEq, Repr

/-- A change notification; `prev` is the fact before the change. -/
structure Event where
  type : EventType
  fact : Fact
  prev : Option Fact
  deriving DecidableEq, Repr

def Fact.zero : Fact := ⟨[], [], 0, 0, 0⟩

/-- `Event{Type: EventOverflow}`. -/
def Event.overflowMarker : Event := ⟨.overflow, Fact.zero, none⟩

/-- `Event{Type: EventCompacted}`. -/
def Event.compactedMarker : Event := ⟨.compacted, Fact.zero, none⟩

structure Compare where
  key : Str
  revision : Int
  deriving DecidableEq, Repr

inductive OpType where
  | put
  | delete
  deriving DecidableEq, Repr

structure Op where
  type : OpType
  key : Str
  value : Str
  deriving DecidableEq, Repr

/-- `WatchOption`; `byPrefix` is the source's `Prefix`. -/
structure WatchOption where
  byPrefix : Bool
  startRevision : Int
  deriving DecidableEq, Repr

structure ScanResult where
  facts : List Fact
  revision : Int

inductive StoreError where
  | keyNotFound
  | storeClosed
  | transactionTooLarge (operations limit : Nat)
  deriving DecidableEq, Repr

def StoreError.message : StoreError → String
  | .keyNotFound => "key not found"
  | .storeClosed => "store closed"
  | .transactionTooLarge operations limit =>
    s!"transaction too large: {operations} operations exceeds limit of {limit}"

end CCattler.Store
