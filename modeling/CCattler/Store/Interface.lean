import CCattler.Store.FactTableLaws

/-! # The interface of the state store

A contract says which keys a reply may show, which values a request may change, and what
a watch hands over.
-/

namespace CCattler.Store

open Go

/-- The methods of `StateStore` with their arguments. -/
inductive StoreRequest where
  | get (key : Str)
  | put (key value : Str)
  | delete (key : Str)
  | scan (scanPrefix : Str)
  | scanWithRevision (scanPrefix : Str)
  | watch (key : Str) (opts : WatchOption)
  | grantLease (ttlSeconds : Int)
  | putWithLease (key value : Str) (leaseID : Int)
  | renewLease (leaseID : Int)
  | revokeLease (leaseID : Int)
  | transaction (compares : List Compare) (onSuccess onFailure : List Op)
  | revision
  | close
  deriving DecidableEq

abbrev StoreResult : StoreRequest → Type
  | .get _ => Fact
  | .put _ _ | .putWithLease _ _ _ => Int
  | .delete _ | .revokeLease _ | .close => Unit
  | .scan _ => List Fact
  | .scanWithRevision _ => ScanResult
  | .watch _ _ => Nat
  | .grantLease _ | .renewLease _ | .revision => Int
  | .transaction _ _ _ => Bool

/-- `StateStore`: an implementation over its own states and errors. -/
structure StateStore (State Error : Type) where
  perform : (request : StoreRequest) → State → Except Error (StoreResult request) × State

def StoreRequest.shown : (request : StoreRequest) → StoreResult request → List Fact
  | .get _, fact => [fact]
  | .scan _, facts => facts
  | .scanWithRevision _, result => result.facts
  | .put _ _, _ | .delete _, _ | .watch _ _, _ | .grantLease _, _ | .putWithLease _ _ _, _
  | .renewLease _, _ | .revokeLease _, _ | .transaction _ _ _, _ | .revision, _ | .close, _ => []

def StoreRequest.reads (request : StoreRequest) (key : Str) : Prop :=
  match request with
  | .get asked => key = asked
  | .scan scanPrefix | .scanWithRevision scanPrefix => scanPrefix <+: key
  | _ => False

def StoreRequest.operations : StoreRequest → List Op
  | .put key value => [⟨.put, key, value⟩]
  | .delete key => [⟨.delete, key, []⟩]
  | .transaction _ onSuccess onFailure => onSuccess ++ onFailure
  | _ => []

def StoreRequest.usesLease : StoreRequest → Bool
  | .putWithLease _ _ _ | .revokeLease _ => true
  | _ => false

def WatchOption.covers (opts : WatchOption) (watched key : Str) : Prop :=
  if opts.byPrefix then watched <+: key else key = watched

def Event.IsMarker (event : Event) : Prop :=
  event = Event.overflowMarker ∨ event = Event.compactedMarker

def Event.carried (event : Event) : List Fact := event.fact :: event.prev.toList

/-- What the interface promises, in terms of values, leases and the events handed over. -/
structure StateStore.Contract {State Error : Type} (inner : StateStore State Error) where
  value : State → Str → Option Str
  attached : State → Int → Str → Bool
  accepts : State → Bool
  handed : State → Nat → List Event
  /-- A state that the store can reach from another one. -/
  later : State → State → Prop
  shown_key : ∀ {request state result}, (inner.perform request state).1 = .ok result →
    ∀ fact ∈ request.shown result, request.reads fact.key
  watch_handed : ∀ {key opts state channel last},
    (inner.perform (.watch key opts) state).1 = .ok channel →
    later (inner.perform (.watch key opts) state).2 last →
    ∀ event ∈ handed last channel, event.IsMarker ∨ ∀ fact ∈ event.carried, opts.covers key fact.key
  changes : ∀ (request : StoreRequest) (state key), request.usesLease = false →
    value (inner.perform request state).2 key = value state key ∨
      ∃ operation ∈ request.operations, operation.key = key ∧
        value (inner.perform request state).2 key = FactTable.outcome operation
  putWithLease_value : ∀ key value' leaseID state other,
    value (inner.perform (.putWithLease key value' leaseID) state).2 other =
      if accepts state = true ∧ other = key then some value' else value state other
  revokeLease_value : ∀ leaseID state key,
    value (inner.perform (.revokeLease leaseID) state).2 key =
      if accepts state = true ∧ attached state leaseID key = true then none else value state key

end CCattler.Store
