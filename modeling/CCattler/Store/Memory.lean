import Mathlib.Logic.Function.Iterate
import CCattler.Go.Channel
import CCattler.Store.EventHistory
import CCattler.Store.FactTable

/-! # The in-memory store

The event side, guarded by `eventMutex`, joined to the fact table. A consumer may take
from its channel at any time, also between the two sends of one delivery.
-/

namespace CCattler.Store

open Go

/-- A watch subscription; `eventChannel` refers to the heap of channels. -/
structure FactWatcher where
  keyPattern : Str
  matchByPrefix : Bool
  eventChannel : Nat
  overflowDetected : Bool
  deriving DecidableEq, Repr

def defaultWatchChannelBufferSize : Nat := 256

def matchesWatchPattern (event : Event) (keyPattern : Str) (matchByPrefix : Bool) : Bool :=
  if matchByPrefix then Str.hasPrefix event.fact.key keyPattern
  else event.fact.key == keyPattern

/-- What `eventMutex` guards, with every channel ever made. -/
structure EventHub where
  activeWatchers : List FactWatcher
  eventHistory : EventHistoryBuffer
  watchChannelBufferSize : Nat
  channels : Nat → Channel Event
  channelCount : Nat

namespace EventHub

def new : EventHub where
  activeWatchers := []
  eventHistory := EventHistoryBuffer.new defaultEventHistoryCapacity
  watchChannelBufferSize := defaultWatchChannelBufferSize
  channels := fun _ => Channel.make 0
  channelCount := 0

variable (hub : EventHub)

def setWatchChannelBufferSize (bufferSize : Nat) : EventHub :=
  { hub with watchChannelBufferSize := bufferSize }

/-- The replay loop of `Watch`: an event that does not fit is dropped. -/
def replay (channel : Channel Event) : List Event → Channel Event
  | [] => channel
  | historicalEvent :: rest => replay (channel.trySend historicalEvent).1 rest

/-- Put a channel on the heap. -/
def allocate (channel : Channel Event) : EventHub :=
  { hub with
    channels := Function.update hub.channels hub.channelCount channel
    channelCount := hub.channelCount + 1 }

/-- Register a watcher on a new channel. -/
def register (key : Str) (opts : WatchOption) (channel : Channel Event) : EventHub :=
  { hub.allocate channel with
    activeWatchers :=
      hub.activeWatchers ++ [⟨key, opts.byPrefix, hub.channelCount, false⟩] }

/-- `Watch`; a start revision that has left the history gets only the compaction marker. -/
def watch (key : Str) (opts : WatchOption) : EventHub × Nat :=
  let eventChannel : Channel Event := Channel.make hub.watchChannelBufferSize
  if 0 < opts.startRevision then
    match hub.eventHistory.eventsFromRevision opts.startRevision with
    -- the channel is closed and never registered
    | none => (hub.allocate (eventChannel.send Event.compactedMarker).close, hub.channelCount)
    | some historicalEvents =>
      let matching := historicalEvents.filter
        (fun event => matchesWatchPattern event key opts.byPrefix)
      (hub.register key opts (replay eventChannel matching), hub.channelCount)
  else (hub.register key opts eventChannel, hub.channelCount)

/-- `removeWatcher`: unregister the watcher of a channel and close it. -/
def removeWatcher (eventChannel : Nat) : EventHub :=
  if hub.activeWatchers.any (fun watcher => watcher.eventChannel == eventChannel) then
    { hub with
      activeWatchers :=
        hub.activeWatchers.eraseP (fun watcher => watcher.eventChannel == eventChannel)
      channels :=
        Function.update hub.channels eventChannel (hub.channels eventChannel).close }
  else hub

/-- An owed overflow marker is tried first, then the event; `taken` values are consumed. -/
def deliver (event : Event) (taken : Nat) (watcher : FactWatcher) (channel : Channel Event) :
    FactWatcher × Channel Event :=
  if matchesWatchPattern event watcher.keyPattern watcher.matchByPrefix then
    -- a marker that does not fit either stays owed
    let marked :=
      if watcher.overflowDetected then
        let sent := channel.trySend Event.overflowMarker
        ({ watcher with overflowDetected := !sent.2 }, sent.1)
      else (watcher, channel)
    let sent := (Channel.receive^[taken] marked.2).trySend event
    (if sent.2 then marked.1 else { marked.1 with overflowDetected := true }, sent.1)
  else (watcher, channel)

/-- The loop of `broadcastEvent` over the watchers. -/
def deliverAll (event : Event) (taken : Nat → Nat) :
    List FactWatcher → (Nat → Channel Event) → List FactWatcher × (Nat → Channel Event)
  | [], channels => ([], channels)
  | watcher :: rest, channels =>
    let delivered := deliver event (taken watcher.eventChannel) watcher
      (channels watcher.eventChannel)
    let later := deliverAll event taken rest
      (Function.update channels watcher.eventChannel delivered.2)
    (delivered.1 :: later.1, later.2)

def broadcastEvent (event : Event) (taken : Nat → Nat) : EventHub :=
  let delivered := deliverAll event taken hub.activeWatchers hub.channels
  { hub with
    eventHistory := hub.eventHistory.append event.fact.revision event
    activeWatchers := delivered.1
    channels := delivered.2 }

/-- The event side of `Close`. -/
def close : EventHub :=
  { hub with
    channels := hub.activeWatchers.foldl (fun channels watcher =>
      Function.update channels watcher.eventChannel (channels watcher.eventChannel).close)
      hub.channels
    activeWatchers := [] }

/-- One receive by the consumer of a channel. -/
def receive (channel : Nat) : EventHub :=
  { hub with channels := Function.update hub.channels channel (hub.channels channel).receive }

end EventHub

/-- `MemoryStore`: the two guarded halves and the closed flag. -/
structure MemoryStore where
  table : FactTable
  hub : EventHub
  isClosed : Bool

namespace MemoryStore

/-- `NewMemoryStore`. -/
def new : MemoryStore := ⟨FactTable.new, EventHub.new, false⟩

variable (store : MemoryStore)

def get (key : Str) : Except StoreError Fact :=
  if store.isClosed then .error .storeClosed else store.table.get key

/-- Leave the data lock and broadcast the pending events, undisturbed. -/
def finish {Result : Type} (store : MemoryStore) (locked : Locked Result) : MemoryStore × Result :=
  ({ store with
      table := locked.table
      hub := locked.pendingEvents.foldl (fun hub event => hub.broadcastEvent event (fun _ => 0))
        store.hub },
    locked.result)

def put (key value : Str) : MemoryStore × Except StoreError Int :=
  if store.isClosed then (store, .error .storeClosed)
  else
    let finished := store.finish (store.table.put key value)
    (finished.1, .ok finished.2)

/-- `PutWithLease` ignores its lease. -/
def putWithLease (key value : Str) (_leaseID : Int) : MemoryStore × Except StoreError Int :=
  store.put key value

def delete (key : Str) : MemoryStore × Except StoreError Unit :=
  if store.isClosed then (store, .error .storeClosed) else store.finish (store.table.delete key)

/-- `Scan`; the outer `none` is a nil dereference. -/
def scan (scanPrefix : Str) : Option (Except StoreError (List Fact)) :=
  if store.isClosed then some (.error .storeClosed)
  else (store.table.scan scanPrefix).map Except.ok

def scanWithRevision (scanPrefix : Str) : Option (Except StoreError ScanResult) :=
  if store.isClosed then some (.error .storeClosed)
  else (store.table.scanWithRevision scanPrefix).map Except.ok

def transaction (compares : List Compare) (onSuccess onFailure : List Op) :
    MemoryStore × Except StoreError Bool :=
  if store.isClosed then (store, .error .storeClosed)
  else store.finish (store.table.transaction compares onSuccess onFailure)

def revision : Except StoreError Int :=
  if store.isClosed then .error .storeClosed else .ok store.table.currentRevision

/-- `GrantLease` does not look at the closed flag. -/
def grantLease : MemoryStore × Int := store.finish store.table.grantLease

/-- `Watch`, with the reference of the returned channel. -/
def watch (key : Str) (opts : WatchOption) : MemoryStore × Except StoreError Nat :=
  if store.isClosed then (store, .error .storeClosed)
  else ({ store with hub := (store.hub.watch key opts).1 }, .ok (store.hub.watch key opts).2)

def close : MemoryStore :=
  if store.isClosed then store else { store with isClosed := true, hub := store.hub.close }

/-- A call run to its end with nothing in between. -/
def exec : Operation → MemoryStore
  | .get _ | .scan _ | .scanWithRevision _ => store
  | .put key value => (store.put key value).1
  | .delete key => (store.delete key).1
  | .transaction compares onSuccess onFailure =>
    (store.transaction compares onSuccess onFailure).1
  | .grantLease => store.grantLease.1

/-- The store after a sequence of calls. -/
def run (operations : List Operation) : MemoryStore :=
  operations.foldl exec store

theorem exec_table {store : MemoryStore} (hopen : store.isClosed = false) (operation : Operation) :
    (store.exec operation).table = (store.table.perform operation).1 ∧
      (store.exec operation).isClosed = false := by
  cases operation <;>
    simp [exec, put, delete, transaction, grantLease, finish, hopen, FactTable.perform]

theorem run_table {store : MemoryStore} (hopen : store.isClosed = false)
    (operations : List Operation) :
    (store.run operations).table = store.table.run operations ∧
      (store.run operations).isClosed = false := by
  induction operations generalizing store with
  | nil => exact ⟨rfl, hopen⟩
  | cons operation rest ih =>
    obtain ⟨htable, hstill⟩ := exec_table hopen operation
    obtain ⟨hrest, hend⟩ := ih hstill
    refine ⟨?_, hend⟩
    rw [htable] at hrest
    exact hrest

theorem run_new_table (operations : List Operation) :
    (new.run operations).table = FactTable.new.run operations ∧
      (new.run operations).isClosed = false :=
  run_table rfl operations

end MemoryStore

end CCattler.Store
