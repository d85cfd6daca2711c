import CCattler.Store.Interface
import CCattler.Store.System

/-! # The in-memory store keeps the contract

A call commits under the data lock, and its events are broadcast by later steps of the
interleaved system.
-/

namespace CCattler.Store

open Go List FactTable Channel

/-! ## Values after a call -/

namespace FactTable

variable {table : FactTable}

/-- A value changes through an operation on its key only. -/
theorem perform_value_cases (table : FactTable) (operation : Operation) (key : Str) :
    ((table.perform operation).1.facts key).map Fact.value = (table.facts key).map Fact.value ∨
      ∃ part ∈ table.branchOf operation, part.key = key ∧
        ((table.perform operation).1.facts key).map Fact.value = outcome part := by
  by_cases hgrant : operation = .grantLease
  · rw [hgrant]
    exact Or.inl rfl
  rw [perform_eq_commitBranch table hgrant, commitBranch_eq]
  split
  next =>
    refine (executeTransactionOperations_induction
      (P := fun current => (current.facts key).map Fact.value = (table.facts key).map Fact.value ∨
        ∃ part ∈ table.branchOf operation, part.key = key ∧
          (current.facts key).map Fact.value = outcome part) ?_ ?_).1
    · intro current part hmem hcurrent
      by_cases hkey : part.key = key
      · subst hkey
        exact Or.inr ⟨part, hmem, rfl, executeOperation_value _ _ _⟩
      · rw [executeOperation_facts_of_ne (Ne.symm hkey)]
        exact hcurrent
    · exact Or.inl rfl
  next => exact Or.inl rfl

end FactTable

/-! ## Events carry facts of one key -/

/-- An event and the fact it replaces have the same key. -/
def Event.Keyed (event : Event) : Prop := ∀ prev ∈ event.prev, prev.key = event.fact.key

namespace FactTable

variable {table : FactTable}

theorem keyed_eventOf (h : table.Stamped) (operation : Op) (revision : Int) :
    (table.eventOf operation revision).Keyed := by
  obtain ⟨type, _, _⟩ := operation
  intro _ hprev
  cases type <;> exact h.key_eq hprev

theorem keyed_perform (h : table.Valid) (operation : Operation) :
    ∀ event ∈ (table.perform operation).2, event.Keyed := by
  by_cases hgrant : operation = .grantLease
  · rw [hgrant, perform_grantLease]
    simp
  · rw [perform_eq_commitBranch table hgrant]
    intro event hevent
    obtain ⟨_, _, _, hvalid, rfl⟩ := (h.commitBranch_and_events _).2 event hevent
    exact keyed_eventOf hvalid.stamped _ _

end FactTable

namespace System

variable {system : System}

/-- Every event on its way or broadcast so far is keyed. -/
structure Keyed (system : System) : Prop where
  inflight : ∀ event ∈ system.inflight.flatten, event.Keyed
  log : ∀ event ∈ system.log, event.Keyed

theorem keyed_initial (bufferSize : Nat) : (initial bufferSize).Keyed :=
  ⟨by simp [initial], by simp [initial]⟩

theorem Keyed.step (h : system.Keyed) (hcoherent : system.Coherent) (action : Step) :
    (system.step action).Keyed := by
  have heffect := step_effect system action
  generalize system.step action = next at heffect ⊢
  cases heffect with
  | call operation =>
    refine ⟨?_, h.log⟩
    simp only [System.step]
    split
    next => exact h.inflight
    next =>
      intro event hevent
      rw [flatten_append, mem_append] at hevent
      rcases hevent with hold | hnew
      · exact h.inflight event hold
      · exact keyed_perform hcoherent.valid operation event (by simpa using hnew)
  | broadcast hwriter =>
    obtain ⟨_, hbefore, hafter⟩ := flatten_split hwriter
    have hinflight := h.inflight
    rw [hbefore] at hinflight
    refine ⟨?_, ?_⟩
    · intro event hevent
      rw [hafter, mem_append] at hevent
      refine hinflight event (mem_append.mpr (hevent.imp id fun htail => ?_))
      exact mem_cons_of_mem _ htail
    · intro event hevent
      rcases mem_append.mp hevent with hlog | hnew
      · exact h.log event hlog
      · exact hinflight event (mem_append_right _ (by simp_all))
  | idle => exact h
  | hub => exact ⟨h.inflight, h.log⟩

end System

/-! ## What a watch hands over -/

/-- An event that a watch may hand over: a marker, or one that matches. -/
def WatchOption.admits (opts : WatchOption) (key : Str) (event : Event) : Prop :=
  event.IsMarker ∨ (matchesWatchPattern event key opts.byPrefix = true ∧ event.Keyed)

variable {event : Event}

theorem WatchOption.admits.carried {opts : WatchOption} {key : Str} (h : opts.admits key event) :
    event.IsMarker ∨ ∀ fact ∈ event.carried, opts.covers key fact.key := by
  refine h.imp id ?_
  rintro ⟨hmatches, hkeyed⟩ fact hfact
  have hkey : fact.key = event.fact.key := by
    rcases mem_cons.mp hfact with rfl | hprev
    · rfl
    · exact hkeyed fact (by simpa using hprev)
  rw [hkey]
  unfold WatchOption.covers
  unfold matchesWatchPattern at hmatches
  split
  next hstarts => simpa [hstarts, Str.hasPrefix_iff] using hmatches
  next hexact => simpa [hexact] using hmatches

namespace EventHub

variable {hub : EventHub} {log : List Event} {channel : Nat} {key : Str} {opts : WatchOption}

/-- The channel handed over only events of the key, as its watcher still does. -/
structure Serves (hub : EventHub) (channel : Nat) (key : Str) (opts : WatchOption) : Prop where
  allocated : channel < hub.channelCount
  handed : ∀ event ∈ (hub.channels channel).handed, opts.admits key event
  pattern : ∀ watcher ∈ hub.activeWatchers, watcher.eventChannel = channel →
    watcher.keyPattern = key ∧ watcher.matchByPrefix = opts.byPrefix

theorem serves_register (h : hub.WellFormed log) {fresh : Channel Event}
    (hfresh : ∀ event ∈ fresh.handed, opts.admits key event) :
    (hub.register key opts fresh).Serves hub.channelCount key opts where
  allocated := Nat.lt_succ_self _
  handed := by simpa [register, allocate] using hfresh
  pattern := by
    intro watcher hwatcher hchannel
    rcases mem_append.mp hwatcher with hold | hnew
    · exact absurd hchannel (Nat.ne_of_lt (h.allocated watcher hold))
    · obtain rfl := mem_singleton.mp hnew
      exact ⟨rfl, rfl⟩

theorem serves_watch (h : hub.WellFormed log) (hkeyed : ∀ event ∈ log, event.Keyed) :
    (hub.watch key opts).1.Serves (hub.watch key opts).2 key opts := by
  obtain ⟨_, ⟨hwatch, hhanded⟩ | ⟨hwatch, hhanded⟩⟩ := h.watch_cases key opts
  · rw [hwatch]
    refine ⟨Nat.lt_succ_self _, fun event hevent => ?_, fun watcher hwatcher hchannel => ?_⟩
    · simp only [allocate, Function.update_self, hhanded, mem_singleton] at hevent
      exact Or.inl (Or.inr hevent)
    · exact absurd hchannel (Nat.ne_of_lt (h.allocated watcher hwatcher))
  · rw [hwatch]
    refine serves_register h fun event hevent => ?_
    obtain ⟨hmem, hmatches⟩ := mem_filter.mp (hhanded.subset hevent)
    exact Or.inr ⟨hmatches, hkeyed event hmem⟩

variable (hserves : hub.Serves channel key opts)
include hserves

theorem Serves.broadcastEvent (h : hub.WellFormed log) (hkeyed : event.Keyed) (taken : Nat → Nat) :
    (hub.broadcastEvent event taken).Serves channel key opts := by
  refine ⟨hserves.allocated, ?_, ?_⟩
  · simp only [EventHub.broadcastEvent]
    by_cases hmem : channel ∈ hub.activeWatchers.map FactWatcher.eventChannel
    · obtain ⟨watcher, hwatcher, rfl⟩ := mem_map.mp hmem
      obtain ⟨hpattern, hby⟩ := hserves.pattern watcher hwatcher rfl
      rw [deliverAll_channel_of_mem h.owners hwatcher]
      cases hmatches : matchesWatchPattern event watcher.keyPattern watcher.matchByPrefix with
      | false =>
        rw [deliver_of_not_matches hmatches]
        exact hserves.handed
      | true =>
        obtain ⟨_, _, -, hhanded, -⟩ :=
          (deliver_of_matches hmatches (taken watcher.eventChannel)
            (hub.channels watcher.eventChannel)).outcome
        rw [hhanded]
        intro delivered hdelivered
        rw [mem_append, mem_append] at hdelivered
        rcases hdelivered with (hold | hmarker) | hsent
        · exact hserves.handed delivered hold
        · split at hmarker
          · exact Or.inl (Or.inl (mem_singleton.mp hmarker))
          · simp at hmarker
        · split at hsent
          · obtain rfl := mem_singleton.mp hsent
            rw [hpattern, hby] at hmatches
            exact Or.inr ⟨hmatches, hkeyed⟩
          · simp at hsent
    · rw [deliverAll_channel_of_notMem hmem]
      exact hserves.handed
  · intro watcher hwatcher hchannel
    simp only [EventHub.broadcastEvent, deliverAll_watchers h.owners, mem_map] at hwatcher
    obtain ⟨before, hbefore, rfl⟩ := hwatcher
    obtain ⟨hsame, hpattern, hby⟩ := deliver_watcher event (taken before.eventChannel) before
      (hub.channels before.eventChannel)
    rw [hpattern, hby]
    exact hserves.pattern before hbefore (hsame.symm.trans hchannel)

theorem Serves.calm {next : EventHub} (h : hub.Calm next) : next.Serves channel key opts where
  allocated := hserves.allocated.trans_le h.count
  handed := by
    rw [h.handed channel hserves.allocated]
    exact hserves.handed
  pattern watcher hwatcher hchannel := hserves.pattern watcher
    (h.watchers watcher hwatcher (hchannel ▸ hserves.allocated)) hchannel

end EventHub

/-! ## The store as an implementation of the interface -/

/-- A state of the store that runs can lead to. -/
structure LiveStore where
  system : System
  coherent : system.Coherent
  keyed : system.Keyed

namespace LiveStore

variable {live : LiveStore} {channel : Nat} {key : Str} {opts : WatchOption}

def step (live : LiveStore) (action : Step) : LiveStore where
  system := live.system.step action
  coherent := live.coherent.step action
  keyed := live.keyed.step live.coherent action

def run (live : LiveStore) (steps : List Step) : LiveStore := steps.foldl step live

def new : LiveStore where
  system := System.initial defaultWatchChannelBufferSize
  coherent := System.coherent_initial _
  keyed := System.keyed_initial _

theorem scan_isSome (live : LiveStore) (scanPrefix : Str) :
    (live.system.store.scan scanPrefix).isSome := by
  unfold MemoryStore.scan
  split
  · rfl
  · rw [live.coherent.valid.scan_eq]
    rfl

theorem scanWithRevision_isSome (live : LiveStore) (scanPrefix : Str) :
    (live.system.store.scanWithRevision scanPrefix).isSome := by
  unfold MemoryStore.scanWithRevision
  split
  · rfl
  · rw [live.coherent.valid.scanWithRevision_eq]
    rfl

/-- A call that commits under the data lock, unless the store is closed. -/
def call {Result : Type} (live : LiveStore) (operation : Operation)
    (result : Except StoreError Result) : Except StoreError Result × LiveStore :=
  if live.system.store.isClosed then (.error .storeClosed, live)
  else (result, live.step (.call operation))

/-- `MemoryStore` under the interface. -/
def perform : (request : StoreRequest) → LiveStore →
    Except StoreError (StoreResult request) × LiveStore
  | .get key, live => (live.system.store.get key, live)
  | .put key value, live =>
    live.call (.put key value) (.ok (live.system.store.table.put key value).result)
  | .delete key, live => live.call (.delete key) (live.system.store.table.delete key).result
  | .scan scanPrefix, live =>
    ((live.system.store.scan scanPrefix).get (live.scan_isSome scanPrefix), live)
  | .scanWithRevision scanPrefix, live =>
    ((live.system.store.scanWithRevision scanPrefix).get
      (live.scanWithRevision_isSome scanPrefix), live)
  | .watch key opts, live =>
    if live.system.store.isClosed then (.error .storeClosed, live)
    else (.ok (live.system.store.hub.watch key opts).2, live.step (.watch key opts))
  -- neither the time to live nor the closed flag is looked at
  | .grantLease _, live =>
    (.ok live.system.store.table.grantLease.result, live.step (.call .grantLease))
  | .putWithLease key value _, live =>
    live.call (.put key value) (.ok (live.system.store.table.put key value).result)
  | .renewLease _, live => (.ok 900, live)
  | .revokeLease _, live => (.ok (), live)
  | .transaction compares onSuccess onFailure, live =>
    live.call (.transaction compares onSuccess onFailure)
      (live.system.store.table.transaction compares onSuccess onFailure).result
  | .revision, live => (live.system.store.revision, live)
  | .close, live => (.ok (), live.step .close)

/-- `MemoryStore` as a `StateStore`. -/
def stateStore : StateStore LiveStore StoreError := ⟨perform⟩

/-- The value of a key. -/
def value (live : LiveStore) (key : Str) : Option Str :=
  (live.system.store.table.facts key).map Fact.value

theorem value_step_call (live : LiveStore) (operation : Operation) (key : Str) :
    (live.step (.call operation)).value key =
      ((live.system.store.table.perform operation).1.facts key).map Fact.value := rfl

theorem value_call_cases {Result : Type} (live : LiveStore) {operation : Operation}
    (result : Except StoreError Result) (key : Str) :
    (live.call operation result).2.value key = live.value key ∨
      ∃ op ∈ live.system.store.table.branchOf operation, op.key = key ∧
        (live.call operation result).2.value key = FactTable.outcome op := by
  unfold call
  split
  · exact Or.inl rfl
  · exact perform_value_cases _ operation key

theorem value_step_close (live : LiveStore) (key : Str) :
    (live.step .close).value key = live.value key := by
  simp only [step, System.step, MemoryStore.close]
  split <;> rfl

theorem serves_step (h : live.system.store.hub.Serves channel key opts) (action : Step) :
    (live.step action).system.store.hub.Serves channel key opts := by
  have heffect := System.step_effect live.system action
  simp only [step]
  generalize live.system.step action = next at heffect ⊢
  cases heffect with
  | call operation => exact h
  | broadcast hwriter =>
    refine h.broadcastEvent live.coherent.hub (live.keyed.inflight _ ?_) _
    exact mem_flatten_of_mem (mem_of_getElem? hwriter) mem_cons_self
  | idle => exact h
  | hub htable hhub =>
    rcases hhub with ⟨other, others, -, hhub⟩ | ⟨other, -, hhub⟩ | ⟨other, -, hhub⟩ | ⟨-, hhub⟩
    · rw [hhub]; exact h.calm (live.coherent.hub.calm_watch other others)
    · rw [hhub]; exact h.calm (EventHub.calm_receive other)
    · rw [hhub]; exact h.calm (EventHub.calm_removeWatcher other)
    · rw [hhub]; exact h.calm EventHub.calm_close

theorem serves_run (h : live.system.store.hub.Serves channel key opts) (steps : List Step) :
    (live.run steps).system.store.hub.Serves channel key opts := by
  induction steps generalizing live with
  | nil => exact h
  | cons action rest ih => exact ih (serves_step h action)

theorem shown_key {request : StoreRequest} {result : StoreResult request}
    (h : (perform request live).1 = .ok result) :
    ∀ fact ∈ request.shown result, request.reads fact.key := by
  have hvalid := live.coherent.valid
  cases request with
  | get key =>
    simp only [perform, MemoryStore.get, FactTable.get] at h
    split at h
    · cases h
    · split at h
      · cases h
      next _ hexisting =>
        obtain rfl := Except.ok.inj h
        intro fact hfact
        obtain rfl := mem_singleton.mp hfact
        exact hvalid.stamped.key_eq hexisting
  | scan scanPrefix =>
    have hreply : live.system.store.scan scanPrefix = some (.ok result) := by
      rw [← h]
      exact (Option.some_get _).symm
    simp only [MemoryStore.scan, hvalid.scan_eq] at hreply
    split at hreply
    · cases hreply
    · obtain rfl := Except.ok.inj (Option.some.inj hreply)
      exact fun fact hfact => (hvalid.mem_scanned.mp hfact).2.2
  | scanWithRevision scanPrefix =>
    have hreply : live.system.store.scanWithRevision scanPrefix = some (.ok result) := by
      rw [← h]
      exact (Option.some_get _).symm
    simp only [MemoryStore.scanWithRevision, hvalid.scanWithRevision_eq] at hreply
    split at hreply
    · cases hreply
    · obtain rfl := Except.ok.inj (Option.some.inj hreply)
      exact fun fact hfact => (hvalid.mem_scanned.mp hfact).2.2
  | _ => simp [StoreRequest.shown]

/-- The same for the calls of a live store. -/
theorem value_changes (request : StoreRequest) (live : LiveStore) (key : Str)
    (hlease : request.usesLease = false) :
    (perform request live).2.value key = live.value key ∨
      ∃ operation ∈ request.operations, operation.key = key ∧
        (perform request live).2.value key = FactTable.outcome operation := by
  cases request with
  | put _ _ | delete _ => exact live.value_call_cases _ key
  | transaction compares onSuccess onFailure =>
    refine (live.value_call_cases _ key).imp id ?_
    -- only one of the branches is carried out
    exact fun ⟨operation, hmem, hrest⟩ => ⟨operation, FactTable.mem_of_mem_branchOf hmem, hrest⟩
  | watch watched opts =>
    left
    simp only [perform]
    split <;> rfl
  | close => exact Or.inl (live.value_step_close key)
  | putWithLease _ _ _ | revokeLease _ => cases hlease
  | get _ | scan _ | scanWithRevision _ | grantLease _ | renewLease _ | revision => exact Or.inl rfl

theorem value_putWithLease (written value' : Str) (leaseID : Int) (live : LiveStore) (key : Str) :
    (perform (.putWithLease written value' leaseID) live).2.value key =
      if (!live.system.store.isClosed) = true ∧ key = written then some value'
      else live.value key := by
  cases hclosed : live.system.store.isClosed with
  | true => simp [perform, call, hclosed]
  | false =>
    have hafter : (perform (.putWithLease written value' leaseID) live).2.value key =
        ((live.system.store.table.commitBranch [⟨.put, written, value'⟩]).1.facts key).map
          Fact.value := by
      have hbranch := live.system.store.table.perform_eq_commitBranch
        (by simp : Operation.put written value' ≠ .grantLease)
      rw [FactTable.branchOf] at hbranch
      rw [← hbranch, ← value_step_call]
      simp [perform, call, hclosed]
    rw [hafter]
    by_cases hkey : key = written
    · subst hkey
      rw [if_pos (by simp)]
      exact @FactTable.commitBranch_value [⟨.put, key, value'⟩] _ (by simp)
        ⟨.put, key, value'⟩ (by simp)
    · rw [if_neg (by simp [hkey]), commitBranch_facts_of_notMem
        (by simpa using Ne.symm hkey)]
      rfl

/-- The in-memory store keeps the contract; no key is ever attached to a lease. -/
def contract : stateStore.Contract where
  value := value
  attached := fun _ _ _ => false
  accepts := fun live => !live.system.store.isClosed
  handed := fun live channel => (live.system.store.hub.channels channel).handed
  later := fun live last => ∃ steps, last = live.run steps
  shown_key := shown_key
  watch_handed := by
    rintro key opts live channel - hreply ⟨steps, rfl⟩ event hevent
    simp only [stateStore, perform] at hreply hevent
    split at hreply
    next => cases hreply
    next hopen =>
      obtain rfl := Except.ok.inj hreply
      rw [if_neg hopen] at hevent
      have hserves : (live.step (.watch key opts)).system.store.hub.Serves
          (live.system.store.hub.watch key opts).2 key opts :=
        EventHub.serves_watch live.coherent.hub live.keyed.log
      exact ((serves_run hserves steps).handed event hevent).carried
  changes := value_changes
  putWithLease_value := value_putWithLease
  revokeLease_value := by simp [stateStore, perform]

end LiveStore

end CCattler.Store
