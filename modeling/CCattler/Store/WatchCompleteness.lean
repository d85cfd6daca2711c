import CCattler.Store.System

/-! # Completeness of scan-then-watch

Every change after a scan should reach the watch from the next revision, or a marker
should. The replay keeps this only if everything is still recorded and fits.
-/

namespace CCattler.Store

open Go List Channel

/-! ## Accounting for required events -/

/-- Each required event was handed over or was missed before an overflow marker. -/
inductive AccountsFor : List Event → List Event → Prop
  | nil : AccountsFor [] []
  | extra {handed required : List Event} (event : Event) (h : AccountsFor handed required) :
      AccountsFor (handed ++ [event]) required
  | delivered {handed required : List Event} (event : Event) (h : AccountsFor handed required) :
      AccountsFor (handed ++ [event]) (required ++ [event])
  | marked {handed required : List Event} (missed : List Event) (h : AccountsFor handed required) :
      AccountsFor (handed ++ [Event.overflowMarker]) (required ++ missed)

theorem AccountsFor.mem {handed required : List Event} (h : AccountsFor handed required) :
    ∀ event ∈ required, event ∈ handed ∨ Event.overflowMarker ∈ handed := by
  induction h with
  | nil => simp
  | extra other _ ih =>
    intro event hevent
    exact (ih event hevent).imp (mem_append_left _) (mem_append_left _)
  | delivered other _ ih =>
    intro event hevent
    rcases mem_append.mp hevent with hold | hnew
    · exact (ih event hold).imp (mem_append_left _) (mem_append_left _)
    · exact Or.inl (mem_append_right _ hnew)
  | marked missed _ ih => exact fun _ _ => Or.inr (by simp)

theorem accountsFor_refl (events : List Event) : AccountsFor events events := by
  induction events using List.reverseRecOn with
  | nil => exact .nil
  | append_singleton rest event ih => exact .delivered event ih

/-- Accounting up to the events missed since a marker came to be owed. -/
def Informed (handed required : List Event) (owed : Bool) : Prop :=
  ∃ kept missed, required = kept ++ missed ∧ AccountsFor handed kept ∧ (owed = false → missed = [])

section

variable {handed required : List Event}

theorem Informed.accountsFor (h : Informed handed required false) :
    AccountsFor handed required := by
  obtain ⟨_, _, rfl, hkept, hmissed⟩ := h
  rw [hmissed rfl, append_nil]
  exact hkept

theorem Informed.mark {owed : Bool} (h : Informed handed required owed) (marker : Bool) :
    Informed (handed ++ if marker then [Event.overflowMarker] else []) required
      (owed && !marker) := by
  obtain ⟨kept, missed, rfl, hkept, hmissed⟩ := h
  cases marker with
  | true => exact ⟨kept ++ missed, [], by simp, .marked missed hkept, fun _ => rfl⟩
  | false => exact ⟨kept, missed, rfl, by simpa using hkept, by simpa using hmissed⟩

theorem Informed.send {owed : Bool} (h : Informed handed required owed) (event : Event)
    (needed sent : Bool) :
    Informed (handed ++ if sent then [event] else [])
      (required ++ if needed then [event] else []) (!sent || owed) := by
  obtain ⟨kept, missed, rfl, hkept, hmissed⟩ := h
  cases sent with
  | false =>
    refine ⟨kept, missed ++ if needed then [event] else [], by simp, by simpa using hkept, ?_⟩
    simp
  | true =>
    cases owed with
    -- the event comes after missed ones, so it is not yet accounted for
    | true =>
      refine ⟨kept, missed ++ if needed then [event] else [], by simp, ?_, by simp⟩
      exact .extra event hkept
    | false =>
      have hnone := hmissed rfl
      subst hnone
      cases needed with
      | true => exact ⟨kept ++ [event], [], by simp, .delivered event hkept, fun _ => rfl⟩
      | false => exact ⟨kept, [], by simp, .extra event hkept, fun _ => rfl⟩

end

/-! ## Replay -/

variable {events : List Event}

namespace EventHub

theorem handed_replay {channel : Channel Event} (hwaiting : channel.waiting = false)
    (hroom : channel.buffered.length + events.length ≤ channel.capacity) :
    (replay channel events).handed = channel.handed ++ events := by
  induction events generalizing channel with
  | nil => simp [replay]
  | cons event rest ih =>
    rw [length_cons] at hroom
    obtain ⟨hsent, hstill, hlength⟩ := trySend_of_room hwaiting (by omega) event
    rw [replay, ih hstill (by rw [trySend_capacity]; omega),
      handed_trySend, if_pos hsent, append_assoc, singleton_append]

/-- Whether a marker is owed on a channel. -/
def owes (hub : EventHub) (channel : Nat) : Bool :=
  hub.activeWatchers.any (fun watcher => watcher.eventChannel == channel &&
    watcher.overflowDetected)

/-- The events a watch from a revision on is about. -/
def relevant (key : Str) (byPrefix : Bool) (startRevision : Int) (event : Event) : Bool :=
  matchesWatchPattern event key byPrefix && decide (startRevision ≤ event.fact.revision)

section

variable (hub : EventHub) (log : List Event)

/-- Events already overwritten in the history buffer. -/
def evicted : List Event :=
  log.take (log.length - hub.eventHistory.capacity)

/-- A watch is refused as compacted, or has all it must replay and room for it. -/
def ReplayComplete (key : Str) (opts : WatchOption) : Prop :=
  hub.eventHistory.eventsFromRevision opts.startRevision = none ∨
    ((∀ event ∈ hub.evicted log, relevant key opts.byPrefix opts.startRevision event = false) ∧
      (log.filter (relevant key opts.byPrefix opts.startRevision)).length ≤
        hub.watchChannelBufferSize)

/-- The channel holds the compaction marker, or its watcher is active and informed. -/
def Keeps (channel : Nat) (key : Str) (opts : WatchOption) : Prop :=
  channel < hub.channelCount ∧ ((channel ∉ hub.activeWatchers.map FactWatcher.eventChannel ∧
        Event.compactedMarker ∈ (hub.channels channel).handed) ∨
      ∃ watcher ∈ hub.activeWatchers, watcher.eventChannel = channel ∧
        watcher.keyPattern = key ∧ watcher.matchByPrefix = opts.byPrefix ∧
        Informed (hub.channels channel).handed
          (log.filter (relevant key opts.byPrefix opts.startRevision)) watcher.overflowDetected)

end

variable {hub : EventHub} {log : List Event} {channel : Nat} {key : Str} {opts : WatchOption}

/-- A granted replay offers what is relevant in the log, unless some was evicted. -/
theorem WellFormed.replayed_eq (h : hub.WellFormed log)
    (hevents : hub.eventHistory.eventsFromRevision opts.startRevision = some events)
    (hevicted : ∀ event ∈ hub.evicted log,
      relevant key opts.byPrefix opts.startRevision event = false) :
    events.filter (fun event => matchesWatchPattern event key opts.byPrefix) =
      log.filter (relevant key opts.byPrefix opts.startRevision) := by
  rw [h.eventsFromRevision_eq] at hevents
  split at hevents
  next => exact absurd hevents (by simp)
  next =>
    obtain rfl := Option.some.inj hevents
    have hnone : (hub.evicted log).filter (relevant key opts.byPrefix opts.startRevision) = [] :=
      filter_eq_nil_iff.mpr fun event hevent => by simp [hevicted event hevent]
    have hsplit : hub.evicted log ++ hub.kept log = log := take_append_drop _ _
    calc ((hub.kept log).filter (fun event => opts.startRevision ≤ event.fact.revision)).filter
          (fun event => matchesWatchPattern event key opts.byPrefix)
        = (hub.kept log).filter (relevant key opts.byPrefix opts.startRevision) :=
          filter_filter
      _ = (hub.evicted log ++ hub.kept log).filter
            (relevant key opts.byPrefix opts.startRevision) := by
          rw [filter_append, hnone, nil_append]
      _ = log.filter (relevant key opts.byPrefix opts.startRevision) := by rw [hsplit]

theorem WellFormed.keeps_watch (h : hub.WellFormed log) (hstart : 0 < opts.startRevision)
    (hreplay : hub.ReplayComplete log key opts) :
    (hub.watch key opts).1.Keeps log (hub.watch key opts).2 key opts := by
  have hfresh : hub.channelCount ∉ hub.activeWatchers.map FactWatcher.eventChannel := by
    intro hmem
    obtain ⟨watcher, hwatcher, _⟩ := mem_map.mp hmem
    have := h.allocated watcher hwatcher
    omega
  unfold EventHub.watch
  simp only [if_pos hstart]
  cases hevents : hub.eventHistory.eventsFromRevision opts.startRevision with
  | none =>
    refine ⟨Nat.lt_succ_self _, Or.inl ⟨hfresh, ?_⟩⟩
    simp [EventHub.allocate, handed_send]
  | some events =>
    obtain ⟨hevicted, hroom⟩ := hreplay.resolve_left (by simp [hevents])
    have hmatching := h.replayed_eq hevents hevicted
    refine ⟨Nat.lt_succ_self _, Or.inr ⟨⟨key, opts.byPrefix, _, false⟩, ?_, rfl, rfl, rfl, ?_⟩⟩
    · simp [EventHub.register]
    · simp only [EventHub.register, EventHub.allocate, Function.update_self, hmatching]
      rw [handed_replay rfl (by simpa [Channel.make] using hroom)]
      exact ⟨_, [], (append_nil _).symm, accountsFor_refl _, fun _ => rfl⟩

/-! ## Keeping a subscription -/

variable (hkeeps : hub.Keeps log channel key opts)
include hkeeps

theorem Keeps.broadcastEvent (h : hub.WellFormed log) (event : Event) (taken : Nat → Nat) :
    (hub.broadcastEvent event taken).Keeps (log ++ [event]) channel key opts := by
  obtain ⟨hallocated, ⟨hfree, hmarker⟩ | ⟨watcher, hwatcher, rfl, rfl, hby, hinformed⟩⟩ := hkeeps
  · refine ⟨hallocated, Or.inl ⟨?_, ?_⟩⟩
    · rw [broadcastEvent_owners h]
      exact hfree
    · simp only [EventHub.broadcastEvent]
      rw [deliverAll_channel_of_notMem hfree]
      exact hmarker
  · obtain ⟨hchannel, hpattern, hbySame⟩ := deliver_watcher event (taken watcher.eventChannel)
      watcher (hub.channels watcher.eventChannel)
    refine ⟨hallocated, Or.inr ⟨_, ?_, hchannel, hpattern, hbySame.trans hby, ?_⟩⟩
    · simp only [EventHub.broadcastEvent]
      rw [deliverAll_watchers h.owners]
      exact mem_map_of_mem hwatcher
    · simp only [EventHub.broadcastEvent]
      rw [deliverAll_channel_of_mem h.owners hwatcher]
      cases hmatches : matchesWatchPattern event watcher.keyPattern watcher.matchByPrefix with
      | false =>
        rw [deliver_of_not_matches hmatches]
        simpa [relevant, ← hby, hmatches] using hinformed
      | true =>
        obtain ⟨marker, sent, -, hhanded, howed⟩ :=
          (deliver_of_matches hmatches (taken watcher.eventChannel)
            (hub.channels watcher.eventChannel)).outcome
        rw [hhanded, howed]
        -- first the marker, then the event, as the loop sends them
        have hsent := (hinformed.mark marker).send event
          (decide (opts.startRevision ≤ event.fact.revision)) sent
        simpa [relevant, ← hby, hmatches, filter_cons] using hsent

theorem Keeps.calm {next : EventHub} (h : hub.Calm next)
    (hstays : ∀ watcher ∈ hub.activeWatchers, watcher.eventChannel = channel →
      watcher ∈ next.activeWatchers) : next.Keeps log channel key opts := by
  obtain ⟨hallocated, hkept⟩ := hkeeps
  rw [Keeps, h.handed channel hallocated]
  refine ⟨hallocated.trans_le h.count, hkept.imp (fun hfree => ⟨fun hmem => ?_, hfree.2⟩) ?_⟩
  · obtain ⟨watcher, hwatcher, rfl⟩ := mem_map.mp hmem
    exact hfree.1 (mem_map_of_mem (h.watchers watcher hwatcher hallocated))
  · rintro ⟨watcher, hwatcher, hchannel, hrest⟩
    exact ⟨watcher, hstays watcher hwatcher hchannel, hchannel, hrest⟩

end EventHub

namespace System

variable {system : System} (h : system.Coherent) {channel : Nat} {key : Str} {opts : WatchOption}
  (hkeeps : system.store.hub.Keeps system.log channel key opts)
include h hkeeps

theorem keeps_step {action : Step} (hclose : action ≠ .close)
    (hremove : action ≠ .removeWatcher channel) :
    (system.step action).store.hub.Keeps (system.step action).log channel key opts := by
  have heffect := step_effect system action
  generalize system.step action = next at heffect ⊢
  cases heffect with
  | call operation => exact hkeeps
  | broadcast hwriter => exact hkeeps.broadcastEvent h.hub _ _
  | idle => exact hkeeps
  | hub htable hhub =>
    rcases hhub with ⟨other, others, -, hhub⟩ | ⟨other, -, hhub⟩ | ⟨other, haction, hhub⟩ |
      ⟨haction, -⟩
    · rw [hhub]
      refine hkeeps.calm (h.hub.calm_watch other others) fun watcher hwatcher _ => ?_
      obtain ⟨_, ⟨hwatch, -⟩ | ⟨hwatch, -⟩⟩ := h.hub.watch_cases other others
      · rw [hwatch]; exact hwatcher
      · rw [hwatch]; exact mem_append_left _ hwatcher
    · rw [hhub]; exact hkeeps.calm (EventHub.calm_receive other) fun _ hwatcher _ => hwatcher
    · rw [hhub]
      refine hkeeps.calm (EventHub.calm_removeWatcher other) fun watcher hwatcher hchannel => ?_
      have hne : channel ≠ other := fun heq => hremove (heq ▸ haction)
      unfold EventHub.removeWatcher
      split
      · exact (mem_eraseP_of_neg (by simpa [hchannel] using hne)).mpr hwatcher
      · exact hwatcher
    · exact absurd haction hclose

theorem keeps_run {steps : List Step}
    (hstays : ∀ action ∈ steps, action ≠ .close ∧ action ≠ .removeWatcher channel) :
    (system.run steps).store.hub.Keeps (system.run steps).log channel key opts :=
  (run_induction (P := fun current => current.Coherent ∧
      current.store.hub.Keeps current.log channel key opts)
    (fun _ action haction hcurrent => ⟨hcurrent.1.step action,
      keeps_step hcurrent.1 hcurrent.2 (hstays action haction).1 (hstays action haction).2⟩)
    ⟨h, hkeeps⟩).2

end System

/-- A client that scans a prefix and later watches it from the next revision on. -/
structure ScanThenWatch where
  bufferSize : Nat
  scanPrefix : Str
  before : List Step
  between : List Step
  after : List Step

namespace ScanThenWatch

section

variable (client : ScanThenWatch)

def scanState : System :=
  (System.initial client.bufferSize).run client.before

/-- The revision that `ScanWithRevision` reports. -/
def revision : Int := client.scanState.store.table.currentRevision

def watchState : System := client.scanState.run client.between

/-- `WatchOption{Prefix: true, StartRevision: revision + 1}`. -/
def opts : WatchOption := ⟨true, client.revision + 1⟩

/-- The channel that `Watch` returns. -/
def channel : Nat :=
  (client.watchState.store.hub.watch client.scanPrefix client.opts).2

def finalState : System :=
  (client.watchState.step (.watch client.scanPrefix client.opts)).run client.after

end

/-- Everything the client has been handed in the end. -/
def handed (client : ScanThenWatch) : List Event :=
  (client.finalState.store.hub.channels client.channel).handed

/-- The client neither cancels its watch nor closes the store. -/
def Stays (client : ScanThenWatch) : Prop :=
  ∀ action ∈ client.after, action ≠ .close ∧ action ≠ .removeWatcher client.channel

section

variable (client : ScanThenWatch)

theorem coherent_scanState : client.scanState.Coherent :=
  (System.coherent_initial client.bufferSize).run client.before

theorem coherent_watchState : client.watchState.Coherent :=
  client.coherent_scanState.run client.between

theorem scanWithRevision_eq : client.scanState.store.table.scanWithRevision client.scanPrefix =
      some ⟨client.scanState.store.table.scanned client.scanPrefix, client.revision⟩ :=
  client.coherent_scanState.valid.scanWithRevision_eq client.scanPrefix

theorem revision_nonneg : 0 ≤ client.revision :=
  client.coherent_scanState.valid.stamped.current_nonneg

end

/-- A complete replay is kept to the end. -/
theorem keeps_finalState {client : ScanThenWatch}
    (hreplay : client.watchState.store.hub.ReplayComplete client.watchState.log client.scanPrefix
      client.opts)
    (hstays : client.Stays) :
    client.finalState.store.hub.Keeps client.finalState.log client.channel client.scanPrefix
      client.opts := by
  have hstart : 0 < client.opts.startRevision := by
    have := client.revision_nonneg
    simp only [opts]
    omega
  exact System.keeps_run (client.coherent_watchState.step (.watch client.scanPrefix client.opts))
    (client.coherent_watchState.hub.keeps_watch hstart hreplay) hstays

/-- A subscription whose marker is not owed accounts for all that was broadcast. -/
theorem keeps_complete {hub : EventHub} {log : List Event} {channel : Nat} {key : Str}
    {opts : WatchOption} (h : hub.Keeps log channel key opts) (howes : hub.owes channel = false) :
    Event.compactedMarker ∈ (hub.channels channel).handed ∨
      AccountsFor (hub.channels channel).handed
        (log.filter (EventHub.relevant key opts.byPrefix opts.startRevision)) := by
  obtain ⟨-, ⟨-, hmarker⟩ | ⟨watcher, hwatcher, hchannel, -, -, hinformed⟩⟩ := h
  · exact Or.inl hmarker
  · refine Or.inr ?_
    have hclear : watcher.overflowDetected = false := by
      rw [EventHub.owes, any_eq_false] at howes
      simpa [hchannel] using howes watcher hwatcher
    rw [hclear] at hinformed
    exact hinformed.accountsFor

end ScanThenWatch

/-- Where the replay is complete and no marker is owed, each later change is in flight, was
handed over, or was missed before a marker. -/
theorem scan_then_watch_complete (client : ScanThenWatch)
    (hreplay : client.watchState.store.hub.ReplayComplete client.watchState.log client.scanPrefix
      client.opts)
    (hstays : client.Stays) (howes : client.finalState.store.hub.owes client.channel = false) :
    (∃ facts, client.scanState.store.table.scanWithRevision client.scanPrefix =
      some ⟨facts, client.revision⟩) ∧
    (Event.compactedMarker ∈ client.handed ∨ AccountsFor client.handed (client.finalState.log.filter
        (EventHub.relevant client.scanPrefix true (client.revision + 1)))) ∧
    ∀ event ∈ client.finalState.mutations, client.revision < event.fact.revision →
      client.scanPrefix <+: event.fact.key →
      event ∈ client.finalState.inflight.flatten ∨ event ∈ client.handed ∨
        Event.overflowMarker ∈ client.handed ∨ Event.compactedMarker ∈ client.handed := by
  have hcomplete := ScanThenWatch.keeps_complete
    (ScanThenWatch.keeps_finalState hreplay hstays) howes
  refine ⟨⟨_, client.scanWithRevision_eq⟩, hcomplete, ?_⟩
  intro event hevent hrevision hpre
  have hlocated := System.mutation_located client.bufferSize
    (client.before ++ client.between ++ .watch client.scanPrefix client.opts :: client.after)
  rw [System.run_append, System.run_append] at hlocated
  -- a committed event that is no longer in flight is in the log
  rcases hlocated event hevent with hflight | hlog
  · exact Or.inl hflight
  · refine Or.inr ?_
    rcases hcomplete with hmarker | haccounts
    · exact Or.inr (Or.inr hmarker)
    · have hrelevant : event ∈ client.finalState.log.filter
          (EventHub.relevant client.scanPrefix true (client.revision + 1)) := by
        refine mem_filter.mpr ⟨hlog, ?_⟩
        simp [EventHub.relevant, matchesWatchPattern, Str.hasPrefix_iff.mpr hpre,
          Int.add_one_le_iff.mpr hrevision]
      exact (haccounts.mem event hrelevant).imp_right Or.inl

/-- Two history events before the watch, one event after it. -/
def replayOfTwo (bufferSize : Nat) : ScanThenWatch where
  bufferSize := bufferSize
  scanPrefix := lit "a"
  before := []
  between := [.call (.put (lit "a") (lit "1")), .broadcast 0 (fun _ => 0),
    .call (.put (lit "a") (lit "2")), .broadcast 0 (fun _ => 0)]
  after := [.receive 0, .call (.put (lit "a") (lit "3")), .broadcast 0 (fun _ => 0), .receive 0]

/-- With room for two, all three events are accounted for. -/
theorem replayOfTwo_complete : (replayOfTwo 2).finalState.mutations.length = 3 ∧
    ∀ event ∈ (replayOfTwo 2).finalState.mutations,
      (replayOfTwo 2).revision < event.fact.revision → lit "a" <+: event.fact.key →
      event ∈ (replayOfTwo 2).finalState.inflight.flatten ∨ event ∈ (replayOfTwo 2).handed ∨
        Event.overflowMarker ∈ (replayOfTwo 2).handed ∨
        Event.compactedMarker ∈ (replayOfTwo 2).handed :=
  ⟨by decide, (scan_then_watch_complete (replayOfTwo 2) (Or.inr ⟨by decide, by decide⟩)
    (by simp [ScanThenWatch.Stays, replayOfTwo]) (by decide)).2.2⟩

/-- The second event is dropped during the replay, and no marker is handed over or owed. -/
theorem replayOfTwo_silent_drop :
    (replayOfTwo 1).Stays ∧ (replayOfTwo 1).finalState.store.hub.owes (replayOfTwo 1).channel =
      false ∧
    ∃ event ∈ (replayOfTwo 1).finalState.mutations,
      (replayOfTwo 1).revision < event.fact.revision ∧ lit "a" <+: event.fact.key ∧
      event ∉ (replayOfTwo 1).finalState.inflight.flatten ∧ event ∉ (replayOfTwo 1).handed ∧
      Event.overflowMarker ∉ (replayOfTwo 1).handed ∧
      Event.compactedMarker ∉ (replayOfTwo 1).handed := by
  refine ⟨?_, by decide, ⟨.put, ⟨lit "a", lit "2", 2, 1, 0⟩, some ⟨lit "a", lit "1", 1, 1, 0⟩⟩,
    by decide, by decide, by decide, by decide, by decide, by decide, by decide⟩
  simp [ScanThenWatch.Stays, replayOfTwo]

end CCattler.Store
