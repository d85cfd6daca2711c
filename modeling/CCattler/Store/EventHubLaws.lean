import CCattler.Store.Memory

/-! # Laws of watcher registration and delivery

Every watcher owns one channel, so a broadcast acts on a channel exactly as the
delivery to its owner does, and leaves the other channels alone.
-/

namespace CCattler.Store

open Go List Channel

variable {channels : Nat → Channel Event} {event : Event} {watchers : List FactWatcher}
  {watcher : FactWatcher} {taken : Nat → Nat}

namespace EventHub

/-- An event as the history buffer stores it. -/
def entryOf (event : Event) : EventHistoryEntry := ⟨event.fact.revision, event⟩

/-- The buffer records the broadcast events, and watchers have channels of their own. -/
structure WellFormed (hub : EventHub) (log : List Event) : Prop where
  records : hub.eventHistory.Records (log.map entryOf)
  allocated : ∀ watcher ∈ hub.activeWatchers, watcher.eventChannel < hub.channelCount
  owners : (hub.activeWatchers.map FactWatcher.eventChannel).Nodup

/-- Events the history buffer still has. -/
def kept (hub : EventHub) (log : List Event) : List Event :=
  log.drop (log.length - hub.eventHistory.capacity)

section

variable {hub : EventHub} {log : List Event} (h : hub.WellFormed log)
include h

theorem WellFormed.contents_eq :
    hub.eventHistory.contents.map EventHistoryEntry.event = hub.kept log := by
  have hid : EventHistoryEntry.event ∘ entryOf = id := rfl
  rw [h.records.contents_eq, length_map, ← map_drop, map_map, hid, map_id]
  rfl

/-- The history replays what it keeps, or refuses. -/
theorem WellFormed.eventsFromRevision_eq (startRevision : Int) :
    hub.eventHistory.eventsFromRevision startRevision =
      if (hub.kept log).head?.any (fun oldest => startRevision < oldest.fact.revision) then none
      else some ((hub.kept log).filter (fun event => startRevision ≤ event.fact.revision)) := by
  have hid : EventHistoryEntry.event ∘ entryOf = id := rfl
  rw [h.records.eventsFromRevision_eq, length_map, ← map_drop, List.head?_map, Option.any_map,
    filter_map, map_map, hid, map_id]
  rfl

end

/-! ## Delivery to one watcher -/

theorem handed_iterate_receive (channel : Channel Event) (taken : Nat) :
    (Channel.receive^[taken] channel).handed = channel.handed := by
  induction taken generalizing channel with
  | zero => rfl
  | succ taken ih => rw [Function.iterate_succ_apply, ih, handed_receive]

theorem deliver_watcher (event : Event) (taken : Nat) (watcher : FactWatcher)
    (channel : Channel Event) :
    (deliver event taken watcher channel).1.eventChannel = watcher.eventChannel ∧
    (deliver event taken watcher channel).1.keyPattern = watcher.keyPattern ∧
    (deliver event taken watcher channel).1.matchByPrefix = watcher.matchByPrefix := by
  unfold deliver
  split
  · dsimp only
    split <;> split <;> exact ⟨rfl, rfl, rfl⟩
  · exact ⟨rfl, rfl, rfl⟩

theorem deliver_of_not_matches
    (h : matchesWatchPattern event watcher.keyPattern watcher.matchByPrefix = false) (taken : Nat)
    (channel : Channel Event) : deliver event taken watcher channel = (watcher, channel) := by
  simp [deliver, h]

/-- Whether the owed marker was sent, whether the event followed, and what is owed after. -/
structure Delivery (event : Event) (watcher : FactWatcher) (channel : Channel Event)
    (after : FactWatcher × Channel Event) : Prop where
  outcome : ∃ marker sent : Bool, (marker = true → watcher.overflowDetected = true) ∧
    after.2.handed = channel.handed ++ (if marker then [Event.overflowMarker] else []) ++
      (if sent then [event] else []) ∧
    after.1.overflowDetected = (!sent || (watcher.overflowDetected && !marker))

theorem deliver_of_matches
    (h : matchesWatchPattern event watcher.keyPattern watcher.matchByPrefix = true) (taken : Nat)
    (channel : Channel Event) :
    Delivery event watcher channel (deliver event taken watcher channel) := by
  -- without an owed marker there is only the event to send
  cases howed : watcher.overflowDetected with
  | false =>
    refine ⟨false, ((Channel.receive^[taken] channel).trySend event).2, by simp, ?_, ?_⟩
    · simp only [deliver, h, howed, if_true, Bool.false_eq_true, if_false,
        handed_trySend, handed_iterate_receive]
      split <;> simp
    · cases hsent : ((Channel.receive^[taken] channel).trySend event).2 <;>
        simp [deliver, h, howed, hsent]
  | true =>
    refine ⟨(channel.trySend Event.overflowMarker).2,
      ((Channel.receive^[taken] (channel.trySend Event.overflowMarker).1).trySend event).2,
      fun _ => howed, ?_, ?_⟩
    · simp only [deliver, h, howed, if_true, handed_trySend, handed_iterate_receive]
      split <;> split <;> simp
    · cases hsent : ((Channel.receive^[taken]
          (channel.trySend Event.overflowMarker).1).trySend event).2 <;>
        simp [deliver, h, howed, hsent]

/-! ## The broadcast loop -/

theorem deliverAll_channel_of_notMem {channel : Nat}
    (h : channel ∉ watchers.map FactWatcher.eventChannel) :
    (deliverAll event taken watchers channels).2 channel = channels channel := by
  induction watchers generalizing channels with
  | nil => rfl
  | cons watcher rest ih =>
    rw [map_cons, mem_cons, not_or] at h
    simp only [deliverAll]
    rw [ih h.2, Function.update_of_ne h.1]

/-- Each watcher gets its own delivery. -/
theorem deliverAll_channel_of_mem (hnodup : (watchers.map FactWatcher.eventChannel).Nodup)
    (hmem : watcher ∈ watchers) :
    (deliverAll event taken watchers channels).2 watcher.eventChannel =
      (deliver event (taken watcher.eventChannel) watcher (channels watcher.eventChannel)).2 := by
  induction watchers generalizing channels with
  | nil => exact absurd hmem not_mem_nil
  | cons first rest ih =>
    rw [map_cons, nodup_cons] at hnodup
    simp only [deliverAll]
    -- an update by an earlier watcher goes to another channel
    rcases mem_cons.mp hmem with rfl | hrest
    · rw [deliverAll_channel_of_notMem hnodup.1, Function.update_self]
    · have hne : watcher.eventChannel ≠ first.eventChannel :=
        fun heq => hnodup.1 (heq ▸ mem_map_of_mem hrest)
      rw [ih hnodup.2 hrest, Function.update_of_ne hne]

theorem deliverAll_watchers (hnodup : (watchers.map FactWatcher.eventChannel).Nodup) :
    (deliverAll event taken watchers channels).1 =
      watchers.map (fun watcher => (deliver event (taken watcher.eventChannel) watcher
        (channels watcher.eventChannel)).1) := by
  induction watchers generalizing channels with
  | nil => rfl
  | cons first rest ih =>
    rw [map_cons, nodup_cons] at hnodup
    simp only [deliverAll]
    rw [ih hnodup.2]
    congr 1
    refine map_congr_left fun watcher hwatcher => ?_
    have hne : watcher.eventChannel ≠ first.eventChannel :=
      fun heq => hnodup.1 (heq ▸ mem_map_of_mem hwatcher)
    rw [Function.update_of_ne hne]

variable {hub : EventHub} {log : List Event}

theorem broadcastEvent_owners (h : hub.WellFormed log) (event : Event) (taken : Nat → Nat) :
    (hub.broadcastEvent event taken).activeWatchers.map FactWatcher.eventChannel =
      hub.activeWatchers.map FactWatcher.eventChannel := by
  rw [broadcastEvent, deliverAll_watchers h.owners, map_map]
  exact map_congr_left fun watcher _ => (deliver_watcher _ _ _ _).1

/-! ## The invariant -/

theorem exists_handed_replay (channel : Channel Event) (events : List Event) :
    ∃ sent, sent.Sublist events ∧ (replay channel events).handed = channel.handed ++ sent := by
  induction events generalizing channel with
  | nil => exact ⟨[], List.Sublist.refl _, by simp [replay]⟩
  | cons event rest ih =>
    obtain ⟨sent, hsent, hhanded⟩ := ih (channel.trySend event).1
    rw [handed_trySend] at hhanded
    by_cases hfits : (channel.trySend event).2
    · rw [if_pos hfits, append_assoc] at hhanded
      exact ⟨event :: sent, hsent.cons_cons event, hhanded⟩
    · rw [if_neg hfits] at hhanded
      exact ⟨sent, hsent.cons event, hhanded⟩

theorem wellFormed_new (bufferSize : Nat) :
    (new.setWatchChannelBufferSize bufferSize).WellFormed [] where
  records := EventHistoryBuffer.records_new (by decide)
  allocated := by simp [new, setWatchChannelBufferSize]
  owners := by simp [new, setWatchChannelBufferSize]

section

variable (h : hub.WellFormed log)
include h

theorem WellFormed.broadcastEvent (event : Event) (taken : Nat → Nat) :
    (hub.broadcastEvent event taken).WellFormed (log ++ [event]) where
  records := by
    rw [map_append]
    exact h.records.append event.fact.revision event
  allocated := by
    intro _ hwatcher
    have hchannel := mem_map_of_mem (f := FactWatcher.eventChannel) hwatcher
    rw [broadcastEvent_owners h] at hchannel
    obtain ⟨owner, howner, heq⟩ := mem_map.mp hchannel
    rw [← heq]
    exact h.allocated owner howner
  owners := by
    rw [broadcastEvent_owners h]
    exact h.owners

theorem WellFormed.allocate (channel : Channel Event) : (hub.allocate channel).WellFormed log where
  records := h.records
  allocated watcher hwatcher := Nat.lt_succ_of_lt (h.allocated watcher hwatcher)
  owners := h.owners

theorem WellFormed.register (key : Str) (opts : WatchOption) (channel : Channel Event) :
    (hub.register key opts channel).WellFormed log where
  records := h.records
  allocated := by
    intro watcher hwatcher
    simp only [EventHub.register, mem_append, mem_singleton] at hwatcher
    rcases hwatcher with hold | rfl
    · exact Nat.lt_succ_of_lt (h.allocated watcher hold)
    · exact Nat.lt_succ_self _
  owners := by
    simp only [EventHub.register, map_append, map_cons, map_nil]
    refine List.Nodup.append h.owners (nodup_singleton _) ?_
    rintro channel hchannel hnew
    obtain ⟨watcher, hwatcher, rfl⟩ := mem_map.mp hchannel
    have := h.allocated watcher hwatcher
    rw [mem_singleton] at hnew
    omega

/-- A watch gets a new channel: with the compaction marker and no watcher, or with a watcher
and some of the matching events. -/
theorem WellFormed.watch_cases (key : Str) (opts : WatchOption) : ∃ channel : Channel Event,
      (hub.watch key opts = (hub.allocate channel, hub.channelCount) ∧
        channel.handed = [Event.compactedMarker]) ∨
      (hub.watch key opts = (hub.register key opts channel, hub.channelCount) ∧
        channel.handed.Sublist
          (log.filter (fun event => matchesWatchPattern event key opts.byPrefix))) := by
  unfold EventHub.watch
  split
  next =>
    cases hevents : hub.eventHistory.eventsFromRevision opts.startRevision with
    | none => exact ⟨_, Or.inl ⟨rfl, by simp [handed_send]⟩⟩
    | some events =>
      refine ⟨_, Or.inr ⟨rfl, ?_⟩⟩
      obtain ⟨_, hsent, hhanded⟩ := exists_handed_replay (Channel.make hub.watchChannelBufferSize)
        (events.filter (fun event => matchesWatchPattern event key opts.byPrefix))
      rw [hhanded, handed_make]
      refine hsent.trans (List.Sublist.filter _ ?_)
      rw [h.eventsFromRevision_eq] at hevents
      split at hevents
      next => cases hevents
      next =>
        obtain rfl := Option.some.inj hevents
        exact filter_sublist.trans (drop_sublist _ log)
  next => exact ⟨_, Or.inr ⟨rfl, by simp⟩⟩

theorem WellFormed.watch (key : Str) (opts : WatchOption) :
    (hub.watch key opts).1.WellFormed log := by
  obtain ⟨_, ⟨hwatch, -⟩ | ⟨hwatch, -⟩⟩ := h.watch_cases key opts
  · rw [hwatch]; exact h.allocate _
  · rw [hwatch]; exact h.register _ _ _

theorem WellFormed.removeWatcher (channel : Nat) : (hub.removeWatcher channel).WellFormed log := by
  unfold EventHub.removeWatcher
  split
  · refine ⟨h.records, fun watcher hwatcher => ?_, ?_⟩
    · exact h.allocated watcher (mem_of_mem_eraseP hwatcher)
    · exact h.owners.sublist (eraseP_sublist.map _)
  · exact h

theorem WellFormed.close : hub.close.WellFormed log :=
  ⟨h.records, by simp [EventHub.close], by simp [EventHub.close]⟩

theorem WellFormed.receive (channel : Nat) : (hub.receive channel).WellFormed log :=
  ⟨h.records, h.allocated, h.owners⟩

end

theorem handed_update {channel : Nat} {changed : Channel Event}
    (h : changed.handed = (channels channel).handed) (other : Nat) :
    (Function.update channels channel changed other).handed = (channels other).handed := by
  rw [Function.update_apply]
  split
  next heq => rw [heq, h]
  next => rfl

theorem handed_closeAll (watchers : List FactWatcher) (channels : Nat → Channel Event)
    (channel : Nat) :
    ((watchers.foldl (fun channels watcher => Function.update channels watcher.eventChannel
      (channels watcher.eventChannel).close) channels) channel).handed =
      (channels channel).handed := by
  induction watchers generalizing channels with
  | nil => rfl
  | cons watcher rest ih => rw [foldl_cons, ih, handed_update (handed_close _)]

/-! ## Steps between broadcasts -/

/-- What the channels were handed stays, and no watcher joins them. -/
structure Calm (hub next : EventHub) : Prop where
  count : hub.channelCount ≤ next.channelCount
  handed : ∀ channel < hub.channelCount,
    (next.channels channel).handed = (hub.channels channel).handed
  watchers : ∀ watcher ∈ next.activeWatchers, watcher.eventChannel < hub.channelCount →
    watcher ∈ hub.activeWatchers

theorem calm_allocate (channel : Channel Event) : hub.Calm (hub.allocate channel) where
  count := Nat.le_succ _
  handed other hother := by
    simp only [allocate, Function.update_of_ne (Nat.ne_of_lt hother)]
  watchers _ hwatcher _ := hwatcher

theorem WellFormed.calm_watch (h : hub.WellFormed log) (key : Str) (opts : WatchOption) :
    hub.Calm (hub.watch key opts).1 := by
  obtain ⟨channel, ⟨hwatch, -⟩ | ⟨hwatch, -⟩⟩ := h.watch_cases key opts
  · rw [hwatch]; exact calm_allocate channel
  · rw [hwatch]
    refine ⟨Nat.le_succ _, (calm_allocate channel).handed, fun watcher hwatcher hlt => ?_⟩
    rcases mem_append.mp hwatcher with hold | hnew
    · exact hold
    · rw [mem_singleton.mp hnew] at hlt
      exact absurd hlt (lt_irrefl _)

theorem calm_receive (channel : Nat) : hub.Calm (hub.receive channel) where
  count := le_rfl
  handed other _ := handed_update (handed_receive _) other
  watchers _ hwatcher _ := hwatcher

theorem calm_removeWatcher (channel : Nat) : hub.Calm (hub.removeWatcher channel) := by
  unfold removeWatcher
  split
  · exact ⟨le_rfl, fun other _ => handed_update (handed_close _) other,
      fun _ hwatcher _ => mem_of_mem_eraseP hwatcher⟩
  · exact ⟨le_rfl, fun _ _ => rfl, fun _ hwatcher _ => hwatcher⟩

theorem calm_close : hub.Calm hub.close :=
  ⟨le_rfl, fun channel _ => handed_closeAll _ _ channel, by simp [close]⟩

end EventHub

end CCattler.Store
