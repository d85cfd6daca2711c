import CCattler.Store.Revisions
import CCattler.Store.System

/-! # The order in which events arrive

Revisions are drawn under the data lock and broadcast under the event lock. Events of a
key arrive in commit order as long as no writer overtakes an earlier one.
-/

namespace CCattler.Store

open Go List Channel

/-- A put or a delete, as opposed to a marker. -/
def Event.isChange (event : Event) : Bool := event.type == .put || event.type == .delete

/-- The changes of one key. -/
def changesOf (key : Str) (events : List Event) : List Event :=
  events.filter (fun event => event.isChange && event.fact.key == key)

/-- What a consumer holds at a key that keeps the last event on it. -/
def consumerView (key : Str) (events : List Event) : Option Fact :=
  (changesOf key events).getLast?.bind
    (fun event => if event.type = .put then some event.fact else none)

/-- Revisions never decrease. -/
def InRevisionOrder (events : List Event) : Prop :=
  events.Pairwise (fun earlier later => earlier.fact.revision ≤ later.fact.revision)

theorem changesOf_append (key : Str) (first second : List Event) :
    changesOf key (first ++ second) = changesOf key first ++ changesOf key second :=
  filter_append ..

/-- A consumer's view after one more event. -/
theorem consumerView_append_singleton (events : List Event) {event : Event}
    (hchange : event.isChange = true) (key : Str) :
    consumerView key (events ++ [event]) =
      if event.fact.key = key then (if event.type = .put then some event.fact else none)
      else consumerView key events := by
  by_cases hkey : event.fact.key = key
  · simp [consumerView, changesOf, hchange, hkey]
  · simp [consumerView, changesOf, hchange, hkey]

/-- A consumer that missed nothing at the end holds the same as one that saw all. -/
theorem consumerView_of_suffix {key : Str} {part events : List Event}
    (hsome : changesOf key part ≠ []) (hsuffix : changesOf key part <:+ changesOf key events) :
    consumerView key part = consumerView key events := by
  obtain ⟨_, hfront⟩ := hsuffix
  rw [consumerView, consumerView, ← hfront, List.getLast?_append_of_ne_nil _ hsome]

theorem InRevisionOrder.sublist {events part : List Event} (h : InRevisionOrder events)
    (hpart : part.Sublist events) : InRevisionOrder part :=
  List.Pairwise.sublist hpart h

/-! ## Commits -/

namespace FactTable

variable {table : FactTable}

theorem isChange_eventOf (table : FactTable) (operation : Op) (revision : Int) :
    (table.eventOf operation revision).isChange = true := by
  unfold eventOf
  split <;> rfl

theorem consumerView_executeTransactionOperations (table : FactTable) {committed : List Event}
    (h : ∀ key, consumerView key committed = table.facts key) (operations : List Op)
    (revision : Int) (key : Str) :
    consumerView key (committed ++ (table.executeTransactionOperations operations revision).2) =
      (table.executeTransactionOperations operations revision).1.facts key := by
  induction operations generalizing table committed with
  | nil => simpa using h key
  | cons operation rest ih =>
    rw [executeTransactionOperations_cons, ← append_assoc]
    refine ih _ fun other => ?_
    rw [executeOperation_eq]
    split
    next =>
      rw [Option.toList_some, consumerView_append_singleton _ (isChange_eventOf _ _ _),
        afterWrite_facts, eventOf_key, h]
      by_cases hkey : operation.key = other
      · rw [if_pos hkey, if_pos hkey.symm]
        unfold eventOf written
        cases operation.type <;> rfl
      · rw [if_neg hkey, if_neg (Ne.symm hkey)]
    next => simpa using h other

/-- The events of a call take a consumer's view from the facts before to those after. -/
structure Announces (table : FactTable) (after : FactTable × List Event) : Prop where
  changes : ∀ event ∈ after.2, event.isChange = true
  revisions : ∀ event ∈ after.2, event.fact.revision = after.1.currentRevision
  advances : ∀ event ∈ after.2, after.1.currentRevision = table.currentRevision + 1
  monotone : table.currentRevision ≤ after.1.currentRevision
  view : ∀ committed : List Event, (∀ key, consumerView key committed = table.facts key) →
    ∀ key, consumerView key (committed ++ after.2) = after.1.facts key

theorem announces_commitBranch (table : FactTable) (branch : List Op) :
    Announces table (table.commitBranch branch) := by
  rw [commitBranch_eq]
  split
  next =>
    have hcurrent := executeTransactionOperations_currentRevision table.advance branch
      (table.currentRevision + 1)
    rw [advance_currentRevision] at hcurrent
    refine ⟨fun event hevent => ?_, ?_, fun _ _ => hcurrent, by omega, ?_⟩
    · obtain ⟨_, _, -, rfl⟩ := (executeTransactionOperations_induction (P := fun _ => True)
        (fun _ _ _ _ => trivial) trivial).2 event hevent
      exact isChange_eventOf _ _ _
    · rw [hcurrent]
      exact (stampedBy_executeTransactionOperations _ _ _).events
    · exact fun committed h key =>
        table.advance.consumerView_executeTransactionOperations h branch _ key
  next => exact ⟨by simp, by simp, by simp, le_rfl, by simp⟩

theorem announces_perform (table : FactTable) (operation : Operation) :
    Announces table (table.perform operation) := by
  by_cases hgrant : operation = .grantLease
  · subst hgrant
    rw [perform_grantLease]
    refine ⟨by simp, by simp, by simp, ?_, by simp⟩
    simp only [advance_currentRevision]
    omega
  · rw [perform_eq_commitBranch table hgrant]
    exact announces_commitBranch table _

end FactTable

/-! ## Channels receive parts of the log -/

namespace EventHub

/-- The changes a channel was handed are some of those broadcast, in their order. -/
def HandsLog (hub : EventHub) (log : List Event) : Prop :=
  ∀ channel, ((hub.channels channel).handed.filter Event.isChange).Sublist log

variable {hub : EventHub} {log : List Event}

theorem handsLog_initial (bufferSize : Nat) :
    (new.setWatchChannelBufferSize bufferSize).HandsLog [] :=
  fun _ => List.Sublist.refl _

theorem HandsLog.update (h : hub.HandsLog log) {channel : Nat} {changed : Channel Event}
    (hchanged : (changed.handed.filter Event.isChange).Sublist log) (other : Nat) :
    ((Function.update hub.channels channel changed other).handed.filter
      Event.isChange).Sublist log := by
  rw [Function.update_apply]
  split
  next => exact hchanged
  next => exact h other

theorem HandsLog.watch (h : hub.HandsLog log) (hformed : hub.WellFormed log) (key : Str)
    (opts : WatchOption) : (hub.watch key opts).1.HandsLog log := by
  obtain ⟨_, ⟨hwatch, hhanded⟩ | ⟨hwatch, hhanded⟩⟩ := hformed.watch_cases key opts
  · rw [hwatch]
    refine h.update ?_
    simp [hhanded, Event.isChange, Event.compactedMarker]
  · rw [hwatch]
    exact h.update (filter_sublist.trans (hhanded.trans filter_sublist))

theorem HandsLog.broadcastEvent (h : hub.HandsLog log) (hformed : hub.WellFormed log)
    (event : Event) (taken : Nat → Nat) :
    (hub.broadcastEvent event taken).HandsLog (log ++ [event]) := by
  intro channel
  have hgrown := (h channel).trans (sublist_append_left log [event])
  simp only [EventHub.broadcastEvent]
  by_cases howned : channel ∈ hub.activeWatchers.map FactWatcher.eventChannel
  · obtain ⟨watcher, hwatcher, rfl⟩ := mem_map.mp howned
    rw [deliverAll_channel_of_mem hformed.owners hwatcher]
    cases hmatches : matchesWatchPattern event watcher.keyPattern watcher.matchByPrefix with
    | false =>
      rw [deliver_of_not_matches hmatches]
      exact hgrown
    | true =>
      obtain ⟨marker, sent, -, hhanded, -⟩ := (deliver_of_matches hmatches
        (taken watcher.eventChannel) (hub.channels watcher.eventChannel)).outcome
      have hmarkers : (if marker then [Event.overflowMarker] else []).filter Event.isChange =
          [] := by cases marker <;> rfl
      rw [hhanded, filter_append, filter_append, hmarkers, append_nil]
      refine (h _).append ?_
      cases sent with
      | true => exact filter_sublist
      | false => exact nil_sublist _
  · rw [deliverAll_channel_of_notMem howned]
    exact hgrown

theorem HandsLog.close (h : hub.HandsLog log) : hub.close.HandsLog log := by
  intro channel
  simp only [EventHub.close]
  rw [handed_closeAll]
  exact h channel

end EventHub

/-! ## Runs without overtaking -/

namespace System

/-- No writer that committed earlier still has an event on the same key to broadcast. -/
def NoOvertaking (system : System) : Step → Prop
  | .broadcast writer _ => ∀ event rest, system.inflight[writer]? = some (event :: rest) →
      ∀ pending ∈ (system.inflight.take writer).flatten, pending.fact.key ≠ event.fact.key
  | _ => True

/-- No step of a run overtakes. -/
def RunsInOrder (system : System) : List Step → Prop
  | [] => True
  | first :: rest => system.NoOvertaking first ∧ (system.step first).RunsInOrder rest

/-- From its first change of the key on, the channel was handed every change that was
broadcast: none was dropped for a full buffer. -/
def MissedNothing (system : System) (key : Str) (channel : Nat) : Prop :=
  changesOf key (system.store.hub.channels channel).handed <:+ changesOf key system.log

instance (system : System) (key : Str) (channel : Nat) :
    Decidable (system.MissedNothing key channel) := inferInstanceAs (Decidable (_ <:+ _))

/-- Revisions do not decrease, and the last events say what the table holds. -/
structure Announced (system : System) : Prop where
  changes : ∀ event ∈ system.mutations, event.isChange = true
  bounded : ∀ event ∈ system.mutations, event.fact.revision ≤ system.store.table.currentRevision
  ordered : InRevisionOrder system.mutations
  view : ∀ key, consumerView key system.mutations = system.store.table.facts key

theorem announced_initial (bufferSize : Nat) : (initial bufferSize).Announced :=
  ⟨by simp [initial], by simp [initial], List.Pairwise.nil, fun _ => rfl⟩

theorem Announced.call {system : System} (h : system.Announced) (operation : Operation) :
    (system.step (.call operation)).Announced := by
  have hannounces := FactTable.announces_perform system.store.table operation
  have hmonotone := hannounces.monotone
  refine ⟨fun event hevent => ?_, fun event hevent => ?_, ?_,
    hannounces.view system.mutations h.view⟩
  · rcases mem_append.mp hevent with hold | hnew
    · exact h.changes event hold
    · exact hannounces.changes event hnew
  · rcases mem_append.mp hevent with hold | hnew
    · exact (h.bounded event hold).trans hmonotone
    · exact (hannounces.revisions event hnew).le
  -- old revisions are at most the counter before, new ones are the counter after
  · refine pairwise_append.mpr ⟨h.ordered, ?_, ?_⟩
    · refine pairwise_of_forall_mem_list fun earlier hearlier later hlater => ?_
      rw [hannounces.revisions earlier hearlier, hannounces.revisions later hlater]
    · intro earlier hearlier later hlater
      rw [hannounces.revisions later hlater]
      exact (h.bounded earlier hearlier).trans hmonotone

/-- Per key, the log and the events in flight are in commit order, and channels hand parts
of the log. -/
structure Ordered (system : System) : Prop where
  coherent : system.Coherent
  announced : system.Announced
  perKey : ∀ key, changesOf key system.mutations =
    changesOf key system.log ++ changesOf key system.inflight.flatten
  hands : system.store.hub.HandsLog system.log

theorem ordered_initial (bufferSize : Nat) : (initial bufferSize).Ordered where
  coherent := coherent_initial bufferSize
  announced := announced_initial bufferSize
  perKey _ := rfl
  hands := EventHub.handsLog_initial bufferSize

variable {system : System}

/-- The next event of a writer that overtakes nobody keeps the order of every key. -/
theorem changesOf_broadcast {writer : Nat} {event : Event} {rest : List Event}
    (hwriter : system.inflight[writer]? = some (event :: rest))
    (hahead : ∀ pending ∈ (system.inflight.take writer).flatten,
      pending.fact.key ≠ event.fact.key) (key : Str) :
    changesOf key (system.log ++ [event]) ++
        changesOf key (afterBroadcast system.inflight writer rest).flatten =
      changesOf key system.log ++ changesOf key system.inflight.flatten := by
  obtain ⟨tail, hbefore, hafter⟩ := flatten_split hwriter
  rw [hbefore, hafter, ← singleton_append (x := event) (l := tail)]
  simp only [changesOf_append, append_assoc]
  congr 1
  -- either nothing ahead of the event is on its key, or it is on another key
  by_cases hkey : event.fact.key = key
  · have hnone : changesOf key (system.inflight.take writer).flatten = [] := by
      refine filter_eq_nil_iff.mpr fun pending hpending => ?_
      simp [← hkey, hahead pending hpending]
    rw [hnone, nil_append, nil_append]
  · have hother : changesOf key [event] = [] := by simp [changesOf, hkey]
    rw [hother, nil_append, nil_append]

variable (h : system.Ordered)
include h

theorem Ordered.step {action : Step} (hahead : system.NoOvertaking action) :
    (system.step action).Ordered := by
  have hcoherent := h.coherent.step action
  have heffect := step_effect system action
  generalize system.step action = next at hcoherent heffect ⊢
  cases heffect with
  | call operation =>
    refine ⟨hcoherent, h.announced.call operation, fun key => ?_, h.hands⟩
    simp only [System.step, changesOf_append, h.perKey key, append_assoc]
    congr 1
    split
    next hnone => rw [hnone]; simp [changesOf]
    next => simp [changesOf]
  | broadcast hwriter =>
    refine ⟨hcoherent, ⟨h.announced.changes, h.announced.bounded, h.announced.ordered,
      h.announced.view⟩, fun key => ?_, h.hands.broadcastEvent h.coherent.hub _ _⟩
    rw [h.perKey key]
    exact (changesOf_broadcast hwriter (hahead _ _ hwriter) key).symm
  | idle => exact h
  | hub htable hhub =>
    refine ⟨hcoherent, ⟨h.announced.changes, ?_, h.announced.ordered, ?_⟩, h.perKey, ?_⟩
    · rw [htable]; exact h.announced.bounded
    · rw [htable]; exact h.announced.view
    · rcases hhub with ⟨key, opts, -, hhub⟩ | ⟨channel, -, hhub⟩ | ⟨channel, -, hhub⟩ | ⟨-, hhub⟩
      · rw [hhub]; exact h.hands.watch h.coherent.hub key opts
      · rw [hhub]
        exact h.hands.update (by rw [handed_receive]; exact h.hands channel)
      · rw [hhub, EventHub.removeWatcher]
        split
        next => exact h.hands.update (by rw [handed_close]; exact h.hands channel)
        next => exact h.hands
      · rw [hhub]; exact h.hands.close

theorem Ordered.run {steps : List Step} (horder : system.RunsInOrder steps) :
    (system.run steps).Ordered := by
  induction steps generalizing system with
  | nil => exact h
  | cons first rest ih => exact ih (h.step horder.1) horder.2

theorem Ordered.log_in_order (key : Str) : InRevisionOrder (changesOf key system.log) := by
  have hpre : (changesOf key system.log).Sublist (changesOf key system.mutations) := by
    rw [h.perKey key]
    exact sublist_append_left _ _
  exact h.announced.ordered.sublist (hpre.trans filter_sublist)

theorem Ordered.handed_sublist (key : Str) (channel : Nat) :
    (changesOf key (system.store.hub.channels channel).handed).Sublist
      (changesOf key system.log) := by
  have hfilter := (h.hands channel).filter (fun event => event.isChange && event.fact.key == key)
  have hsame : ∀ event : Event, (event.isChange && event.fact.key == key && event.isChange) =
      (event.isChange && event.fact.key == key) := by
    intro event
    cases event.isChange <;> simp
  simp only [filter_filter, hsame] at hfilter
  exact hfilter

theorem Ordered.view_of_idle {key : Str} (hidle : changesOf key system.inflight.flatten = []) :
    consumerView key system.log = system.store.table.facts key := by
  rw [← h.announced.view key, consumerView, consumerView, h.perKey key, hidle, append_nil]

end System

/-- Without overtaking, the history and every channel get the changes of a key in revision
order. In the end the last change carries the store's value, in the history and in every
channel that missed nothing. -/
theorem events_in_revision_order (bufferSize : Nat) (steps : List Step)
    (horder : (System.initial bufferSize).RunsInOrder steps) (key : Str) :
    let system := (System.initial bufferSize).run steps
    let history := system.store.hub.eventHistory.contents.map EventHistoryEntry.event
    InRevisionOrder (changesOf key history) ∧
    (∀ channel, InRevisionOrder (changesOf key (system.store.hub.channels channel).handed)) ∧
    (changesOf key system.inflight.flatten = [] →
      (changesOf key history ≠ [] → consumerView key history = system.store.table.facts key) ∧
      ∀ channel, changesOf key (system.store.hub.channels channel).handed ≠ [] →
        system.MissedNothing key channel →
        consumerView key (system.store.hub.channels channel).handed =
          system.store.table.facts key) := by
  intro system history
  have h : system.Ordered := (System.ordered_initial bufferSize).run horder
  have hsuffix : changesOf key history <:+ changesOf key system.log := by
    rw [show history = _ from h.coherent.hub.contents_eq]
    exact (drop_suffix _ system.log).filter _
  refine ⟨(h.log_in_order key).sublist hsuffix.sublist, fun channel => ?_, fun hidle => ⟨?_, ?_⟩⟩
  · exact (h.log_in_order key).sublist (h.handed_sublist key channel)
  · intro hsome
    rw [consumerView_of_suffix hsome hsuffix, h.view_of_idle hidle]
  · intro channel hsome hlatest
    rw [consumerView_of_suffix hsome hlatest, h.view_of_idle hidle]

/-- Two puts to one key by two writers, after a watch on the key. -/
def twoWriters (first second : Nat) : List Step :=
  [.watch (lit "a") ⟨false, 0⟩, .call (.put (lit "a") (lit "1")), .call (.put (lit "a") (lit "2")),
    .broadcast first (fun _ => 0), .broadcast second (fun _ => 0)]

/-- Broadcasting in commit order, the consumer ends with the later value. -/
theorem twoWriters_in_order :
    let system := (System.initial 256).run (twoWriters 0 0)
    InRevisionOrder (changesOf (lit "a") (system.store.hub.channels 0).handed) ∧
      consumerView (lit "a") (system.store.hub.channels 0).handed =
        system.store.table.facts (lit "a") := by
  have horder : (System.initial 256).RunsInOrder (twoWriters 0 0) := by
    refine ⟨trivial, trivial, trivial, ?_, ?_, trivial⟩ <;> intro event rest hwriter <;> simp
  have h := events_in_revision_order 256 (twoWriters 0 0) horder (lit "a")
  exact ⟨h.2.1 0, (h.2.2 (by decide)).2 0 (by decide) (by decide)⟩

/-- Where the buffer holds one event, the second change is dropped. -/
example :
    let system := (System.initial 1).run [.watch (lit "a") ⟨false, 0⟩,
      .call (.put (lit "a") (lit "1")), .broadcast 0 (fun _ => 0),
      .call (.put (lit "a") (lit "2")), .broadcast 0 (fun _ => 0)]
    (consumerView (lit "a") (system.store.hub.channels 0).handed).map Fact.value =
        some (lit "1") ∧
      (system.store.table.facts (lit "a")).map Fact.value = some (lit "2") := by
  decide

/-- The channel gets revision 2 before revision 1, and the consumer ends with a stale value. -/
theorem twoWriters_overtaken :
    let system := (System.initial 256).run (twoWriters 1 0)
    ((system.store.hub.channels 0).handed.map fun event => event.fact.revision) = [2, 1] ∧
      (system.store.hub.eventHistory.contents.map EventHistoryEntry.revision) = [2, 1] ∧
      system.inflight = [] ∧
      (consumerView (lit "a") (system.store.hub.channels 0).handed).map Fact.value =
        some (lit "1") ∧
      (system.store.table.facts (lit "a")).map Fact.value = some (lit "2") := by
  decide

end CCattler.Store
