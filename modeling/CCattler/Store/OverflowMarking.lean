import CCattler.Store.EventOrder

/-! # Overflow marking

The owed marker and the event are two sends. If the consumer takes a value between
them, the event may find the room that the marker did not.
-/

namespace CCattler.Store

open Go List Channel EventHub

/-- A broadcast to one watcher, or a read by its consumer. -/
inductive WatcherStep where
  | broadcast (event : Event) (taken : Nat)
  | read

namespace WatcherStep

section

variable (state : FactWatcher × Channel Event)

def apply : WatcherStep → FactWatcher × Channel Event
  | broadcast event taken => deliver event taken state.1 state.2
  | read => (state.1, state.2.receive)

def applyAll (steps : List WatcherStep) : FactWatcher × Channel Event := steps.foldl apply state

/-- Between a marker that finds no room and the event, the consumer takes nothing. -/
def InOrder : WatcherStep → Prop
  | broadcast _ taken => state.1.overflowDetected = true →
    (state.2.trySend Event.overflowMarker).2 = false → taken = 0
  | read => True

/-- The watcher wants the event, and it is not sent. -/
structure Drops (event : Event) (taken : Nat) : Prop where
  wanted : matchesWatchPattern event state.1.keyPattern state.1.matchByPrefix = true
  change : event.isChange = true
  lost : ((broadcast event taken).apply state).2.handed.filter Event.isChange =
    state.2.handed.filter Event.isChange

end

def AllInOrder (state : FactWatcher × Channel Event) : List WatcherStep → Prop
  | [] => True
  | step :: rest => step.InOrder state ∧ AllInOrder (step.apply state) rest

theorem AllInOrder.append {state : FactWatcher × Channel Event} {first second : List WatcherStep}
    (h : AllInOrder state (first ++ second)) : AllInOrder (applyAll state first) second := by
  induction first generalizing state with
  | nil => exact h
  | cons step rest ih => exact ih h.2

/-- Since some time a marker was sent first, or nothing was and a marker is owed. -/
def Marked (handed : List Event) (state : FactWatcher × Channel Event) : Prop :=
  (∃ rest, state.2.handed = handed ++ Event.overflowMarker :: rest) ∨
    (state.2.handed = handed ∧ state.1.overflowDetected = true)

variable {state : FactWatcher × Channel Event} {handed : List Event}

theorem marked_of_drops {event : Event} {taken : Nat} (h : Drops state event taken) :
    Marked state.2.handed ((broadcast event taken).apply state) := by
  obtain ⟨marker, sent, -, hhanded, howed⟩ := (deliver_of_matches h.wanted taken state.2).outcome
  have hlost := h.lost
  rw [apply, hhanded] at hlost
  have hsent : sent = false := by
    by_contra hsent
    have hlength := congrArg length hlost
    cases marker <;> simp [hsent, h.change] at hlength
  subst hsent
  cases marker with
  | true => exact Or.inl ⟨[], by simpa [apply] using hhanded⟩
  | false => exact Or.inr ⟨by simpa [apply] using hhanded, howed⟩

/-- An owed marker that does not fit keeps the event out too. -/
theorem deliver_of_full {event : Event} (howed : state.1.overflowDetected = true)
    (hfull : (state.2.trySend Event.overflowMarker).2 = false) :
    deliver event 0 state.1 state.2 = state := by
  have hsend : ∀ event, state.2.trySend event = (state.2, false) := by
    intro event
    unfold trySend at hfull ⊢
    split at hfull
    next => cases hfull
    next hwaiting =>
      rw [dif_neg hwaiting]
      split at hfull
      next => cases hfull
      next hroom => rw [dif_neg hroom]
  obtain ⟨⟨_, _, _, _⟩, _⟩ := state
  obtain rfl : _ = true := howed
  unfold deliver
  split
  · simp only [if_true, hsend, Function.iterate_zero, id_eq]
    rfl
  · rfl

theorem Marked.step (h : Marked handed state) {step : WatcherStep} (horder : step.InOrder state) :
    Marked handed (step.apply state) := by
  cases step with
  | read => simpa [Marked, apply] using h
  | broadcast event taken =>
    cases hwanted : matchesWatchPattern event state.1.keyPattern state.1.matchByPrefix with
    | false =>
      rw [apply, deliver_of_not_matches hwanted]
      exact h
    | true =>
      rcases h with ⟨rest, hrest⟩ | ⟨hnothing, howed⟩
      · obtain ⟨_, _, -, hhanded, -⟩ := (deliver_of_matches hwanted taken state.2).outcome
        rw [hrest, append_assoc, append_assoc] at hhanded
        exact Or.inl ⟨_, hhanded⟩
      · cases hsent : (state.2.trySend Event.overflowMarker).2 with
        | false =>
          rw [horder howed hsent, apply, deliver_of_full howed hsent]
          exact Or.inr ⟨hnothing, howed⟩
        | true =>
          refine Or.inl ?_
          simp only [apply, deliver, hwanted, howed, if_true, handed_trySend,
            handed_iterate_receive, hnothing]
          split
          · exact ⟨[event], by simp⟩
          · exact ⟨[], rfl⟩

theorem Marked.steps (h : Marked handed state) {steps : List WatcherStep}
    (horder : AllInOrder state steps) : Marked handed (applyAll state steps) := by
  induction steps generalizing state with
  | nil => exact h
  | cons step rest ih => exact ih (h.step horder.1) horder.2

end WatcherStep

open WatcherStep

/-- In a run in which no event overtakes an owed marker, a dropped event leaves a marker
between the changes read from before and from after it. -/
theorem overflow_marked (start : FactWatcher × Channel Event) (before after : List WatcherStep)
    (event : Event) (taken : Nat)
    (horder : AllInOrder start (before ++ .broadcast event taken :: after))
    (hdrops : Drops (applyAll start before) event taken)
    (front middle back : List Event) (first second : Event)
    (hread : (applyAll start (before ++ .broadcast event taken :: after)).2.received =
      front ++ first :: middle ++ second :: back)
    (hsecond : second.isChange = true)
    (hearlier : front.length < (applyAll start before).2.handed.length)
    (hlater : (applyAll start before).2.handed.length ≤ (front ++ first :: middle).length) :
    Event.overflowMarker ∈ middle := by
  have hmarked := (marked_of_drops hdrops).steps horder.append.2
  rw [applyAll, foldl_append, foldl_cons] at hread
  simp only [applyAll] at hmarked hearlier hlater
  generalize (before.foldl apply start).2.handed = handed at *
  generalize after.foldl apply _ = final at *
  have hsent : final.2.handed = (front ++ first :: middle) ++
      (second :: back ++ final.2.buffered ++ final.2.blocked) := by
    rw [Channel.handed, hread]
    simp
  rcases hmarked with ⟨others, hothers⟩ | ⟨hnothing, -⟩
  · -- the marker is the next value that was sent, so it follows `first` and is not `second`
    have hat : (front ++ first :: middle ++ (second :: back ++ final.2.buffered ++
        final.2.blocked))[handed.length]? = some Event.overflowMarker := by
      rw [← hsent, hothers]
      simp
    obtain ⟨index, hindex⟩ := Nat.exists_eq_add_of_lt hearlier
    rw [hindex, append_assoc, Nat.add_assoc, getElem?_append_right (Nat.le_add_right _ _),
      Nat.add_sub_cancel_left, cons_append, getElem?_cons_succ] at hat
    rcases Nat.lt_or_ge index middle.length with hlt | hge
    · rw [getElem?_append_left hlt] at hat
      exact mem_of_getElem? hat
    · obtain rfl : index = middle.length := by
        simp only [length_append, length_cons] at hlater
        omega
      obtain rfl : second = Event.overflowMarker := by simpa using hat
      cases hsecond
  · rw [hnothing] at hsent
    have hlength := congrArg length hsent
    simp only [length_append, length_cons] at hlength hlater
    omega

/-- The watcher of `a`, and the event of a revision. -/
def watcherOfA : FactWatcher := ⟨lit "a", false, 0, false⟩

def putOfA (revision : Int) : Event := ⟨.put, ⟨lit "a", [], revision, 1, 0⟩, none⟩

/-- With a read before the third broadcast, its marker finds the room. -/
theorem marker_between_reads :
    (applyAll (watcherOfA, Channel.make 1) [.broadcast (putOfA 1) 0, .broadcast (putOfA 2) 0,
      .read, .broadcast (putOfA 3) 1, .read]).2.received =
        [putOfA 1, Event.overflowMarker, putOfA 3] ∧
      Event.overflowMarker ∈ [Event.overflowMarker] :=
  ⟨by decide, overflow_marked (watcherOfA, Channel.make 1) [.broadcast (putOfA 1) 0]
    [.read, .broadcast (putOfA 3) 1, .read] (putOfA 2) 0
    ⟨fun _ _ => rfl, fun _ _ => rfl, trivial, fun _ hfull => absurd hfull (by decide), trivial,
      trivial⟩ ⟨by decide, by decide, by decide⟩
    [] [Event.overflowMarker] [] (putOfA 1) (putOfA 3) (by decide) (by decide) (by decide)
    (by decide)⟩

/-- The third event takes the room of the first, and the second is lost without a marker. -/
theorem event_overtakes_marker :
    Drops (applyAll (watcherOfA, Channel.make 1) [.broadcast (putOfA 1) 0]) (putOfA 2) 0 ∧
      (applyAll (watcherOfA, Channel.make 1) [.broadcast (putOfA 1) 0, .broadcast (putOfA 2) 0,
        .broadcast (putOfA 3) 1, .read]).2.received = [putOfA 1, putOfA 3] :=
  ⟨⟨by decide, by decide, by decide⟩, by decide⟩

end CCattler.Store
