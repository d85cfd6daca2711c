import CCattler.Store.EventHubLaws
import CCattler.Store.Valid

/-! # Interleaved runs of the store

A writer broadcasts only after its section, one event at a time. Other writers may
commit and broadcast in between.
-/

namespace CCattler.Store

open Go List

/-- The store with the writers in flight and the events they have still to broadcast, and
the history of commits and broadcasts. -/
structure System where
  store : MemoryStore
  inflight : List (List Event)
  mutations : List Event
  log : List Event

/-- An atomic step. Calls and watches are those past their closed check. -/
inductive Step where
  | call (operation : Operation)
  | broadcast (writer : Nat) (taken : Nat → Nat)
  | watch (key : Str) (opts : WatchOption)
  | receive (channel : Nat)
  | removeWatcher (channel : Nat)
  | close

variable {system : System}

namespace System

/-- A new store with the given watch channel buffer size. -/
def initial (bufferSize : Nat) : System where
  store := { MemoryStore.new with hub := EventHub.new.setWatchChannelBufferSize bufferSize }
  inflight := []
  mutations := []
  log := []

/-- The writers left after one of them broadcast the head of its batch. -/
def afterBroadcast (inflight : List (List Event)) (writer : Nat) (rest : List Event) :
    List (List Event) :=
  if rest = [] then inflight.eraseIdx writer else inflight.set writer rest

section

variable (system : System)

def step : Step → System
  | .call operation =>
    let performed := system.store.table.perform operation
    { system with
      store := { system.store with table := performed.1 }
      inflight :=
        if performed.2 = [] then system.inflight else system.inflight ++ [performed.2]
      mutations := system.mutations ++ performed.2 }
  | .broadcast writer taken =>
    match system.inflight[writer]? with
    | some (event :: rest) =>
      { system with
        store := { system.store with hub := system.store.hub.broadcastEvent event taken }
        inflight := afterBroadcast system.inflight writer rest
        log := system.log ++ [event] }
    | _ => system
  | .watch key opts =>
    { system with store := { system.store with hub := (system.store.hub.watch key opts).1 } }
  | .receive channel =>
    { system with store := { system.store with hub := system.store.hub.receive channel } }
  | .removeWatcher channel =>
    { system with store := { system.store with hub := system.store.hub.removeWatcher channel } }
  | .close => { system with store := system.store.close }

def run (steps : List Step) : System := steps.foldl step system

theorem run_append (first second : List Step) :
    system.run (first ++ second) = (system.run first).run second := foldl_append

end

theorem run_induction {P : System → Prop} {steps : List Step}
    (hstep : ∀ current action, action ∈ steps → P current → P (current.step action))
    (hstart : P system) : P (system.run steps) := by
  induction steps generalizing system with
  | nil => exact hstart
  | cons first rest ih =>
    exact ih (fun current action haction => hstep current action (mem_cons_of_mem _ haction))
      (hstep system first mem_cons_self hstart)

/-- A step is a call, a broadcast by a writer in flight, or acts on the hub only. -/
inductive Effect (system : System) : Step → System → Prop
  | call (operation : Operation) : Effect system (.call operation) (system.step (.call operation))
  | broadcast {writer : Nat} {taken : Nat → Nat} {event : Event} {rest : List Event}
      (hwriter : system.inflight[writer]? = some (event :: rest)) :
      Effect system (.broadcast writer taken) { system with
          store := { system.store with hub := system.store.hub.broadcastEvent event taken }
          inflight := afterBroadcast system.inflight writer rest
          log := system.log ++ [event] }
  | idle (action : Step) : Effect system action system
  | hub {action : Step} {store : MemoryStore} (htable : store.table = system.store.table)
      (hhub : (∃ key opts, action = .watch key opts ∧
          store.hub = (system.store.hub.watch key opts).1) ∨
        (∃ channel, action = .receive channel ∧ store.hub = system.store.hub.receive channel) ∨
        (∃ channel, action = .removeWatcher channel ∧
          store.hub = system.store.hub.removeWatcher channel) ∨
        (action = .close ∧ store.hub = system.store.hub.close)) :
      Effect system action { system with store := store }

theorem step_effect (system : System) (action : Step) :
    Effect system action (system.step action) := by
  cases action with
  | call operation => exact .call operation
  | broadcast writer taken =>
    simp only [step]
    split
    next _ _ hwriter => exact .broadcast hwriter
    next => exact .idle _
  | watch key opts => exact .hub rfl (Or.inl ⟨key, opts, rfl, rfl⟩)
  | receive channel => exact .hub rfl (Or.inr (Or.inl ⟨channel, rfl, rfl⟩))
  | removeWatcher channel => exact .hub rfl (Or.inr (Or.inr (Or.inl ⟨channel, rfl, rfl⟩)))
  | close =>
    simp only [step, MemoryStore.close]
    split
    next => exact .idle _
    next => exact .hub rfl (Or.inr (Or.inr (Or.inr ⟨rfl, rfl⟩)))

/-- The table is valid and the hub records the log. -/
structure Coherent (system : System) : Prop where
  valid : system.store.table.Valid
  hub : system.store.hub.WellFormed system.log

theorem coherent_initial (bufferSize : Nat) : (initial bufferSize).Coherent :=
  ⟨FactTable.valid_new, EventHub.wellFormed_new bufferSize⟩

theorem Coherent.step (h : system.Coherent) (action : Step) : (system.step action).Coherent := by
  have heffect := step_effect system action
  generalize system.step action = next at heffect ⊢
  cases heffect with
  | call operation => exact ⟨h.valid.perform operation, h.hub⟩
  | broadcast hwriter => exact ⟨h.valid, h.hub.broadcastEvent _ _⟩
  | idle => exact h
  | hub htable hhub =>
    refine ⟨by rw [htable]; exact h.valid, ?_⟩
    rcases hhub with ⟨key, opts, -, hhub⟩ | ⟨channel, -, hhub⟩ | ⟨channel, -, hhub⟩ | ⟨-, hhub⟩
    · rw [hhub]; exact h.hub.watch key opts
    · rw [hhub]; exact h.hub.receive channel
    · rw [hhub]; exact h.hub.removeWatcher channel
    · rw [hhub]; exact h.hub.close

theorem Coherent.run (h : system.Coherent) (steps : List Step) : (system.run steps).Coherent :=
  run_induction (fun _ action _ hcurrent => hcurrent.step action) h

/-! ## Where an event is -/

/-- A broadcast takes one event out of the pending ones and leaves the others
in their places. -/
theorem flatten_split {inflight : List (List Event)} {writer : Nat} {event : Event}
    {rest : List Event} (hwriter : inflight[writer]? = some (event :: rest)) :
    ∃ tail, inflight.flatten = (inflight.take writer).flatten ++ event :: tail ∧
      (afterBroadcast inflight writer rest).flatten = (inflight.take writer).flatten ++ tail := by
  obtain ⟨hlt, hget⟩ := List.getElem?_eq_some_iff.mp hwriter
  refine ⟨rest ++ (inflight.drop (writer + 1)).flatten, ?_, ?_⟩
  · conv_lhs => rw [← take_append_drop writer inflight]
    rw [drop_eq_getElem_cons hlt, hget, flatten_append, flatten_cons, cons_append]
  · unfold afterBroadcast
    split
    next hrest =>
      rw [hrest, eraseIdx_eq_take_drop_succ, flatten_append, nil_append]
    next =>
      rw [set_eq_take_append_cons_drop, if_pos hlt, flatten_append, flatten_cons]

theorem mutation_located (bufferSize : Nat) (steps : List Step) :
    ∀ event ∈ ((initial bufferSize).run steps).mutations,
      event ∈ ((initial bufferSize).run steps).inflight.flatten ∨
        event ∈ ((initial bufferSize).run steps).log := by
  refine run_induction (P := fun system => ∀ event ∈ system.mutations,
      event ∈ system.inflight.flatten ∨ event ∈ system.log) ?_ (by simp [initial])
  rintro system action - hlocated
  have heffect := step_effect system action
  generalize system.step action = next at heffect ⊢
  cases heffect with
  | call operation =>
    intro event hevent
    simp only [step, mem_append] at hevent ⊢
    -- a writer that has changed nothing is not in flight
    rcases hevent with hold | hnew
    · rcases hlocated event hold with hflight | hlog
      · refine Or.inl ?_
        split
        next => exact hflight
        next => simp [hflight]
      · exact Or.inr hlog
    · rw [if_neg (ne_nil_of_mem hnew)]
      simp [hnew]
  | broadcast hwriter =>
    intro event hevent
    obtain ⟨_, hbefore, hafter⟩ := flatten_split hwriter
    rcases hlocated event hevent with hflight | hlog
    · rw [hbefore, mem_append, mem_cons] at hflight
      simp only [hafter, mem_append, mem_singleton]
      tauto
    · exact Or.inr (mem_append_left _ hlog)
  | idle => exact hlocated
  | hub => exact hlocated

end System

end CCattler.Store
