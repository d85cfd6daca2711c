import Mathlib.Data.List.Basic
import CCattler.Store.Types

/-! # The event history ring buffer

The bounded buffer that revision-based watches replay from. Its contents are the
most recent events ever appended.
-/

namespace CCattler.Store

open List

structure EventHistoryEntry where
  revision : Int
  event : Event
  deriving DecidableEq

/-- The ring buffer; `capacity` is the fixed length of `entries`. -/
structure EventHistoryBuffer where
  capacity : Nat
  entries : Nat → EventHistoryEntry
  writeIndex : Nat
  entryCount : Nat

def defaultEventHistoryCapacity : Nat := 4096

namespace EventHistoryBuffer

/-- `newEventHistoryBuffer`. -/
def new (capacity : Nat) : EventHistoryBuffer :=
  ⟨capacity, fun _ => ⟨0, ⟨.put, Fact.zero, none⟩⟩, 0, 0⟩

section

variable (buffer : EventHistoryBuffer)

def append (revision : Int) (event : Event) : EventHistoryBuffer where
  capacity := buffer.capacity
  entries := Function.update buffer.entries buffer.writeIndex ⟨revision, event⟩
  writeIndex := (buffer.writeIndex + 1) % buffer.capacity
  entryCount :=
    if buffer.entryCount < buffer.capacity then buffer.entryCount + 1 else buffer.entryCount

def oldestIndex : Nat :=
  if buffer.entryCount = buffer.capacity then buffer.writeIndex else 0

/-- The valid entries in the order of the replay loop. -/
def contents : List EventHistoryEntry :=
  (List.range buffer.entryCount).map
    (fun iterationIndex => buffer.entries ((buffer.oldestIndex + iterationIndex) % buffer.capacity))

/-- The events from a revision on, in order; `none` if the revision has been
evicted from the buffer. -/
def eventsFromRevision (startRevision : Int) : Option (List Event) :=
  if buffer.entryCount = 0 then some []
  else if startRevision < (buffer.entries buffer.oldestIndex).revision then none
  else some ((buffer.contents.filter (fun entry => startRevision ≤ entry.revision)).map
    EventHistoryEntry.event)

end

/-! ## Contents as the tail of everything appended -/

/-- The buffer after the given entries, oldest first, were appended to a new one. -/
structure Records (buffer : EventHistoryBuffer) (log : List EventHistoryEntry) : Prop where
  capacity_pos : 0 < buffer.capacity
  count : buffer.entryCount = min log.length buffer.capacity
  write : buffer.writeIndex = log.length % buffer.capacity
  slot : ∀ position, log.length ≤ position + buffer.capacity → ∀ entry,
    log[position]? = some entry → buffer.entries (position % buffer.capacity) = entry

theorem records_new {capacity : Nat} (h : 0 < capacity) : (new capacity).Records [] where
  capacity_pos := h
  count := by simp [new]
  write := by simp [new]
  slot := by simp

variable {buffer : EventHistoryBuffer} {log : List EventHistoryEntry}

theorem mod_ne_of_window {capacity position length : Nat} (hlt : position < length)
    (hwindow : length < position + capacity) : position % capacity ≠ length % capacity := by
  intro h
  have hzero := Nat.sub_mod_eq_zero_of_mod_eq h.symm
  rw [Nat.mod_eq_of_lt (by omega)] at hzero
  omega

theorem Records.append (h : buffer.Records log) (revision : Int) (event : Event) :
    (buffer.append revision event).Records (log ++ [⟨revision, event⟩]) where
  capacity_pos := h.capacity_pos
  count := by
    have := h.count
    simp only [EventHistoryBuffer.append, length_append, length_singleton]
    split <;> omega
  write := by
    simp only [EventHistoryBuffer.append, h.write, length_append]
    exact Nat.mod_add_mod _ _ _
  slot := by
    intro position hwindow entry hentry
    simp only [EventHistoryBuffer.append, length_append, length_singleton] at hwindow ⊢
    rcases Nat.lt_or_ge position log.length with hlt | hge
    -- a kept entry sits in another slot than the one overwritten
    · rw [List.getElem?_append_left hlt] at hentry
      have hne := mod_ne_of_window hlt (by omega : log.length < position + buffer.capacity)
      rw [h.write, Function.update_of_ne hne]
      exact h.slot position (by omega) entry hentry
    · rw [List.getElem?_append_right hge] at hentry
      have hzero : position - log.length = 0 := by
        by_contra hpos
        rw [List.getElem?_eq_none (by simp; omega)] at hentry
        exact absurd hentry (by simp)
      rw [hzero] at hentry
      have heq : position = log.length := by omega
      rw [heq, h.write]
      simpa using hentry

theorem Records.contents_eq (h : buffer.Records log) :
    buffer.contents = log.drop (log.length - buffer.capacity) := by
  have hcount := h.count
  refine ext_getElem (by simp [contents]; omega) ?_
  intro i hi _
  simp only [contents, length_map, length_range] at hi
  simp only [contents, getElem_map, getElem_range, getElem_drop]
  have hslot : (buffer.oldestIndex + i) % buffer.capacity =
      (log.length - buffer.capacity + i) % buffer.capacity := by
    rw [oldestIndex]
    split
    -- a full buffer starts at the slot written next, which is one round old
    next =>
      rw [h.write, Nat.mod_add_mod]
      have : log.length + i = log.length - buffer.capacity + i + buffer.capacity := by omega
      rw [this, Nat.add_mod_right]
    next =>
      have : log.length - buffer.capacity = 0 := by omega
      rw [this]
  rw [hslot]
  exact h.slot _ (by omega) _ (List.getElem?_eq_getElem (by omega))

/-- A replay past the oldest kept event is refused; others give the kept events. -/
theorem Records.eventsFromRevision_eq (h : buffer.Records log) (startRevision : Int) :
    buffer.eventsFromRevision startRevision =
      if (log.drop (log.length - buffer.capacity)).head?.any
          (fun oldest => startRevision < oldest.revision) then none
      else some (((log.drop (log.length - buffer.capacity)).filter
        (fun entry => startRevision ≤ entry.revision)).map EventHistoryEntry.event) := by
  have hcontents := h.contents_eq
  unfold eventsFromRevision
  split
  next hempty =>
    have : buffer.contents = [] := by simp [contents, hempty]
    rw [← hcontents, this]
    rfl
  next hsome =>
    have hhead : buffer.contents.head? = some (buffer.entries buffer.oldestIndex) := by
      have hlt : buffer.oldestIndex < buffer.capacity := by
        rw [oldestIndex, h.write]
        split
        next => exact Nat.mod_lt _ h.capacity_pos
        next => exact h.capacity_pos
      rw [contents, List.head?_map, List.head?_range, if_neg hsome, Option.map_some, Nat.add_zero,
        Nat.mod_eq_of_lt hlt]
    rw [← hcontents, hhead]
    simp

/-! ## Complete replays

A transaction appends several events of one revision. The check of the oldest kept
revision does not notice when the first of them have been overwritten.
-/

def appendAll (buffer : EventHistoryBuffer) (log : List EventHistoryEntry) : EventHistoryBuffer :=
  log.foldl (fun buffer entry => buffer.append entry.revision entry.event) buffer

theorem Records.appendAll (h : buffer.Records log) (later : List EventHistoryEntry) :
    (buffer.appendAll later).Records (log ++ later) := by
  induction later generalizing buffer log with
  | nil => simpa [EventHistoryBuffer.appendAll] using h
  | cons entry rest ih =>
    rw [← singleton_append, ← append_assoc]
    exact ih (h.append entry.revision entry.event)

section

variable (capacity : Nat) (log : List EventHistoryEntry) (startRevision : Int)

/-- The entries that a buffer has overwritten. -/
def overwritten : List EventHistoryEntry := log.take (log.length - capacity)

/-- A replay that is not refused gives all events from the revision on. -/
structure ReplaysAll : Prop where
  exact : ∀ events, ((new capacity).appendAll log).eventsFromRevision startRevision = some events →
    events = (log.filter (fun entry => startRevision ≤ entry.revision)).map EventHistoryEntry.event
  kept : ((new capacity).appendAll log).eventsFromRevision startRevision ≠ none →
    ∀ lost ∈ overwritten capacity log, lost.revision < startRevision

/-- The start revision is that of the oldest kept event and of an overwritten one. -/
def SplitsStart : Prop :=
  ∃ lost ∈ overwritten capacity log, ∃ oldest ∈ log[log.length - capacity]?,
    lost.revision = startRevision ∧ oldest.revision = startRevision

end

theorem capacity_appendAll (log : List EventHistoryEntry) :
    (buffer.appendAll log).capacity = buffer.capacity := by
  induction log generalizing buffer with
  | nil => rfl
  | cons entry rest ih => exact ih

/-- Replays are exact unless the oldest kept event has lost events of its own transaction
and the replay starts at their revision. -/
theorem replaysAll_iff {capacity : Nat} (hcapacity : 0 < capacity) {log : List EventHistoryEntry}
    (hordered : log.Pairwise (fun earlier later => earlier.revision ≤ later.revision))
    (startRevision : Int) :
    ReplaysAll capacity log startRevision ↔ ¬ SplitsStart capacity log startRevision := by
  have hreplay := ((records_new hcapacity).appendAll log).eventsFromRevision_eq startRevision
  rw [capacity_appendAll, head?_drop] at hreplay
  change _ = if (log[log.length - capacity]?).any _ then _ else _ at hreplay
  have hlost : ∀ lost ∈ overwritten capacity log, ∀ oldest ∈ log[log.length - capacity]?,
      lost.revision ≤ oldest.revision := by
    intro lost hmem oldest holdest
    rw [← take_append_drop (log.length - capacity) log, pairwise_append] at hordered
    refine hordered.2.2 lost hmem oldest (mem_of_mem_head? ?_)
    rwa [head?_drop]
  constructor
  · rintro ⟨-, hkept⟩ ⟨lost, hmem, oldest, holdest, hrevision, hstart⟩
    have hserved : ((new capacity).appendAll log).eventsFromRevision startRevision ≠ none := by
      rw [hreplay, Option.mem_def.mp holdest, Option.any_some, hstart]
      simp
    exact absurd (hkept hserved lost hmem) (by omega)
  · intro hwhole
    have hkept : ((new capacity).appendAll log).eventsFromRevision startRevision ≠ none →
        ∀ lost ∈ overwritten capacity log, lost.revision < startRevision := by
      intro hserved lost hmem
      have hshort : log.length - capacity < log.length := by
        have := length_pos_of_mem (mem_of_mem_take hmem)
        omega
      have holdest := getElem?_eq_getElem hshort
      rw [hreplay, holdest] at hserved
      have hle := hlost lost hmem _ holdest
      have hstart : ¬ startRevision < log[log.length - capacity].revision := by
        intro hlt
        simp [hlt] at hserved
      by_contra hge
      exact hwhole ⟨lost, hmem, _, holdest, by omega, by omega⟩
    refine ⟨fun events hevents => ?_, hkept⟩
    have hnone : (overwritten capacity log).filter
        (fun entry => startRevision ≤ entry.revision) = [] := by
      rw [filter_eq_nil_iff]
      intro lost hmem
      have := hkept (by simp [hevents]) lost hmem
      simpa using this
    rw [hreplay] at hevents
    split at hevents
    · cases hevents
    · rw [← Option.some.inj hevents]
      conv_rhs => rw [← take_append_drop (log.length - capacity) log, filter_append]
      rw [show (log.take (log.length - capacity)).filter _ = [] from hnone]
      rfl

/-- Two events of one transaction. -/
def twoEvents : List EventHistoryEntry :=
  [⟨1, ⟨.put, ⟨Go.lit "a", [], 1, 1, 0⟩, none⟩⟩, ⟨1, ⟨.put, ⟨Go.lit "b", [], 1, 1, 0⟩, none⟩⟩]

theorem replaysAll_of_two : twoEvents.Pairwise (fun earlier later =>
      earlier.revision ≤ later.revision) ∧ ReplaysAll 2 twoEvents 1 :=
  ⟨by decide, (replaysAll_iff (by decide) (by decide) 1).mpr (by simp [SplitsStart, overwritten,
    twoEvents])⟩

/-- The second event overwrites the first, and a replay is served without it. -/
theorem overwritten_event_missing : ¬ ReplaysAll 1 twoEvents 1 := by
  intro h
  exact absurd (h.kept (by decide) _ mem_cons_self) (by decide)

end EventHistoryBuffer

end CCattler.Store
