import Mathlib.Data.List.Basic

/-! # Channels with a single consumer

A channel keeps what its consumer has taken. A consumer may be parked in a receive, and
a goroutine in a blocking send once the buffer is full.
-/

namespace Go

universe u

/-- A channel of the given buffer capacity, with its delivery history. -/
structure Channel (α : Type u) where
  capacity : Nat
  buffered : List α
  /-- Values of goroutines parked in a blocking send, oldest first. -/
  blocked : List α
  /-- The consumer is parked in a receive. -/
  waiting : Bool
  received : List α
  closed : Bool
  waiting_empty : waiting = true → buffered = [] ∧ blocked = []
  blocked_full : blocked ≠ [] → capacity ≤ buffered.length

namespace Channel

variable {α : Type u}

/-- `make(chan T, capacity)`. -/
def make (capacity : Nat) : Channel α where
  capacity := capacity
  buffered := []
  blocked := []
  waiting := false
  received := []
  closed := false
  waiting_empty := by simp
  blocked_full := by simp

section

variable (c : Channel α)

/-- Everything sent, oldest first: taken, buffered, or held by a parked sender. -/
def handed : List α := c.received ++ c.buffered ++ c.blocked

/-- `select { case c <- value: default: }`, with whether the send happened. -/
def trySend (value : α) : Channel α × Bool :=
  if hwaiting : c.waiting = true then
    ({ c with
        received := c.received ++ [value]
        waiting := false
        waiting_empty := by simp }, true)
  else if hroom : c.buffered.length < c.capacity then
    ({ c with
        buffered := c.buffered ++ [value]
        waiting_empty := fun h => absurd h hwaiting
        blocked_full := fun h => absurd (c.blocked_full h) (by omega) }, true)
  else (c, false)

/-- A blocking send by a goroutine of its own. -/
def send (value : α) : Channel α :=
  if hsent : (c.trySend value).2 = true then (c.trySend value).1
  else
    { c with
      blocked := c.blocked ++ [value]
      waiting_empty := fun h => absurd (by simp [trySend, h]) hsent
      blocked_full := by
        intro _
        by_contra hroom
        apply hsent
        unfold trySend
        split
        · rfl
        · rw [dif_pos (by omega)] }

/-- One receive by the consumer, which parks when there is nothing to take. -/
def receive : Channel α :=
  match hbuffered : c.buffered, hblocked : c.blocked with
  | value :: rest, [] =>
    { c with
      received := c.received ++ [value]
      buffered := rest
      waiting_empty := fun h => absurd (c.waiting_empty h).1 (by simp [hbuffered])
      blocked_full := fun h => absurd hblocked h }
  | value :: rest, parked :: others =>
    { c with
      received := c.received ++ [value]
      buffered := rest ++ [parked]
      blocked := others
      waiting_empty := fun h => absurd (c.waiting_empty h).1 (by simp [hbuffered])
      blocked_full := by
        intro _
        have hfull := c.blocked_full (by simp [hblocked])
        simp only [hbuffered, List.length_cons] at hfull
        simpa using hfull }
  | [], parked :: others =>
    { c with
      received := c.received ++ [parked]
      blocked := others
      waiting_empty := fun h => absurd (c.waiting_empty h).2 (by simp [hblocked])
      blocked_full := fun _ => c.blocked_full (by simp [hblocked]) }
  | [], [] =>
    if c.closed then c
    else
      { c with
        waiting := true
        waiting_empty := fun _ => ⟨hbuffered, hblocked⟩ }

/-- `close(c)`. -/
def close : Channel α := { c with closed := true }

end

@[simp] theorem handed_make (capacity : Nat) : (make capacity : Channel α).handed = [] := rfl

variable (c : Channel α)

@[simp] theorem handed_close : c.close.handed = c.handed := rfl

/-- A successful send appends to the delivery history, a failed one changes nothing. -/
theorem handed_trySend (value : α) : (c.trySend value).1.handed =
      if (c.trySend value).2 then c.handed ++ [value] else c.handed := by
  unfold trySend
  split
  next hwaiting =>
    obtain ⟨hbuffered, hblocked⟩ := c.waiting_empty hwaiting
    simp [handed, hbuffered, hblocked]
  next =>
    split
    next =>
      have hblocked : c.blocked = [] := by
        by_contra h
        exact absurd (c.blocked_full h) (by omega)
      simp [handed, hblocked]
    next => simp

theorem trySend_capacity (value : α) : (c.trySend value).1.capacity = c.capacity := by
  unfold trySend
  split
  · rfl
  · split <;> rfl

/-- A send with room is buffered. -/
theorem trySend_of_room {c : Channel α} (hwaiting : c.waiting = false)
    (hroom : c.buffered.length < c.capacity) (value : α) :
    (c.trySend value).2 = true ∧ (c.trySend value).1.waiting = false ∧
      (c.trySend value).1.buffered.length = c.buffered.length + 1 := by
  simp [trySend, hwaiting, hroom]

theorem handed_send (value : α) : (c.send value).handed = c.handed ++ [value] := by
  unfold send
  split
  next hsent => simp [handed_trySend, hsent]
  next => simp [handed]

@[simp] theorem handed_receive : c.receive.handed = c.handed := by
  unfold receive
  split
  next hbuffered hblocked => simp [handed, hbuffered, hblocked]
  next hbuffered hblocked => simp [handed, hbuffered, hblocked]
  next hbuffered hblocked => simp [handed, hbuffered, hblocked]
  next hbuffered hblocked =>
    split
    · rfl
    · rfl

end Channel

end Go
