import Mathlib.Logic.Function.Basic

/-! # Programs over a shared object, and rely-guarantee reasoning

Nodes run programs whose calls to a shared object interleave in any order. A program is
safe if each of its calls respects what every other node relies on.
-/

namespace Concurrency

/-- A sequential program over the calls of a shared object. -/
inductive Proc (Call : Type) (Reply : Call → Type) (Result : Type) : Type where
  | ret (result : Result)
  | call (request : Call) (next : Reply request → Proc Call Reply Result)

namespace Proc

variable {Call : Type} {Reply : Call → Type}

protected def bind {First Second : Type} :
    Proc Call Reply First → (First → Proc Call Reply Second) → Proc Call Reply Second
  | ret result, rest => rest result
  | call request next, rest => call request (fun reply => (next reply).bind rest)

instance : Monad (Proc Call Reply) where
  pure := ret
  bind := Proc.bind

/-- Make one call and return its reply. -/
@[reducible] def request (request : Call) : Proc Call Reply (Reply request) := call request ret

end Proc

/-- What the nodes of a system share and what they can run, with the changes from outside. -/
structure Machine (Node Call : Type) (Reply : Call → Type)
    (Fault Shared Entry Outside Memory Result : Type) where
  perform : Node → Fault → (request : Call) → Shared → Reply request × Shared
  enter : Node → Entry → Memory → Proc Call Reply Result
  leave : Result → Memory
  disturb : Outside → Shared → Shared

/-- What a node is doing. -/
inductive Thread (Call : Type) (Reply : Call → Type) (Memory Result : Type) : Type where
  | idle (memory : Memory)
  | running (program : Proc Call Reply Result)

structure World (Node Call : Type) (Reply : Call → Type) (Shared Memory Result : Type) where
  shared : Shared
  threads : Node → Thread Call Reply Memory Result

inductive Action (Node Fault Entry Outside : Type) where
  | disturb (change : Outside)
  | enter (node : Node) (entry : Entry)
  | run (node : Node) (fault : Fault)

variable {Node Call Fault Shared Entry Outside Memory Result : Type} {Reply : Call → Type}

/-- A step makes no call outside the allowed ones. -/
def Allows (allowed : Node → Call → Shared → Prop)
    (world : World Node Call Reply Shared Memory Result) :
    Action Node Fault Entry Outside → Prop
  | .run node _ =>
    ∀ request next, world.threads node = .running (.call request next) →
      allowed node request world.shared
  | _ => True

section

variable {allowed : Node → Call → Shared → Prop}
  {world : World Node Call Reply Shared Memory Result} {node : Node}

theorem allows_run {request : Call} {next : Reply request → Proc Call Reply Result}
    (hcall : world.threads node = .running (.call request next))
    (h : allowed node request world.shared) (fault : Fault) :
    Allows allowed world (.run node fault : Action Node Fault Entry Outside) := by
  intro _ _ hother
  rw [hcall] at hother
  cases hother
  exact h

theorem allows_return {result : Result} (hreturn : world.threads node = .running (.ret result))
    (fault : Fault) : Allows allowed world (.run node fault : Action Node Fault Entry Outside) := by
  intro _ _ hother
  rw [hreturn] at hother
  cases hother

end

section Semantics

variable [DecidableEq Node]

section

variable (machine : Machine Node Call Reply Fault Shared Entry Outside Memory Result)
  (world : World Node Call Reply Shared Memory Result)

/-- A node starts a program only when idle; a finished one returns in a step of its own. -/
def Machine.step : Action Node Fault Entry Outside → World Node Call Reply Shared Memory Result
  | .disturb change => { world with shared := machine.disturb change world.shared }
  | .enter node entry =>
    match world.threads node with
    | .idle memory =>
      { world with
        threads := Function.update world.threads node (.running (machine.enter node entry memory)) }
    | .running _ => world
  | .run node fault =>
    match world.threads node with
    | .idle _ => world
    | .running (.ret result) =>
      { world with
        threads := Function.update world.threads node (.idle (machine.leave result)) }
    | .running (.call request next) =>
      let performed := machine.perform node fault request world.shared
      { shared := performed.2
        threads := Function.update world.threads node (.running (next performed.1)) }

def Machine.run (actions : List (Action Node Fault Entry Outside)) :
    World Node Call Reply Shared Memory Result :=
  actions.foldl machine.step world

end

/-- Every step of a run is allowed in the state it is taken in. -/
def Machine.AllowsAll (machine : Machine Node Call Reply Fault Shared Entry Outside Memory Result)
    (allowed : Node → Call → Shared → Prop) :
    World Node Call Reply Shared Memory Result → List (Action Node Fault Entry Outside) → Prop
  | _, [] => True
  | world, action :: rest =>
    Allows allowed world action ∧ machine.AllowsAll allowed (machine.step world action) rest

end Semantics

/-- What each node relies on between its own steps, and which calls are taken
to happen at all. -/
structure Discipline (Node Call Shared : Type) where
  rely : Node → Shared → Shared → Prop
  allowed : Node → Call → Shared → Prop
  rely_refl : ∀ node shared, rely node shared shared
  rely_trans : ∀ {node first second third}, rely node first second → rely node second third →
    rely node first third

section Safety

variable (machine : Machine Node Call Reply Fault Shared Entry Outside Memory Result)
  (discipline : Discipline Node Call Shared)

/-- A call of the node keeps what every other node relies on. -/
def Guarantees (node : Node) (before after : Shared) : Prop :=
  ∀ other, other ≠ node → discipline.rely other before after

/-- Whatever the others do, every call keeps what they rely on. -/
def Safe (node : Node) {Answer : Type} :
    Proc Call Reply Answer → (Answer → Shared → Prop) → Shared → Prop
  | .ret result, post, shared => ∀ later, discipline.rely node shared later → post result later
  | .call request next, post, shared =>
    ∀ later, discipline.rely node shared later → discipline.allowed node request later → ∀ fault,
        Guarantees discipline node later (machine.perform node fault request later).2 ∧
          Safe node (next (machine.perform node fault request later).1) post
            (machine.perform node fault request later).2

variable {machine discipline} {node : Node} {Answer : Type} {shared : Shared}
  {program : Proc Call Reply Answer}

variable {post : Answer → Shared → Prop}

theorem Safe.stable {later : Shared} (h : Safe machine discipline node program post shared)
    (hrely : discipline.rely node shared later) :
    Safe machine discipline node program post later := by
  cases program <;> exact fun last hlast => h last (discipline.rely_trans hrely hlast)

theorem Safe.imp {weaker : Answer → Shared → Prop}
    (h : Safe machine discipline node program post shared)
    (himp : ∀ result state, post result state → weaker result state) :
    Safe machine discipline node program weaker shared := by
  induction program generalizing shared with
  | ret result => exact fun later hlater => himp result later (h later hlater)
  | call request next ih =>
    intro later hlater hallowed fault
    obtain ⟨hguarantee, hnext⟩ := h later hlater hallowed fault
    exact ⟨hguarantee, ih _ hnext⟩

theorem safe_pure {result : Answer}
    (h : ∀ later, discipline.rely node shared later → post result later) :
    Safe machine discipline node (pure result) post shared := h

/-- The rule of sequencing: the first program establishes what the second needs. -/
theorem Safe.bind {Second : Type} {first : Proc Call Reply Answer}
    {rest : Answer → Proc Call Reply Second} {post : Second → Shared → Prop}
    (h : Safe machine discipline node first
      (fun result => Safe machine discipline node (rest result) post) shared) :
    Safe machine discipline node (first >>= rest) post shared := by
  induction first generalizing shared with
  | ret result => exact h shared (discipline.rely_refl node shared)
  | call request next ih =>
    intro later hlater hallowed fault
    obtain ⟨hguarantee, hnext⟩ := h later hlater hallowed fault
    exact ⟨hguarantee, ih _ hnext⟩

/-- The rule for a single call. -/
theorem safe_request {request : Call} {post : Reply request → Shared → Prop}
    (h : ∀ later, discipline.rely node shared later → discipline.allowed node request later →
      ∀ fault, Guarantees discipline node later (machine.perform node fault request later).2 ∧
          ∀ last, discipline.rely node (machine.perform node fault request later).2 last →
            post (machine.perform node fault request later).1 last) :
    Safe machine discipline node (Proc.request request) post shared := h

end Safety

section Runs

variable {machine : Machine Node Call Reply Fault Shared Entry Outside Memory Result}
  {discipline : Discipline Node Call Shared}
  {resting : Node → Memory → Shared → Prop} {post : Node → Result → Shared → Prop}

section

variable (machine : Machine Node Call Reply Fault Shared Entry Outside Memory Result)
  (discipline : Discipline Node Call Shared) (resting : Node → Memory → Shared → Prop)
  (post : Node → Result → Shared → Prop)

/-- An idle node's memory is as it should be, or its running program is safe
from here on. -/
def ThreadSound (node : Node) (thread : Thread Call Reply Memory Result) (shared : Shared) : Prop :=
  match thread with
  | .idle memory => resting node memory shared
  | .running program => Safe machine discipline node program (post node) shared

def Sound (world : World Node Call Reply Shared Memory Result) : Prop :=
  ∀ node, ThreadSound machine discipline resting post node (world.threads node) world.shared

end

/-- The obligations of a rely-guarantee proof. -/
structure Obligations (machine : Machine Node Call Reply Fault Shared Entry Outside Memory Result)
    (discipline : Discipline Node Call Shared) (resting : Node → Memory → Shared → Prop)
    (post : Node → Result → Shared → Prop) : Prop where
  stable : ∀ {node memory shared later}, resting node memory shared →
    discipline.rely node shared later → resting node memory later
  disturb : ∀ node change shared, discipline.rely node shared (machine.disturb change shared)
  enter : ∀ {node memory shared} entry, resting node memory shared →
    Safe machine discipline node (machine.enter node entry memory) (post node) shared
  leave : ∀ {node result shared}, post node result shared →
    resting node (machine.leave result) shared

variable {thread : Thread Call Reply Memory Result}

/-- A sound thread stays sound while others move. -/
theorem ThreadSound.stable (hobligations : Obligations machine discipline resting post)
    {node : Node} {shared later : Shared}
    (h : ThreadSound machine discipline resting post node thread shared)
    (hrely : discipline.rely node shared later) :
    ThreadSound machine discipline resting post node thread later := by
  cases thread with
  | idle memory => exact hobligations.stable h hrely
  | running program => exact Safe.stable h hrely

variable [DecidableEq Node] {world : World Node Call Reply Shared Memory Result}

variable (hobligations : Obligations machine discipline resting post)
  (h : Sound machine discipline resting post world)
include hobligations h

/-- A step within its guarantee keeps the world sound. -/
theorem Sound.update {node : Node} {shared : Shared}
    (hthread : ThreadSound machine discipline resting post node thread shared)
    (hguarantee : Guarantees discipline node world.shared shared) :
    Sound machine discipline resting post ⟨shared, Function.update world.threads node thread⟩ := by
  intro other
  by_cases heq : other = node
  · subst heq
    simpa using hthread
  · simpa [heq] using (h other).stable hobligations (hguarantee other heq)

theorem Sound.step {action : Action Node Fault Entry Outside}
    (hallowed : Allows discipline.allowed world action) :
    Sound machine discipline resting post (machine.step world action) := by
  have hsame : ∀ node, Guarantees discipline node world.shared world.shared :=
    fun _ other _ => discipline.rely_refl other world.shared
  cases action with
  | disturb change =>
    intro node
    exact (h node).stable hobligations (hobligations.disturb node change world.shared)
  | enter node entry =>
    have hnode := h node
    simp only [Machine.step]
    split
    next _ hidle =>
      rw [hidle] at hnode
      exact h.update hobligations (hobligations.enter entry hnode) (hsame node)
    next => exact h
  | run node fault =>
    have hnode := h node
    simp only [Machine.step]
    split
    next => exact h
    next _ hdone =>
      rw [hdone] at hnode
      refine h.update hobligations ?_ (hsame node)
      exact hobligations.leave (hnode _ (discipline.rely_refl _ _))
    next request next hcall =>
      rw [hcall] at hnode
      -- the call keeps what the others rely on and moves this thread on
      obtain ⟨hguarantee, hnext⟩ := hnode _ (discipline.rely_refl _ _)
        (hallowed request next hcall) fault
      exact h.update hobligations hnext hguarantee

theorem Sound.run {actions : List (Action Node Fault Entry Outside)}
    (hallowed : machine.AllowsAll discipline.allowed world actions) :
    Sound machine discipline resting post (machine.run world actions) := by
  induction actions generalizing world with
  | nil => exact h
  | cons action rest ih => exact ih (h.step hobligations hallowed.1) hallowed.2

end Runs

end Concurrency
