import CCattler.Concurrency.RelyGuarantee

/-! # Histories of runs over a shared object

A rule says when a node may make a call, given the calls it made before. A program that
follows the rule, however the shared object grows, makes every history obey it.
-/

namespace Concurrency

open List

/-- A call that was performed, with the state it met. -/
structure Performed (Node Call Fault Shared : Type) where
  node : Node
  fault : Fault
  request : Call
  before : Shared

variable {Node Call Fault Shared Entry Outside Memory Result : Type} {Reply : Call → Type}
  {world : World Node Call Reply Shared Memory Result} {entry : Performed Node Call Fault Shared}
  {action : Action Node Fault Entry Outside} {actions : List (Action Node Fault Entry Outside)}

/-- The state a performed call left. -/
def Performed.after (entry : Performed Node Call Fault Shared)
    (machine : Machine Node Call Reply Fault Shared Entry Outside Memory Result) : Shared :=
  (machine.perform entry.node entry.fault entry.request entry.before).2

/-- The call that a step performs, if it performs one. -/
def World.performs (world : World Node Call Reply Shared Memory Result) :
    Action Node Fault Entry Outside → Option (Performed Node Call Fault Shared)
  | .run node fault =>
    match world.threads node with
    | .running (.call request _) => some ⟨node, fault, request, world.shared⟩
    | _ => none
  | _ => none

theorem before_of_performs
    (h : world.performs action = some entry) : entry.before = world.shared := by
  unfold World.performs at h
  split at h
  · split at h
    · cases h
      rfl
    · cases h
  · cases h

section Histories

variable [DecidableEq Node]

def Machine.history (machine : Machine Node Call Reply Fault Shared Entry Outside Memory Result) :
    World Node Call Reply Shared Memory Result → List (Action Node Fault Entry Outside) →
      List (Performed Node Call Fault Shared)
  | _, [] => []
  | world, action :: rest =>
    (world.performs action).toList ++ machine.history (machine.step world action) rest

/-- The calls of one node. -/
def ownCalls (node : Node) (history : List (Performed Node Call Fault Shared)) :
    List (Performed Node Call Fault Shared) :=
  history.filter (fun entry => decide (entry.node = node))

@[simp] theorem ownCalls_append (node : Node)
    (first second : List (Performed Node Call Fault Shared)) :
    ownCalls node (first ++ second) = ownCalls node first ++ ownCalls node second :=
  filter_append ..

theorem mem_of_mem_ownCalls {node : Node}
    {history : List (Performed Node Call Fault Shared)} (h : entry ∈ ownCalls node history) :
    entry ∈ history ∧ entry.node = node := by
  simpa [ownCalls] using h

end Histories

open Machine (history)

/-- A relation that holds across everything that can happen to the shared object. -/
structure Growth (machine : Machine Node Call Reply Fault Shared Entry Outside Memory Result)
    (grows : Shared → Shared → Prop) : Prop where
  refl : ∀ shared, grows shared shared
  trans : ∀ {first second third}, grows first second → grows second third → grows first third
  perform : ∀ node fault request shared, grows shared (machine.perform node fault request shared).2
  disturb : ∀ change shared, grows shared (machine.disturb change shared)

section Growth

variable {machine : Machine Node Call Reply Fault Shared Entry Outside Memory Result}
  {grows : Shared → Shared → Prop} [DecidableEq Node]

theorem Growth.step (h : Growth machine grows) (world : World Node Call Reply Shared Memory Result)
    (action : Action Node Fault Entry Outside) :
    grows world.shared (machine.step world action).shared := by
  cases action with
  | disturb change => exact h.disturb change world.shared
  | enter node entry =>
    simp only [Machine.step]
    split
    all_goals exact h.refl _
  | run node fault =>
    simp only [Machine.step]
    split
    · exact h.refl _
    · exact h.refl _
    · exact h.perform node fault _ world.shared

/-- Every call of a history meets a state that grew from the one before the run. -/
theorem Growth.before (h : Growth machine grows)
    (hentry : entry ∈ machine.history world actions) : grows world.shared entry.before := by
  induction actions generalizing world with
  | nil => simp [history] at hentry
  | cons action rest ih =>
    rw [history, mem_append, Option.mem_toList] at hentry
    rcases hentry with hnow | hlater
    · rw [before_of_performs hnow]
      exact h.refl _
    · exact h.trans (h.step world action) (ih hlater)

theorem step_shared_of_performs
    (machine : Machine Node Call Reply Fault Shared Entry Outside Memory Result)
    (h : world.performs action = some entry) :
    (machine.step world action).shared = entry.after machine := by
  cases action with
  | disturb change => cases h
  | enter node entered => cases h
  | run node fault =>
    simp only [World.performs] at h
    split at h
    next _ next hcall =>
      cases h
      simp only [Machine.step, hcall, Performed.after]
    next => cases h

/-- The states along a history grow. -/
theorem Growth.history_pairwise (h : Growth machine grows)
    (world : World Node Call Reply Shared Memory Result)
    (actions : List (Action Node Fault Entry Outside)) :
    (machine.history world actions).Pairwise
      (fun first second => grows (first.after machine) second.before) := by
  induction actions generalizing world with
  | nil => exact List.Pairwise.nil
  | cons action rest ih =>
    rw [history]
    cases hperforms : world.performs action with
    | none => exact ih _
    | some entry =>
      refine pairwise_cons.mpr ⟨?_, ih _⟩
      intro _ hlater
      rw [← step_shared_of_performs machine hperforms]
      exact h.before hlater

end Growth

/-! ## Parts of a history -/

section Parts

variable {machine : Machine Node Call Reply Fault Shared Entry Outside Memory Result}
  [DecidableEq Node]

/-- What follows a call in a history is the history of a run from the state that
the call left. -/
theorem history_after {earlier rest : List (Performed Node Call Fault Shared)}
    (h : machine.history world actions = earlier ++ entry :: rest) :
    ∃ (next : World Node Call Reply Shared Memory Result)
      (others : List (Action Node Fault Entry Outside)),
      next.shared = entry.after machine ∧ machine.history next others = rest := by
  induction actions generalizing world earlier with
  | nil => simp [history] at h
  | cons action others ih =>
    rw [history] at h
    cases hperforms : world.performs action with
    | none =>
      rw [hperforms] at h
      exact ih h
    | some first =>
      rw [hperforms] at h
      cases earlier with
      | nil =>
        obtain ⟨rfl, hrest⟩ := List.cons.inj h
        exact ⟨_, others, step_shared_of_performs machine hperforms, hrest⟩
      | cons head tail => exact ih (List.cons.inj h).2

variable {holds : Shared → Prop}
  (hdisturb : ∀ change shared, holds shared → holds (machine.disturb change shared))
include hdisturb

theorem holds_step_of_silent (hsilent : world.performs action = none) (h : holds world.shared) :
    holds (machine.step world action).shared := by
  cases action with
  | disturb change => exact hdisturb change world.shared h
  | enter node entered =>
    simp only [Machine.step]
    split
    all_goals exact h
  | run node fault =>
    simp only [World.performs] at hsilent
    split at hsilent
    next => cases hsilent
    next hnone =>
      simp only [Machine.step]
      split
      next => exact h
      next => exact h
      next hcall => exact absurd hcall (hnone _ _)

theorem exists_ended {earlier later : List (Performed Node Call Fault Shared)}
    (hsplit : machine.history world actions = earlier ++ entry :: later)
    (hstart : holds world.shared) (hend : ¬ holds entry.before) :
    ∃ ended ∈ earlier, holds ended.before ∧ ¬ holds (ended.after machine) := by
  induction actions generalizing world earlier with
  | nil => simp [history] at hsplit
  | cons action others ih =>
    rw [history] at hsplit
    cases hperforms : world.performs action with
    | none =>
      rw [hperforms] at hsplit
      exact ih hsplit (holds_step_of_silent hdisturb hperforms hstart)
    | some first =>
      rw [hperforms] at hsplit
      have hbefore := before_of_performs hperforms
      cases earlier with
      | nil =>
        obtain ⟨rfl, -⟩ := List.cons.inj hsplit
        exact absurd (hbefore ▸ hstart) hend
      | cons head tail =>
        obtain ⟨rfl, htail⟩ := List.cons.inj hsplit
        by_cases hafter : holds (first.after machine)
        · rw [← step_shared_of_performs machine hperforms] at hafter
          obtain ⟨ended, hmem, hended⟩ := ih htail hafter
          exact ⟨ended, mem_cons_of_mem _ hmem, hended⟩
        · exact ⟨first, mem_cons_self, hbefore ▸ hstart, hafter⟩

end Parts

/-! ## Programs that follow a rule -/

section Rules

variable (machine : Machine Node Call Reply Fault Shared Entry Outside Memory Result)
  (grows : Shared → Shared → Prop)
  (rule : Node → List (Performed Node Call Fault Shared) → Call → Shared → Prop)

/-- Every call is allowed by the rule, however the object grows in between. -/
def Follows (node : Node) {Answer : Type} :
    Proc Call Reply Answer → (List (Performed Node Call Fault Shared) → Answer → Shared → Prop) →
      List (Performed Node Call Fault Shared) → Shared → Prop
  | .ret result, post, own, shared => ∀ later, grows shared later → post own result later
  | .call request next, post, own, shared =>
    ∀ later, grows shared later → ∀ fault, rule node own request later ∧
        Follows node (next (machine.perform node fault request later).1) post
          (own ++ [⟨node, fault, request, later⟩])
          (machine.perform node fault request later).2

variable {machine grows rule} {node : Node} {Answer : Type}
  {own : List (Performed Node Call Fault Shared)} {shared : Shared}
  {program : Proc Call Reply Answer}

/-- Following the rule is stable under growth. -/
theorem Follows.stable (hgrowth : Growth machine grows)
    {post : List (Performed Node Call Fault Shared) → Answer → Shared → Prop} {later : Shared}
    (h : Follows machine grows rule node program post own shared) (hgrows : grows shared later) :
    Follows machine grows rule node program post own later := by
  cases program <;> exact fun last hlast => h last (hgrowth.trans hgrows hlast)

theorem Follows.imp {post weaker : List (Performed Node Call Fault Shared) → Answer → Shared → Prop}
    (h : Follows machine grows rule node program post own shared)
    (himp : ∀ own result state, post own result state → weaker own result state) :
    Follows machine grows rule node program weaker own shared := by
  induction program generalizing own shared with
  | ret result => exact fun later hlater => himp own result later (h later hlater)
  | call request next ih =>
    intro later hlater fault
    obtain ⟨hallowed, hnext⟩ := h later hlater fault
    exact ⟨hallowed, ih _ hnext⟩

theorem follows_pure {result : Answer}
    {post : List (Performed Node Call Fault Shared) → Answer → Shared → Prop}
    (h : ∀ later, grows shared later → post own result later) :
    Follows machine grows rule node (pure result) post own shared := h

/-- The sequencing rule. -/
theorem Follows.bind (hgrowth : Growth machine grows) {Second : Type}
    {first : Proc Call Reply Answer} {rest : Answer → Proc Call Reply Second}
    {post : List (Performed Node Call Fault Shared) → Second → Shared → Prop}
    (h : Follows machine grows rule node first
      (fun own result => Follows machine grows rule node (rest result) post own) own shared) :
    Follows machine grows rule node (first >>= rest) post own shared := by
  induction first generalizing own shared with
  | ret result => exact h shared (hgrowth.refl shared)
  | call request next ih =>
    intro later hlater fault
    obtain ⟨hallowed, hnext⟩ := h later hlater fault
    exact ⟨hallowed, ih _ hnext⟩

/-- The rule for a single call. -/
theorem follows_request {request : Call}
    {post : List (Performed Node Call Fault Shared) → Reply request → Shared → Prop}
    (h : ∀ later, grows shared later → ∀ fault, rule node own request later ∧
        ∀ last, grows (machine.perform node fault request later).2 last →
          post (own ++ [⟨node, fault, request, later⟩])
            (machine.perform node fault request later).1 last) :
    Follows machine grows rule node (Proc.request request) post own shared := h

end Rules

/-! ## Runs -/

section Runs

variable (machine : Machine Node Call Reply Fault Shared Entry Outside Memory Result)
  (grows : Shared → Shared → Prop)
  (rule : Node → List (Performed Node Call Fault Shared) → Call → Shared → Prop)
  (resting : Node → List (Performed Node Call Fault Shared) → Memory → Prop)
  (post : Node → List (Performed Node Call Fault Shared) → Result → Shared → Prop)

/-- What has to be shown of the programs of a machine. -/
structure RuleObligations : Prop where
  growth : Growth machine grows
  enter : ∀ {node own memory} shared entry, resting node own memory →
    Follows machine grows rule node (machine.enter node entry memory) (post node) own shared
  leave : ∀ {node own result shared}, post node own result shared →
    resting node own (machine.leave result)

/-- An idle node rests, and a running one follows the rule from here on. -/
def ThreadFollows (node : Node) (own : List (Performed Node Call Fault Shared))
    (thread : Thread Call Reply Memory Result) (shared : Shared) : Prop :=
  match thread with
  | .idle memory => resting node own memory
  | .running program => Follows machine grows rule node program (post node) own shared

variable {machine grows rule resting post} in
theorem ThreadFollows.stable (hgrowth : Growth machine grows) {node : Node}
    {own : List (Performed Node Call Fault Shared)} {thread : Thread Call Reply Memory Result}
    {shared later : Shared}
    (h : ThreadFollows machine grows rule resting post node own thread shared)
    (hgrows : grows shared later) :
    ThreadFollows machine grows rule resting post node own thread later := by
  cases thread with
  | idle memory => exact h
  | running program => exact Follows.stable hgrowth h hgrows

variable [DecidableEq Node]

def WorldFollows (world : World Node Call Reply Shared Memory Result)
    (past : List (Performed Node Call Fault Shared)) : Prop :=
  ∀ node, ThreadFollows machine grows rule resting post node (ownCalls node past)
    (world.threads node) world.shared

/-- Every call of a history is allowed by the rule after the calls before it. -/
def Obeys (past history : List (Performed Node Call Fault Shared)) : Prop :=
  ∀ earlier entry later, history = earlier ++ entry :: later →
    rule entry.node (ownCalls entry.node (past ++ earlier)) entry.request entry.before

variable {machine grows rule resting post}

theorem WorldFollows.update (hgrowth : Growth machine grows)
    {past more : List (Performed Node Call Fault Shared)}
    (h : WorldFollows machine grows rule resting post world past) {node : Node}
    {thread : Thread Call Reply Memory Result} {shared : Shared}
    (hgrows : grows world.shared shared) (hmore : ∀ entry ∈ more, entry.node = node)
    (hthread : ThreadFollows machine grows rule resting post node (ownCalls node (past ++ more))
      thread shared) :
    WorldFollows machine grows rule resting post
      ⟨shared, Function.update world.threads node thread⟩ (past ++ more) := by
  intro other
  by_cases heq : other = node
  · subst heq
    simpa using hthread
  · have hnone : ownCalls other more = [] := by
      rw [ownCalls, filter_eq_nil_iff]
      intro entry hentry
      simpa [hmore entry hentry] using Ne.symm heq
    simpa [heq, hnone] using (h other).stable hgrowth hgrows

variable (hobligations : RuleObligations machine grows rule resting post)
  {past : List (Performed Node Call Fault Shared)}
  (h : WorldFollows machine grows rule resting post world past)
include hobligations h

/-- One action obeys the rule and keeps the world in order. -/
theorem WorldFollows.step (action : Action Node Fault Entry Outside) :
    (∀ entry, world.performs action = some entry →
        rule entry.node (ownCalls entry.node past) entry.request entry.before) ∧
      WorldFollows machine grows rule resting post (machine.step world action)
        (past ++ (world.performs action).toList) := by
  have hgrowth := hobligations.growth
  -- a step that performs no call leaves the history as it is
  have hsilent : ∀ {node : Node} {thread : Thread Call Reply Memory Result},
      ThreadFollows machine grows rule resting post node (ownCalls node past) thread world.shared →
      WorldFollows machine grows rule resting post
        ⟨world.shared, Function.update world.threads node thread⟩ (past ++ []) :=
    fun hthread => h.update hgrowth (hgrowth.refl _) (by simp) (by simpa using hthread)
  cases action with
  | disturb change =>
    refine ⟨by simp [World.performs], fun node => ?_⟩
    simpa [World.performs, Machine.step] using
      (h node).stable hgrowth (hgrowth.disturb change world.shared)
  | enter node entered =>
    have hnode := h node
    refine ⟨by simp [World.performs], ?_⟩
    simp only [World.performs, Machine.step]
    split
    next memory hidle =>
      rw [hidle] at hnode
      exact hsilent (hobligations.enter world.shared entered hnode)
    next => simpa using h
  | run node fault =>
    have hnode := h node
    simp only [World.performs, Machine.step]
    rcases hthread : world.threads node with memory | result | ⟨request, next⟩
    · exact ⟨by simp, by simpa using h⟩
    · rw [hthread] at hnode
      exact ⟨by simp, hsilent (hobligations.leave (hnode world.shared (hgrowth.refl _)))⟩
    · rw [hthread] at hnode
      obtain ⟨hallowed, hnext⟩ := hnode world.shared (hgrowth.refl _) fault
      refine ⟨?_, h.update hgrowth (hgrowth.perform node fault request world.shared) (by simp) ?_⟩
      · rintro entry ⟨⟩
        exact hallowed
      · simpa [ownCalls, ThreadFollows] using hnext

/-- Along a run every call obeys the rule. -/
theorem WorldFollows.run (actions : List (Action Node Fault Entry Outside)) :
    Obeys rule past (machine.history world actions) ∧
      WorldFollows machine grows rule resting post (machine.run world actions)
        (past ++ machine.history world actions) := by
  induction actions generalizing world past with
  | nil =>
    refine ⟨fun earlier entry later hsplit => ?_, ?_⟩
    · simp [history] at hsplit
    · simpa [history, Machine.run] using h
  | cons action rest ih =>
    obtain ⟨hallowed, hstep⟩ := h.step hobligations action
    obtain ⟨hobeys, hend⟩ := ih hstep
    refine ⟨?_, by simpa [history, Machine.run] using hend⟩
    intro earlier entry later hsplit
    rw [history] at hsplit
    cases hperforms : world.performs action with
    | none =>
      rw [hperforms] at hsplit hobeys
      simpa using hobeys earlier entry later (by simpa using hsplit)
    | some first =>
      rw [hperforms] at hsplit hobeys
      cases earlier with
      | nil =>
        -- the entry is the call of this very step
        obtain ⟨rfl, -⟩ := List.cons.inj hsplit
        simpa using hallowed first hperforms
      | cons head tail =>
        obtain ⟨rfl, htail⟩ := List.cons.inj hsplit
        simpa using hobeys tail entry later htail

end Runs

end Concurrency
