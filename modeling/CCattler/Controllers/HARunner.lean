import CCattler.Controllers.Runner

/-! # Controllers under the highly available runner

The wrapper that records metrics forwards the three methods of `Controller` only, so
the type assertions for the optional methods fail on it.
-/

namespace CCattler.Controllers

open Go Store

variable {State : Type}

/-- `metricsWrappedController`: what the runner sees of a wrapped controller. -/
def metricsWrappedController (inner : Controller State) : Controller State where
  name := inner.name
  watch := inner.watch
  reconcile := inner.reconcile
  reconcileDelta := none
  executePostCommitOperations := none

/-- The store an attempt meets, the events since the last one, and the other writers. -/
structure Round where
  store : MemoryStore
  deltaEvents : List Event
  interference : Interference

/-- What an attempt commits. -/
def Attempt.committedChanges (attempt : Attempt State) : List Change :=
  if attempt.committed then attempt.submitted else []

/-- The changes committed and the post-commit executions of each attempt. -/
def Runner.runRounds (runner : Runner) (controller : Controller State) (state : State) :
    List Round → List (List Change × List State)
  | [] => []
  | round :: rest =>
    let attempt := runner.attemptSingleReconciliation controller state round.store
      round.deltaEvents round.interference
    (attempt.committedChanges, attempt.postCommit) :: runner.runRounds controller attempt.state rest

section

variable (runner : Runner) (controller : Controller State) (state : State) (round : Round)

/-- Nothing is to be changed, or what may be changed is committed. -/
def Runner.reachesPostCommit : Bool :=
  let scanned := scanFactsForController round.store controller.watch round.interference.beforeScan
  match scanned.2 with
  | .error _ => false
  | .ok facts =>
    let allFacts := round.interference.sortFacts.sort facts
    match (computeReconciliationChanges controller state allFacts round.deltaEvents).1 with
    | .error _ => false
    | .ok [] => true
    | .ok (first :: rest) =>
      match enforceWriteDomain controller.name (first :: rest) with
      | [] => false
      | allowed :: others =>
        match validateAndCapChanges controller.name (allowed :: others) with
        | .error _ => false
        | .ok changes =>
          let built := runner.buildReconciliationTransaction controller.name changes allFacts
          decide (((scanned.1.run round.interference.beforeCommit).transaction
            built.1 built.2 []).2 = .ok true)

/-- A round in which the optional methods play no part. -/
def Runner.Unaffected : Prop :=
  (controller.reconcileDelta = none ∨ round.deltaEvents = []) ∧
    (controller.executePostCommitOperations = none ∨
      runner.reachesPostCommit controller state round = false)

end

/-- Every round of a run is unaffected. -/
def Runner.AllUnaffected (runner : Runner) (controller : Controller State) (state : State) :
    List Round → Prop
  | [] => True
  | round :: rest =>
    runner.Unaffected controller state round ∧
      runner.AllUnaffected controller (runner.attemptSingleReconciliation controller state
        round.store round.deltaEvents round.interference).state rest

/-! ## One round -/

theorem compute_metricsWrapped {controller : Controller State} {deltaEvents : List Event}
    (h : controller.reconcileDelta = none ∨ deltaEvents = []) (state : State)
    (allFacts : List Fact) :
    computeReconciliationChanges (metricsWrappedController controller) state allFacts deltaEvents =
      computeReconciliationChanges controller state allFacts deltaEvents := by
  cases deltaEvents with
  | nil => rfl
  | cons event rest =>
    have hnone := h.resolve_right (by simp)
    simp only [computeReconciliationChanges, hnone, metricsWrappedController]

/-- An attempt on the wrapper is the attempt on the controller without its
post-commit operations. -/
theorem attempt_metricsWrapped (runner : Runner) {controller : Controller State} {round : Round}
    (h : controller.reconcileDelta = none ∨ round.deltaEvents = []) (state : State) :
    let bare := { controller with executePostCommitOperations := none }
    runner.attemptSingleReconciliation (metricsWrappedController controller) state round.store
        round.deltaEvents round.interference =
      runner.attemptSingleReconciliation bare state round.store round.deltaEvents
        round.interference := by
  intro bare
  have hcompute : ∀ allFacts, computeReconciliationChanges (metricsWrappedController controller)
      state allFacts round.deltaEvents =
      computeReconciliationChanges bare state allFacts round.deltaEvents := by
    intro allFacts
    rw [compute_metricsWrapped h]
    rfl
  unfold Runner.attemptSingleReconciliation
  simp only [hcompute]
  rfl

theorem attempt_bare (runner : Runner) (controller : Controller State) (state : State)
    (round : Round) :
    let bare := { controller with executePostCommitOperations := none }
    let attempt := runner.attemptSingleReconciliation controller state round.store
      round.deltaEvents round.interference
    let bareAttempt := runner.attemptSingleReconciliation bare state round.store
      round.deltaEvents round.interference
    (attempt.committedChanges = bareAttempt.committedChanges ∧ bareAttempt.postCommit = []) ∧
      (runner.reachesPostCommit controller state round = true → attempt.postCommit =
            (executePendingPostCommitOperations controller bareAttempt.state).2 ∧
          attempt.state = (executePendingPostCommitOperations controller bareAttempt.state).1) ∧
      (runner.reachesPostCommit controller state round = false →
        attempt.postCommit = [] ∧ attempt.state = bareAttempt.state) := by
  intro bare attempt bareAttempt
  have hcompute : ∀ allFacts, computeReconciliationChanges bare state allFacts round.deltaEvents =
      computeReconciliationChanges controller state allFacts round.deltaEvents := fun _ => rfl
  simp only [attempt, bareAttempt, Runner.attemptSingleReconciliation, Runner.reachesPostCommit,
    hcompute, show bare.watch = controller.watch from rfl]
  -- The two attempts and the predicate branch on the same values, so each case
  -- settles all three.
  cases (scanFactsForController round.store controller.watch round.interference.beforeScan).2 with
  | error error => simp
  | ok facts =>
    dsimp only
    cases (computeReconciliationChanges controller state
        (round.interference.sortFacts.sort facts) round.deltaEvents).1 with
    | error error => simp
    | ok proposed =>
      cases proposed with
      | nil => simp [Attempt.committedChanges, Runner.finishAttempt,
          executePendingPostCommitOperations, bare]
      | cons first rest =>
        dsimp only
        cases enforceWriteDomain controller.name (first :: rest) with
        | nil => simp
        | cons allowed others =>
          dsimp only
          cases validateAndCapChanges controller.name (allowed :: others) with
          | error error => simp
          | ok changes =>
            simp only [Runner.commitChanges, show bare.name = controller.name from rfl]
            split
            next _ _ herror => simp [herror]
            next _ hconflict => simp [hconflict]
            next _ hdone => simp [Attempt.committedChanges, hdone,
              Runner.finishAttempt, executePendingPostCommitOperations, bare]

section

variable {runner : Runner} {controller : Controller State} {state : State} {round : Round}

theorem attempt_metricsWrapped_of_unaffected (h : runner.Unaffected controller state round) :
    let wrapped := runner.attemptSingleReconciliation (metricsWrappedController controller) state
      round.store round.deltaEvents round.interference
    let attempt := runner.attemptSingleReconciliation controller state round.store
      round.deltaEvents round.interference
    wrapped.committedChanges = attempt.committedChanges ∧
      wrapped.postCommit = attempt.postCommit ∧ wrapped.state = attempt.state := by
  intro wrapped attempt
  obtain ⟨⟨hcommitted, hnone⟩, hreached, hmissed⟩ := attempt_bare runner controller state round
  have hwrapped := attempt_metricsWrapped runner h.1 state
  simp only [wrapped, hwrapped]
  refine ⟨hcommitted.symm, ?_⟩
  cases hreach : runner.reachesPostCommit controller state round with
  | false =>
    obtain ⟨hpostCommit, hstate⟩ := hmissed hreach
    exact ⟨hnone.trans hpostCommit.symm, hstate.symm⟩
  | true =>
    have hpost := h.2.resolve_right (by simp [hreach])
    obtain ⟨hpostCommit, hstate⟩ := hreached hreach
    simp only [executePendingPostCommitOperations, hpost] at hpostCommit hstate
    exact ⟨hnone.trans hpostCommit.symm, hstate.symm⟩

/-- Without a delta method, equal post-commit executions mean an unaffected
round. -/
theorem unaffected_of_postCommit_eq (hdelta : controller.reconcileDelta = none)
    (h : (runner.attemptSingleReconciliation (metricsWrappedController controller) state
        round.store round.deltaEvents round.interference).postCommit =
      (runner.attemptSingleReconciliation controller state round.store round.deltaEvents
        round.interference).postCommit) : runner.Unaffected controller state round := by
  obtain ⟨⟨-, hnone⟩, hreached, -⟩ := attempt_bare runner controller state round
  refine ⟨Or.inl hdelta, ?_⟩
  rw [attempt_metricsWrapped runner (Or.inl hdelta), hnone] at h
  by_cases hreach : runner.reachesPostCommit controller state round = true
  · left
    have hpostCommit := h.trans (hreached hreach).1
    cases hpost : controller.executePostCommitOperations with
    | none => rfl
    | some execute => simp [executePendingPostCommitOperations, hpost] at hpostCommit
  · right
    simpa using hreach

end

/-! ## Whole runs -/

/-- In unaffected rounds the wrapped controller commits and executes the same. -/
theorem metricsWrapped_transparent (runner : Runner) (controller : Controller State)
    (state : State) (rounds : List Round) :
    (runner.AllUnaffected controller state rounds →
        runner.runRounds (metricsWrappedController controller) state rounds =
          runner.runRounds controller state rounds) ∧
      (controller.reconcileDelta = none →
        runner.runRounds (metricsWrappedController controller) state rounds =
          runner.runRounds controller state rounds →
        runner.AllUnaffected controller state rounds) := by
  induction rounds generalizing state with
  | nil => exact ⟨fun _ => rfl, fun _ _ => trivial⟩
  | cons round rest ih =>
    constructor
    · rintro ⟨hround, hrest⟩
      obtain ⟨hcommitted, hpost, hstate⟩ := attempt_metricsWrapped_of_unaffected hround
      simp only [Runner.runRounds, hcommitted, hpost, hstate, (ih _).1 hrest]
    · intro hdelta heq
      simp only [Runner.runRounds, List.cons.injEq, Prod.mk.injEq] at heq
      obtain ⟨⟨-, hpost⟩, htail⟩ := heq
      have hround := unaffected_of_postCommit_eq hdelta hpost
      -- the round just settled leaves both runs in the same controller state
      rw [(attempt_metricsWrapped_of_unaffected hround).2.2] at htail
      exact ⟨hround, (ih _).2 hdelta htail⟩

/-- A controller with nothing to change and an operation pending, counted by its
state. -/
def pendingOperation : Controller Nat where
  name := lit "storage"
  watch := []
  reconcile := fun state _ => (.ok [], state)
  reconcileDelta := none
  executePostCommitOperations := some (fun state => (.ok (), state + 1))

/-- A round on an empty store that nothing interferes with. -/
def quietRound : Round := ⟨MemoryStore.new, [], Interference.none⟩

/-- The runner executes the pending operation, and under the wrapper never does. -/
theorem pendingOperation_lost :
    Runner.new.runRounds pendingOperation 0 [quietRound, quietRound] = [([], [0]), ([], [1])] ∧
      Runner.new.runRounds (metricsWrappedController pendingOperation) 0
        [quietRound, quietRound] = [([], []), ([], [])] := by
  decide

/-- A controller whose delta path and full path differ. -/
def fullOnly : Controller Unit where
  name := lit "batch"
  watch := []
  reconcile := fun state _ => (.ok [Change.put (lit "batch/job") []], state)
  reconcileDelta := some (fun state _ _ => (.ok [], state))
  executePostCommitOperations := none

/-- With no events to pass on, the wrapper is transparent to the delta method. -/
theorem fullOnly_commits :
    Runner.new.runRounds fullOnly () [quietRound, quietRound] =
        [([Change.put (lit "batch/job") []], []), ([Change.put (lit "batch/job") []], [])] ∧
      Runner.new.runRounds (metricsWrappedController fullOnly) () [quietRound, quietRound] =
        Runner.new.runRounds fullOnly () [quietRound, quietRound] := by
  refine ⟨by decide,
    (metricsWrapped_transparent Runner.new fullOnly () [quietRound, quietRound]).1 ?_⟩
  exact ⟨⟨Or.inr rfl, Or.inl rfl⟩, ⟨Or.inr rfl, Or.inl rfl⟩, trivial⟩

end CCattler.Controllers
