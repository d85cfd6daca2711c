import CCattler.Controllers.Controller
import CCattler.Go.Map
import CCattler.Go.Strconv
import CCattler.Store.Memory
import CCattler.Store.PrefixSearch

/-! # The controller runner

One reconciliation attempt: scan the watched prefixes, compute changes, filter
and cap them, and commit them under revision guards. Other writers may run
before each scan and before the commit.
-/

namespace CCattler.Controllers

open Go Store

def etcdTransactionOperationLimit : Int := 128

def maxTransactionChanges : Nat := 60

def defaultMaxReconciliationAttempts : Nat := 5

structure Runner where
  maxReconciliationAttempts : Nat
  maxInputKeyGuards : Int
  deriving DecidableEq, Repr

/-- `NewRunner`. -/
def Runner.new : Runner := ⟨defaultMaxReconciliationAttempts, -1⟩

inductive RunnerError where
  | store (error : StoreError)
  | nilDereference
  | reconcile (text : Str)
  | duplicateKey (controllerName duplicateKey : Str)
  | groupTooLarge (controllerName groupID : Str) (groupSize limit : Nat)
  deriving DecidableEq, Repr

/-- Other writers' calls before each scan and the commit, and how ties are sorted. -/
structure Interference where
  beforeScan : Nat → List Operation
  beforeCommit : List Operation
  sortFacts : SliceSort factLess

def Interference.none : Interference where
  beforeScan := fun _ => []
  beforeCommit := []
  sortFacts := .stable (fun first second => by
      simp only [factLess, decide_eq_false_iff_not, List.not_lt]
      exact List.le_total _ _)
    (fun first second third hfirst hsecond => by
      simp only [factLess, decide_eq_false_iff_not, List.not_lt] at hfirst hsecond ⊢
      exact List.le_trans hfirst hsecond)

def scanFactsForController (store : MemoryStore) :
    List Str → (Nat → List Operation) → MemoryStore × Except RunnerError (List Fact)
  | [], _ => (store, .ok [])
  | scanPrefix :: rest, beforeScan =>
    let current := store.run (beforeScan 0)
    match current.scanWithRevision scanPrefix with
    | none => (current, .error .nilDereference)
    | some (.error error) => (current, .error (.store error))
    | some (.ok scanResult) =>
      let later := scanFactsForController current rest (fun index => beforeScan (index + 1))
      (later.1, later.2.map (fun facts => scanResult.facts ++ facts))

def computeReconciliationChanges {State : Type} (controller : Controller State) (state : State)
    (allFacts : List Fact) (deltaEvents : List Event) :
    Except RunnerError (List Change) × State :=
  let full (current : State) : Except RunnerError (List Change) × State :=
    ((controller.reconcile current allFacts).1.mapError RunnerError.reconcile,
      (controller.reconcile current allFacts).2)
  match deltaEvents, controller.reconcileDelta with
  | [], _ => full state
  | _ :: _, none => full state
  | _ :: _, some reconcileDelta =>
    match reconcileDelta state allFacts deltaEvents with
    -- the sentinel error asks for a full pass; any other one ends the attempt
    | (.error .fallback, next) => full next
    | (.error (.other text), next) => (.error (.reconcile text), next)
    | (.ok deltaChanges, next) => (.ok deltaChanges, next)

def enforceWriteDomain (controllerName : Str) (changes : List Change) : List Change :=
  match controllerOutputPrefixes controllerName with
  | none => changes
  | some allowedPrefixes =>
    changes.filter (fun change => isKeyWithinWriteDomain change.key allowedPrefixes)

def opTypeRank : OpType → Nat
  | .put => 0
  | .delete => 1

/-- The comparison of `sortChangesByGroupAndKey`. -/
def changeLess (first second : Change) : Bool :=
  if first.group ≠ second.group then decide (first.group < second.group)
  else if first.key ≠ second.key then decide (first.key < second.key)
  else decide (opTypeRank first.type < opTypeRank second.type)

variable (changes : List Change)

def sortChangesByGroupAndKey : List Change :=
  sliceStable changeLess changes

/-- The loop of `findDuplicateChangeKey`; no duplicate is the empty string. -/
def findDuplicateChangeKeyFrom (seenKeys : List Str) : List Change → Str
  | [] => []
  | change :: rest =>
    if change.key ∈ seenKeys then change.key
    else findDuplicateChangeKeyFrom (change.key :: seenKeys) rest

def findDuplicateChangeKey : Str := findDuplicateChangeKeyFrom [] changes

/-- Adjacent changes of one non-empty group, and every ungrouped change by itself. -/
def changeGroups : List Change → List (List Change)
  | [] => []
  | change :: rest =>
    match changeGroups rest with
    | [] => [[change]]
    | [] :: others => [change] :: others
    | (next :: more) :: others =>
      if change.group ≠ [] ∧ next.group = change.group then
        (change :: next :: more) :: others
      else [change] :: (next :: more) :: others

structure GroupTooLarge where
  groupID : Str
  groupSize : Nat
  limit : Nat
  deriving DecidableEq, Repr

/-- The loop of `takeWholeGroups`, with the selected changes so far. -/
def takeWholeGroupsFrom (limit : Nat) (selected : List Change) :
    List (List Change) → Except GroupTooLarge (List Change × Nat)
  | [] => .ok (selected, 0)
  | group :: others =>
    -- an oversized group fails the whole selection, also the groups before it that fit
    if group.length > limit then
      .error ⟨(group.head?.map Change.group).getD [], group.length, limit⟩
    else if selected.length + group.length > limit then
      .ok (selected, (group :: others).flatten.length)
    else takeWholeGroupsFrom limit (selected ++ group) others

def takeWholeGroups (limit : Nat) : Except GroupTooLarge (List Change × Nat) :=
  takeWholeGroupsFrom limit [] (changeGroups changes)

/-- Whole groups up to a limit, where a controller has more changes than that. -/
def capOutputChanges (limit : Nat) (changes : List Change) : Except GroupTooLarge (List Change) :=
  if changes.length > limit then (takeWholeGroups changes limit).map Prod.fst else .ok changes

def validateAndCapChanges (controllerName : Str) (changes : List Change) :
    Except RunnerError (List Change) :=
  let sorted := sortChangesByGroupAndKey changes
  let duplicateKey := findDuplicateChangeKey sorted
  if duplicateKey ≠ [] then .error (.duplicateKey controllerName duplicateKey)
  else if sorted.length > maxTransactionChanges then
    match takeWholeGroups sorted maxTransactionChanges with
    | .error large =>
      .error (.groupTooLarge controllerName large.groupID large.groupSize large.limit)
    | .ok (selected, _) => .ok selected
  else .ok sorted

def scannedFactRevisions (allFacts : List Fact) : Map Int :=
  allFacts.foldl (fun revisions fact => revisions.set fact.key fact.revision) ∅

/-- The guard of one change: the scanned revision, or absence for a put of a key
that was not scanned. -/
def changeGuard (revisions : Map Int) (change : Change) : Option Compare :=
  match revisions.lookup change.key with
  | some factRevision => some ⟨change.key, factRevision⟩
  | none => if change.type = .put then some ⟨change.key, 0⟩ else none

/-- The loop of `appendInputKeyGuards`. -/
def appendInputKeyGuardsFrom (inputKeyLimit : Int) (writePrefixes changeKeys : List Str)
    (transactionCompares : List Compare) : List Fact → List Compare
  | [] => transactionCompares
  | scannedFact :: rest =>
    if (transactionCompares.length : Int) ≥ inputKeyLimit then transactionCompares
    else if scannedFact.key ∈ changeKeys then
      appendInputKeyGuardsFrom inputKeyLimit writePrefixes changeKeys transactionCompares rest
    else if isKeyWithinWriteDomain scannedFact.key writePrefixes = false then
      appendInputKeyGuardsFrom inputKeyLimit writePrefixes changeKeys transactionCompares rest
    else
      appendInputKeyGuardsFrom inputKeyLimit writePrefixes changeKeys
        (transactionCompares ++ [⟨scannedFact.key, scannedFact.revision⟩]) rest

namespace Runner

def appendInputKeyGuards (runner : Runner) (controllerName : Str)
    (transactionCompares : List Compare) (transactionOperations : List Op)
    (changeKeys : List Str) (allFacts : List Fact) : List Compare :=
  if runner.maxInputKeyGuards = 0 then transactionCompares
  else
    let writePrefixes := (controllerOutputPrefixes controllerName).getD []
    let etcdCapacity := etcdTransactionOperationLimit - transactionOperations.length
    let inputKeyLimit :=
      if runner.maxInputKeyGuards > 0 then
        min (wrap64 (transactionCompares.length + runner.maxInputKeyGuards)) etcdCapacity
      else etcdCapacity
    appendInputKeyGuardsFrom inputKeyLimit writePrefixes changeKeys transactionCompares allFacts

def buildReconciliationTransaction (runner : Runner) (controllerName : Str)
    (changes : List Change) (allFacts : List Fact) : List Compare × List Op :=
  let revisions := scannedFactRevisions allFacts
  let transactionOperations : List Op :=
    changes.map (fun change => ⟨change.type, change.key, change.value⟩)
  let transactionCompares := changes.filterMap (changeGuard revisions)
  (runner.appendInputKeyGuards controllerName transactionCompares transactionOperations
    (changes.map Change.key) allFacts, transactionOperations)

end Runner

inductive Outcome where
  | failed (error : RunnerError)
  | conflict
  | done
  deriving DecidableEq, Repr

/-- The store and the state after an attempt, how it ended, what was submitted and
committed, and the states of post-commit executions. -/
structure Attempt (State : Type) where
  store : MemoryStore
  state : State
  outcome : Outcome
  submitted : List Change
  committed : Bool
  postCommit : List State

def executePendingPostCommitOperations {State : Type} (controller : Controller State)
    (state : State) : State × List State :=
  match controller.executePostCommitOperations with
  | none => (state, [])
  | some execute => ((execute state).2, [state])

namespace Runner

def finishAttempt {State : Type} (controller : Controller State) (state : State)
    (store : MemoryStore) (submitted : List Change) (committed : Bool) : Attempt State :=
  let pending := executePendingPostCommitOperations controller state
  ⟨store, pending.1, .done, submitted, committed, pending.2⟩

variable {State : Type} (runner : Runner) (controller : Controller State) (state : State)
  (store : MemoryStore)

def commitChanges (allFacts : List Fact) (changes : List Change) (beforeCommit : List Operation) :
    Attempt State :=
  let built := runner.buildReconciliationTransaction controller.name changes allFacts
  let transacted := (store.run beforeCommit).transaction built.1 built.2 []
  match transacted.2 with
  | .error error => ⟨transacted.1, state, .failed (.store error), changes, false, []⟩
  | .ok false => ⟨transacted.1, state, .conflict, changes, false, []⟩
  | .ok true => finishAttempt controller state transacted.1 changes true

def attemptSingleReconciliation (deltaEvents : List Event) (interference : Interference) :
    Attempt State :=
  let scanned := scanFactsForController store controller.watch interference.beforeScan
  match scanned.2 with
  | .error error => ⟨scanned.1, state, .failed error, [], false, []⟩
  | .ok facts =>
    let allFacts := interference.sortFacts.sort facts
    let computed := computeReconciliationChanges controller state allFacts deltaEvents
    match computed.1 with
    | .error error => ⟨scanned.1, computed.2, .failed error, [], false, []⟩
    | .ok [] => finishAttempt controller computed.2 scanned.1 [] false
    | .ok (first :: rest) =>
      match enforceWriteDomain controller.name (first :: rest) with
      | [] => ⟨scanned.1, computed.2, .done, [], false, []⟩
      | allowed :: others =>
        match validateAndCapChanges controller.name (allowed :: others) with
        | .error error => ⟨scanned.1, computed.2, .failed error, [], false, []⟩
        | .ok changes =>
          commitChanges runner controller computed.2 scanned.1 allFacts changes
            interference.beforeCommit

end Runner

end CCattler.Controllers
