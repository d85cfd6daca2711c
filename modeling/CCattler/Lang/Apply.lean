import CCattler.Concurrency.Execution
import CCattler.Lang.CompilerLaws
import CCattler.Store.WriteLoops

/-! # Applying a file

`ApplyWithBaseDir` writes the facts of a file and deletes what is left of its gates.
-/

namespace CCattler.Lang

open Go Store CCattler.Types Concurrency List
open ValidTable (perform)

/-- The front end: the parser, with the text of its error, and the compiler's
surroundings. -/
structure Frontend extends Surroundings where
  parse : Str → Except Str File

/-- The errors of the store calls, with what was being done. -/
inductive ApplyError where
  | store (message : Str)
  deriving DecidableEq

/-- The loop that writes the facts. -/
def putFacts : List Fact → StoreProgram (Except ApplyError Unit)
  | [] => pure (.ok ())
  | fact :: rest => do
      match ← StoreProgram.put fact.key fact.value with
      | .error putError =>
        return .error (.store (lit "writing " ++ fact.key ++ lit ": " ++ putError.message))
      | .ok _ => putFacts rest

/-- The prefix of the fields of a gate. -/
def gatePrefix (routeDecl : RouteDecl) : Str := keyDesiredRoute routeDecl.name ++ lit "/"

/-- The loop of `collectRemovedGateFacts` over the gates of a file. -/
def scanRemovedGateFacts (compiledKeys : List Str) :
    List RouteDecl → StoreProgram (Except ApplyError (List Store.Fact))
  | [] => pure (.ok [])
  | routeDecl :: rest => do
      match ← StoreProgram.scan (gatePrefix routeDecl) with
      | .error scanError =>
        return .error (.store (lit "scanning gate " ++ routeDecl.name ++ lit ": " ++
          scanError.message))
      | .ok storedFacts =>
        match ← scanRemovedGateFacts compiledKeys rest with
        | .error applyError => return .error applyError
        | .ok removedFacts =>
          return .ok (storedFacts.filter (fun storedFact => storedFact.key ∉ compiledKeys) ++
            removedFacts)

def collectRemovedGateFacts (file : File) (compiledFacts : List Fact) :
    StoreProgram (Except ApplyError (List Store.Fact)) :=
  scanRemovedGateFacts (compiledFacts.map Fact.key) file.routes

/-- The loop that deletes what is left of earlier versions. -/
def deleteFacts : List Store.Fact → StoreProgram (Except ApplyError Unit)
  | [] => pure (.ok ())
  | removedFact :: rest => do
      match ← StoreProgram.delete removedFact.key with
      | .error deleteError =>
        return .error (.store (lit "deleting " ++ removedFact.key ++ lit ": " ++
          deleteError.message))
      | .ok () => deleteFacts rest

/-- What an apply does with the facts of a file. -/
def applyFacts (file : File) (facts : List Fact) : StoreProgram (Except ApplyError Unit) := do
  match ← putFacts facts with
  | .error applyError => return .error applyError
  | .ok () =>
    match ← collectRemovedGateFacts file facts with
    | .error applyError => return .error applyError
    | .ok removedGateFacts => deleteFacts removedGateFacts

/-! ## Against a store that answers -/

/-- The keys and values of a list of facts. -/
def entries (facts : List Fact) : List (Str × Str) := facts.map (fun fact => (fact.key, fact.value))

theorem mem_entries {facts : List Fact} {key value : Str} :
    (key, value) ∈ entries facts ↔ (⟨key, value⟩ : Fact) ∈ facts := by
  simp only [entries, mem_map, Prod.mk.injEq]
  constructor
  · intro ⟨fact, hmem, hkey, hvalue⟩
    rw [← hkey, ← hvalue]
    exact hmem
  · exact fun hmem => ⟨_, hmem, rfl, rfl⟩

/-- The facts that a table holds of an earlier version of the gates. -/
def removedGateFacts (table : FactTable) (compiledKeys : List Str) (routes : List RouteDecl) :
    List Store.Fact :=
  routes.flatMap (fun routeDecl =>
    (table.scanned (gatePrefix routeDecl)).filter (fun storedFact => storedFact.key ∉ compiledKeys))

section Evaluation

variable (table : ValidTable)

theorem eval_putFacts (facts : List Fact) :
    (putFacts facts).eval perform table = (.ok (), table.putAll (entries facts)) := by
  induction facts generalizing table with
  | nil => rfl
  | cons fact rest ih => exact ih _

theorem eval_scanRemovedGateFacts (compiledKeys : List Str) (routes : List RouteDecl) :
    (scanRemovedGateFacts compiledKeys routes).eval perform table =
      (.ok (removedGateFacts table.toFactTable compiledKeys routes), table) := by
  induction routes with
  | nil => rfl
  | cons routeDecl rest ih =>
    rw [scanRemovedGateFacts]
    simp only [StoreProgram.scan, Proc.eval_bind, Proc.eval_request, perform, ih]
    rfl

/-- An apply puts the facts and deletes stale gates. -/
theorem eval_applyFacts (file : File) (facts : List Fact) :
    (applyFacts file facts).eval perform table =
      (deleteFacts (removedGateFacts (table.putAll (entries facts)).toFactTable
        (facts.map Fact.key) file.routes)).eval perform
        (table.putAll (entries facts)) := by
  simp only [applyFacts, collectRemovedGateFacts, Proc.eval_bind, eval_putFacts,
    eval_scanRemovedGateFacts]

theorem calls_deleteFacts (removed : List Store.Fact) :
    (deleteFacts removed).Calls (fun request => ∃ fact ∈ removed, request = .delete fact.key) := by
  induction removed with
  | nil => exact Proc.calls_pure _
  | cons fact rest ih =>
    refine ⟨⟨fact, mem_cons_self, rfl⟩, fun reply => ?_⟩
    cases reply with
    | error callError => exact trivial
    | ok result => exact ih.mono fun request ⟨other, hmem, heq⟩ =>
      ⟨other, mem_cons_of_mem _ hmem, heq⟩

/-- What an apply does not delete is as the puts left it, whatever became of the
deletions. -/
theorem value_applyFacts_of_kept (file : File) (facts : List Fact) {key : Str}
    (hkey : ∀ removed ∈ removedGateFacts (table.putAll (entries facts)).toFactTable
      (facts.map Fact.key) file.routes, removed.key ≠ key) :
    ((applyFacts file facts).eval perform table).2.value key =
      (table.putAll (entries facts)).value key := by
  rw [eval_applyFacts]
  let keeps : ValidTable → Prop := fun after =>
    after.value key = (table.putAll (entries facts)).value key
  apply (calls_deleteFacts _).eval_keeps ?_ (show keeps _ from rfl)
  intro request after ⟨removed, hremoved, hrequest⟩ hafter
  subst hrequest
  change (after.after (.delete removed.key)).value key = _
  rw [ValidTable.value_after_delete, if_neg (Ne.symm (hkey removed hremoved))]
  exact hafter

end Evaluation

end CCattler.Lang
