import CCattler.Lang.AccessControl
import CCattler.Store.Values

/-! # The policy gate

`PolicyGate` admits a configuration and then writes its facts one by one, so a
reader of the store can see any prefix of them.
-/

namespace CCattler.Tenant

open Go Store

namespace PolicyGate

/-- The commit loop of `EvaluateAndCommit`: one put for each fact. -/
def commit (table : FactTable) (facts : List Lang.Fact) : FactTable :=
  table.putAll (facts.map (fun fact => (fact.key, fact.value)))

theorem valid_commit {table : FactTable} (h : table.Valid) (facts : List Lang.Fact) :
    (commit table facts).Valid :=
  h.putAll _

end PolicyGate

end CCattler.Tenant
