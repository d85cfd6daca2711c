import CCattler.Lang.FactKeys
import CCattler.Tenant.AdmissionLaws

/-! # Applying a file again

Of the stages only the quota can refuse: it adds the declared count to a usage that
already contains it.
-/

namespace CCattler.Tenant

open Go Store CCattler.Types Concurrency Security List
open ValidTable (perform)

/-! ## What a commit writes -/

section Commit

variable (gate : Gate) (frontend : Lang.Frontend) (order : IterationOrder) (principal : Str)
  (describe : Lang.CompileError → Str) (dslInput : Str) (table : ValidTable)

theorem eval_commitFacts (facts : List Lang.Fact) :
    (Gate.commitFacts frontend facts).eval perform table =
      (.ok (), table.putAll (Lang.entries facts)) := by
  induction facts generalizing table with
  | nil => rfl
  | cons fact rest ih => exact ih _

variable {gate frontend order principal describe dslInput table} {file : Lang.File}
  {facts : List Lang.Fact}

/-- On a file that compiles the gate decides as `Admits` says, and reads only. -/
theorem eval_evaluate (hparse : frontend.parse dslInput = .ok file)
    (hcompile : Lang.compile frontend.toSurroundings file = .ok facts) :
    (((gate.evaluate frontend order principal describe dslInput).eval perform
        table).1.allowed = true ↔ gate.Admits frontend principal file facts table.toFactTable) ∧
    ((gate.evaluate frontend order principal describe dslInput).eval perform table).1.facts =
      facts ∧
    ((gate.evaluate frontend order principal describe dslInput).eval perform table).2 = table := by
  simp only [Gate.evaluate, hparse, hcompile]
  exact eval_evaluateCompiled table order gate frontend principal file facts

/-- An admitted file is compiled and applied. -/
theorem eval_evaluateAndCommit {first : GateResult} {after : ValidTable}
    (h : (gate.evaluateAndCommit frontend order principal describe dslInput).eval
      perform table = (.ok first, after)) (hallowed : first.allowed = true) :
    ∃ file facts, frontend.parse dslInput = .ok file ∧
      Lang.compile frontend.toSurroundings file = .ok facts ∧
      gate.Admits frontend principal file facts table.toFactTable ∧
      after = table.putAll (Lang.entries facts) := by
  rw [Gate.evaluateAndCommit, Proc.eval_bind] at h
  cases hparse : frontend.parse dslInput with
  | error message =>
    simp only [Gate.evaluate, hparse, Proc.eval_pure, Denial.result, Bool.false_eq_true,
      if_false] at h
    rw [← Except.ok.inj (Prod.mk.inj h).1] at hallowed
    cases hallowed
  | ok file =>
    cases hcompile : Lang.compile frontend.toSurroundings file with
    | error error =>
      simp only [Gate.evaluate, hparse, hcompile, Proc.eval_pure, Denial.result,
        Bool.false_eq_true, if_false] at h
      rw [← Except.ok.inj (Prod.mk.inj h).1] at hallowed
      cases hallowed
    | ok facts =>
      obtain ⟨hiff, hfacts, htable⟩ :=
        @eval_evaluate gate frontend order principal describe dslInput table _ _ hparse hcompile
      rw [htable] at h
      by_cases hadmitted : ((gate.evaluate frontend order principal describe dslInput).eval
          perform table).1.allowed = true
      · rw [if_pos hadmitted, Proc.eval_bind, hfacts, eval_commitFacts] at h
        exact ⟨file, facts, rfl, hcompile, hiff.mp hadmitted, (Prod.mk.inj h).2.symm⟩
      · rw [if_neg hadmitted] at h
        obtain ⟨heq, -⟩ := Prod.mk.inj h
        rw [← Except.ok.inj heq] at hallowed
        exact absurd hallowed hadmitted

end Commit

/-! ## No file marks a tenant as being deleted -/

theorem tenantFacts_state {decl : Lang.TenantDecl} {fact : Lang.Fact} {tenantName : Str}
    (hfact : fact ∈ decl.facts) (hkey : fact.key = keyDesiredTenantState tenantName) :
    fact.value = [] := by
  have hdiffer {field : String} (hkey' : fact.key = desiredTenantKey decl.name field)
      (hends : ¬(lit field <:+ lit "state" ∨ lit "state" <:+ lit field)) : False :=
    hends (Lang.field_suffix_of_eq (hkey'.symm.trans hkey))
  simp only [Lang.TenantDecl.facts, Lang.QuotaDecl.facts, mem_append, mem_singleton,
    Lang.mem_countFact, Lang.mem_textFact, Lang.mem_blockFacts] at hfact
  rcases hfact with (rfl | ⟨-, rfl⟩) | ⟨quota, -, (((⟨-, rfl⟩ | ⟨-, rfl⟩) | ⟨-, rfl⟩) | ⟨-, rfl⟩) |
    ⟨-, rfl⟩⟩
  · rfl
  all_goals exact (hdiffer rfl (by decide)).elim

/-- A commit sets no tenant to deleting. -/
theorem not_deleting_after_commit {surroundings : Lang.Surroundings} {file : Lang.File}
    {facts : List Lang.Fact} {table : ValidTable} {tenantName : Str}
    (hcompile : Lang.compile surroundings file = .ok facts)
    (h : table.value (keyDesiredTenantState tenantName) ≠ some Gate.tenantDeleting) :
    (table.putAll (Lang.entries facts)).value (keyDesiredTenantState tenantName) ≠
      some Gate.tenantDeleting := by
  rw [ValidTable.value_putAll]
  cases hlast : FactTable.lastValue (Lang.entries facts) (keyDesiredTenantState tenantName) with
  | none => exact h
  | some value =>
    have hfact := Lang.mem_entries.mp (FactTable.mem_of_lastValue hlast)
    obtain ⟨_, -, hmem⟩ := Lang.exists_tenant_of_scan hcompile hfact ⟨_, rfl⟩
    have hvalue : value = [] := tenantFacts_state hmem rfl
    rw [hvalue, Option.some_or]
    decide

/-! ## The second evaluation -/

/-- The instances of a service that are not stopped. -/
def createdInstances (table : FactTable) (serviceName : Str) : List (Str × Str) :=
  ((table.scanned scanObservedInstances).filterMap (instanceValue (lit "service"))).filter
    (fun instanceOf => instanceOf.2 = serviceName ∧
      table.value (keyObservedInstanceState instanceOf.1) ≠ some instanceStopped)

/-- All instances of a committed file exist, and tenants and owners are unchanged. -/
structure Recreated (file : Lang.File) (committed later : FactTable) : Prop where
  tenants : ∀ key, scanDesiredTenants <+: key → later.value key = committed.value key
  owners : ∀ serviceName, later.value (keyDesiredServiceOwner serviceName) =
    committed.value (keyDesiredServiceOwner serviceName)
  created : ∀ decl ∈ file.services, (createdInstances later decl.name).length = decl.instances.toNat

/-- Every service fits into its tenant's quota on top of all active instances. -/
def FitsOnceMore (gate : Gate) (file : Lang.File) (later : FactTable) : Prop :=
  gate.checksQuota = true → ∀ decl ∈ file.services, decl.instances > 0 →
    WithinQuota later decl.name decl.instances

/-- An admitted file is admitted again, with the tenants unchanged, exactly if its instances
fit a second time. -/
theorem reapply_admitted_iff {gate : Gate} {frontend : Lang.Frontend}
    {order laterOrder : IterationOrder} {principal : Str} {describe : Lang.CompileError → Str}
    {dslInput : Str} {before after later : ValidTable} {first : GateResult} {file : Lang.File}
    (hcommit : (gate.evaluateAndCommit frontend order principal describe dslInput).eval
      perform before = (.ok first, after)) (hallowed : first.allowed = true)
    (hparse : frontend.parse dslInput = .ok file)
    (htenants : ∀ key, scanDesiredTenants <+: key → later.value key = after.value key) :
    ((gate.evaluate frontend laterOrder principal describe dslInput).eval perform
      later).1.allowed = true ↔ FitsOnceMore gate file later.toFactTable := by
  obtain ⟨parsed, _, hparsed, hcompile, hadmits, rfl⟩ :=
    eval_evaluateAndCommit hcommit hallowed
  obtain rfl : parsed = file := Except.ok.inj (hparsed.symm.trans hparse)
  rw [(eval_evaluate hparse hcompile).1]
  constructor
  · exact fun h => h.quota
  · intro hfits
    refine ⟨hadmits.authorized, hfits, fun decl hdecl howner => ?_⟩
    rw [htenants (keyDesiredTenantState decl.ownerTenant) ⟨_, rfl⟩]
    exact not_deleting_after_commit hcompile (hadmits.notDeleting decl hdecl howner)

/-! ## Two quotas -/

/-- A tenant with the given quota, and a service of it with two instances. -/
def shopFile (quota : Int) : Lang.File :=
  { tenants := [{ name := lit "acme", quota := some { instances := quota } }]
    services := [{ name := lit "acme/web", image := lit "nginx", instances := 2 }] }

/-- A front end that reads the file, whatever its text. -/
def frontendOf (file : Lang.File) : Lang.Frontend :=
  { Lang.plainSurroundings with parse := fun _ => .ok file }

/-- A gate that checks quotas and authorizes everything. -/
def quotaGate : Gate := ⟨true, none⟩

/-- The two instances of the service, running. -/
def shopInstances : List (Str × Str) :=
  [(keyObservedInstanceService (lit "web-1"), lit "acme/web"),
    (keyObservedInstanceState (lit "web-1"), lit "running"),
    (keyObservedInstanceService (lit "web-2"), lit "acme/web"),
    (keyObservedInstanceState (lit "web-2"), lit "running")]

theorem recreated_putAll {file : Lang.File} {committed : ValidTable} {instances : List (Str × Str)}
    (hinstances : ∀ entry ∈ instances, scanObservedInstances <+: entry.1)
    (hcreated : ∀ decl ∈ file.services,
      (createdInstances (committed.putAll instances).toFactTable decl.name).length =
        decl.instances.toNat) :
    Recreated file committed.toFactTable (committed.putAll instances).toFactTable := by
  have hdesired {key : Str} (hkey : lit "desired/" <+: key) :
      (committed.putAll instances).value key = committed.value key := by
    have hnone : FactTable.lastValue instances key = none := by
      rw [FactTable.lastValue_eq_none_iff]
      intro entry hentry heq
      have hobserved := hinstances entry hentry
      rw [heq] at hobserved
      rcases prefix_or_prefix_of_prefix hkey hobserved with h | h <;> revert h <;> decide
    rw [ValidTable.value_putAll, hnone, Option.none_or]
  refine ⟨fun key hkey => hdesired (List.IsPrefix.trans ⟨lit "tenant/", by decide⟩ hkey),
    fun serviceName => hdesired ⟨_, rfl⟩, hcreated⟩

/-- The evaluation and commit of the shop file on an empty store. -/
def shopCommit (quota : Int) : Except Str GateResult × ValidTable :=
  (quotaGate.evaluateAndCommit (frontendOf (shopFile quota)) .identity (lit "user:ann")
    (fun _ => []) []).eval perform ValidTable.new

/-- The second evaluation, with the two instances running. -/
def shopAgain (quota : Int) : GateResult :=
  ((quotaGate.evaluate (frontendOf (shopFile quota)) .identity (lit "user:ann")
    (fun _ => []) []).eval perform ((shopCommit quota).2.putAll shopInstances)).1

def isAllowed : Except Str GateResult → Bool
  | .ok result => result.allowed
  | .error _ => false

theorem shop_recreated (quota : Int)
    (hcreated : (createdInstances ((shopCommit quota).2.putAll shopInstances).toFactTable
      (lit "acme/web")).length = 2) :
    Recreated (shopFile quota) (shopCommit quota).2.toFactTable
      ((shopCommit quota).2.putAll shopInstances).toFactTable := by
  refine recreated_putAll (by decide) fun decl hdecl => ?_
  rw [mem_singleton.mp hdecl]
  exact hcreated

theorem exists_ok_of_isAllowed {outcome : Except Str GateResult × ValidTable}
    (h : isAllowed outcome.1 = true) :
    ∃ first : GateResult, outcome = (.ok first, outcome.2) ∧ first.allowed = true := by
  obtain ⟨result, _⟩ := outcome
  cases result with
  | error message => cases h
  | ok first => exact ⟨first, rfl, h⟩

theorem fourFold_quota_fits :
    FitsOnceMore quotaGate (shopFile 4) ((shopCommit 4).2.putAll shopInstances).toFactTable := by
  have hrun : isAllowed (shopCommit 4).1 = true ∧ (shopAgain 4).allowed = true ∧
      (createdInstances ((shopCommit 4).2.putAll shopInstances).toFactTable
        (lit "acme/web")).length = 2 := by decide +kernel
  obtain ⟨_, hcommit, hallowed⟩ := exists_ok_of_isAllowed hrun.1
  have hagain := hrun.2.1
  rw [shopAgain] at hagain
  exact (reapply_admitted_iff hcommit hallowed rfl (shop_recreated 4 hrun.2.2).tenants).mp hagain

/-- Admitted on the empty store, refused when its two instances are running. -/
theorem reapply_refused_of_three : isAllowed (shopCommit 3).1 = true ∧
      Recreated (shopFile 3) (shopCommit 3).2.toFactTable
        ((shopCommit 3).2.putAll shopInstances).toFactTable ∧
      (shopAgain 3).allowed = false ∧
      (shopAgain 3).reason = lit "instance quota exceeded: 2 + 2 = 4 > 3" := by
  have hrun : isAllowed (shopCommit 3).1 = true ∧ (shopAgain 3).allowed = false ∧
      (shopAgain 3).reason = lit "instance quota exceeded: 2 + 2 = 4 > 3" ∧
      (createdInstances ((shopCommit 3).2.putAll shopInstances).toFactTable
        (lit "acme/web")).length = 2 := by decide +kernel
  exact ⟨hrun.1, shop_recreated 3 hrun.2.2.2, hrun.2.1, hrun.2.2.1⟩

end CCattler.Tenant
