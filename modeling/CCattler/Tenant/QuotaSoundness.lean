import Mathlib.Algebra.BigOperators.Group.Finset.Basic
import Mathlib.Algebra.Order.BigOperators.Group.Finset
import CCattler.Tenant.Readmission

/-! # Declared instances and the quota

The gate compares the quota with the instances that exist, one service at a time and
with the owners from before the file.
-/

namespace CCattler.Tenant

open Go Store CCattler.Types Concurrency Security List FactTable
open Lang (entries)

/-! ## The declared sum -/

/-- The name of a service with a declared count. -/
def countedService (key : Str) : Option Str :=
  let rest := key.trimPrefix scanDesiredServices
  if rest.hasSuffix (lit "/instances") then some (rest.take (rest.length - 10)) else none

section

variable (table : FactTable)

/-- The services with a declared count. -/
def countedServices : List Str :=
  (table.scanned scanDesiredServices).filterMap (fun fact => countedService fact.key)

/-- The number in the text of a count; zero if there is none. -/
def countIn (text : Str) : Nat :=
  match parseInt text with
  | (count, none) => count.toNat
  | (_, some _) => 0

/-- The declared count of a service; zero if there is none. -/
def declaredCount (serviceName : Str) : Nat :=
  match table.value (keyDesiredServiceInstances serviceName) with
  | none => 0
  | some text => countIn text

/-- What the services of a tenant declare together. -/
def declaredSum (tenantName : Str) : Nat :=
  ∑ serviceName ∈ (countedServices table).toFinset with ownerIn table serviceName = some tenantName,
    declaredCount table serviceName

/-- What the services of a tenant that are not in the file declare together. -/
def declaredElsewhere (file : Lang.File) (tenantName : Str) : Nat :=
  ∑ serviceName ∈ (countedServices table).toFinset with
    ownerIn table serviceName = some tenantName ∧
      serviceName ∉ file.services.map Lang.ServiceDecl.name,
    declaredCount table serviceName

variable (facts : List Lang.Fact) (serviceName : Str)

/-- The owner that the facts of a file give a service, or else the table. -/
def ownerWith : Option Str :=
  match lastValue (entries facts) (keyDesiredServiceOwner serviceName) with
  | none => ownerIn table serviceName
  | some owner => if owner = [] then nameOwner serviceName else some owner

/-- The count that the facts of a file give a service, or else the table. -/
def countWith : Nat :=
  match lastValue (entries facts) (keyDesiredServiceInstances serviceName) with
  | none => declaredCount table serviceName
  | some text => countIn text

/-- What the services of a tenant declare together, in the table and in the file. -/
def declaredWith (tenantName : Str) : Nat :=
  ∑ serviceName ∈ (countedServices table ++
      facts.filterMap (fun fact => countedService fact.key)).toFinset with
    ownerWith table facts serviceName = some tenantName, countWith table facts serviceName

/-- The file states no owner and no count. -/
def StatesNoCounts : Prop :=
  ∀ serviceName, ∀ fact ∈ facts, fact.key ≠ keyDesiredServiceOwner serviceName ∧
    fact.key ≠ keyDesiredServiceInstances serviceName

end

variable {name : Str}

theorem countedService_eq_some : countedService (keyDesiredServiceInstances name) = some name := by
  have hkey : keyDesiredServiceInstances name =
      scanDesiredServices ++ (name ++ lit "/instances") := rfl
  have hlength : (lit "/instances").length = 10 := by decide
  unfold countedService
  rw [hkey, Str.trimPrefix_append]
  rw [if_pos (Str.hasSuffix_iff.mpr (suffix_append _ _)), length_append, hlength,
    Nat.add_sub_cancel, take_left]

variable {tenantName : Str} {facts : List Lang.Fact}

section

variable {table : ValidTable}

theorem mem_countedServices (h : (table.value (keyDesiredServiceInstances name)).isSome) :
    name ∈ countedServices table.toFactTable := by
  obtain ⟨value, hvalue⟩ := Option.isSome_iff_exists.mp h
  obtain ⟨fact, hfact, hkey, -⟩ := (table.valid.exists_scanned_iff (by decide)).mpr
    ⟨isPrefix_fieldKey scanDesiredServices name _, hvalue⟩
  exact mem_filterMap.mpr ⟨fact, hfact, hkey ▸ countedService_eq_some⟩

theorem declaredCount_eq_zero (h : name ∉ countedServices table.toFactTable) :
    declaredCount table.toFactTable name = 0 := by
  have hnone : table.toFactTable.value (keyDesiredServiceInstances name) = none := by
    rw [← Option.not_isSome_iff_eq_none]
    exact fun hsome => h (mem_countedServices hsome)
  rw [declaredCount, hnone]

theorem declaredSum_eq_sum {names : Finset Str}
    (h : (countedServices table.toFactTable).toFinset ⊆ names) :
    declaredSum table.toFactTable tenantName =
      ∑ name ∈ names, if ownerIn table.toFactTable name = some tenantName then
        declaredCount table.toFactTable name else 0 := by
  rw [declaredSum, Finset.sum_filter]
  apply Finset.sum_subset h
  intro name _ hname
  rw [declaredCount_eq_zero (fun hmem => hname (mem_toFinset.mpr hmem)), ite_self]

/-- After a commit, the file's facts stand over those of the table. -/
theorem ownerIn_putAll (serviceName : Str) :
    ownerIn (table.putAll (entries facts)).toFactTable serviceName =
      ownerWith table.toFactTable facts serviceName := by
  have hvalue : (table.putAll (entries facts)).toFactTable.value
      (keyDesiredServiceOwner serviceName) = _ := ValidTable.value_putAll table _ _
  rw [ownerIn, hvalue, ownerWith]
  cases lastValue (entries facts) (keyDesiredServiceOwner serviceName) <;> rfl

theorem declaredCount_putAll (serviceName : Str) :
    declaredCount (table.putAll (entries facts)).toFactTable serviceName =
      countWith table.toFactTable facts serviceName := by
  have hvalue : (table.putAll (entries facts)).toFactTable.value
      (keyDesiredServiceInstances serviceName) = _ := ValidTable.value_putAll table _ _
  rw [declaredCount, hvalue, countWith]
  cases lastValue (entries facts) (keyDesiredServiceInstances serviceName) <;> rfl

theorem countedServices_putAll : countedServices (table.putAll (entries facts)).toFactTable ⊆
      countedServices table.toFactTable ++
        facts.filterMap (fun fact => countedService fact.key) := by
  intro name hname
  obtain ⟨fact, hfact, hcounted⟩ := mem_filterMap.mp hname
  obtain ⟨hbelow, hvalue⟩ := ((table.putAll (entries facts)).valid.exists_scanned_iff
    (by decide)).mp ⟨fact, hfact, rfl, rfl⟩
  have hvalue := (ValidTable.value_putAll table _ _).symm.trans hvalue
  cases hlast : lastValue (entries facts) fact.key with
  | none =>
    rw [hlast, Option.none_or] at hvalue
    obtain ⟨stored, hstored, hkey, -⟩ :=
      (table.valid.exists_scanned_iff (by decide)).mpr ⟨hbelow, hvalue⟩
    exact mem_append_left _ (mem_filterMap.mpr ⟨stored, hstored, hkey ▸ hcounted⟩)
  | some value =>
    have hmem := Lang.mem_entries.mp (mem_of_lastValue hlast)
    exact mem_append_right _ (mem_filterMap.mpr ⟨_, hmem, hcounted⟩)

theorem declaredSum_putAll (facts : List Lang.Fact) (tenantName : Str) :
    declaredSum (table.putAll (entries facts)).toFactTable tenantName =
      declaredWith table.toFactTable facts tenantName := by
  rw [declaredSum_eq_sum fun name hname =>
      mem_toFinset.mpr (countedServices_putAll (mem_toFinset.mp hname)), declaredWith,
    Finset.sum_filter]
  simp only [ownerIn_putAll, declaredCount_putAll]

theorem declaredWith_of_statesNoCounts (h : StatesNoCounts facts) (tenantName : Str) :
    declaredWith table.toFactTable facts tenantName =
      declaredSum table.toFactTable tenantName := by
  have hnone : ∀ {key : Str}, (∀ fact ∈ facts, fact.key ≠ key) →
      lastValue (entries facts) key = none := by
    intro key hkey
    refine lastValue_eq_none_iff.mpr fun entry hentry => ?_
    exact hkey _ (Lang.mem_entries.mp hentry)
  rw [declaredSum_eq_sum fun name hname =>
      mem_toFinset.mpr (mem_append_left _ (mem_toFinset.mp hname)), declaredWith,
    Finset.sum_filter]
  refine Finset.sum_congr rfl fun name _ => ?_
  rw [ownerWith, countWith, hnone fun fact hfact => (h name fact hfact).1,
    hnone fun fact hfact => (h name fact hfact).2]

theorem declaredElsewhere_eq_sum {file : Lang.File} {names : Finset Str}
    (h : (countedServices table.toFactTable).toFinset ⊆ names) :
    declaredElsewhere table.toFactTable file tenantName =
      ∑ name ∈ names with name ∉ file.services.map Lang.ServiceDecl.name,
        if ownerIn table.toFactTable name = some tenantName then
          declaredCount table.toFactTable name else 0 := by
  rw [declaredElsewhere, Finset.sum_filter, Finset.sum_filter]
  have hsame : ∀ name, (if ownerIn table.toFactTable name = some tenantName ∧
        name ∉ file.services.map Lang.ServiceDecl.name then
          declaredCount table.toFactTable name else 0) =
      if name ∉ file.services.map Lang.ServiceDecl.name then
        if ownerIn table.toFactTable name = some tenantName then
          declaredCount table.toFactTable name else 0
      else 0 := by
    intro name
    by_cases hname : name ∈ file.services.map Lang.ServiceDecl.name <;> simp [hname]
  simp only [hsame]
  apply Finset.sum_subset h
  intro name _ hname
  rw [declaredCount_eq_zero (fun hmem => hname (mem_toFinset.mpr hmem)), ite_self, ite_self]

end

variable {file : Lang.File}

theorem declaredElsewhere_le {table : FactTable} :
    declaredElsewhere table file tenantName ≤ declaredSum table tenantName := by
  apply Finset.sum_le_sum_of_subset
  intro _ hname
  obtain ⟨hcounted, howner, -⟩ := Finset.mem_filter.mp hname
  exact Finset.mem_filter.mpr ⟨hcounted, howner⟩

/-! ## When the gate keeps a quota -/

/-- A file and a store for which the gate's check is enough for a tenant. -/
structure QuotaSafe (gate : Gate) (before : FactTable) (file : Lang.File)
    (facts : List Lang.Fact) (tenantName : Str) : Prop where
  /-- The gate has a quota admission, and the tenant can be loaded. -/
  checked : gate.checksQuota = true
  loadable : Loadable before tenantName
  /-- The file states owners only as they are. -/
  owners : ∀ serviceName value, ⟨keyDesiredServiceOwner serviceName, value⟩ ∈ facts →
    value ≠ [] ∧ ownerIn before serviceName = some value
  /-- Counts are written by the services they are of. -/
  counts : ∀ serviceName value, ⟨keyDesiredServiceInstances serviceName, value⟩ ∈ facts →
    ∃ decl ∈ file.services, decl.name = serviceName ∧ value = itoa decl.instances
  /-- The file has at most one service of the tenant with instances. -/
  single : ∀ first ∈ file.services, ∀ second ∈ file.services,
    ownerIn before first.name = some tenantName → ownerIn before second.name = some tenantName →
    0 < first.instances → 0 < second.instances → first.name = second.name
  /-- What the other services of the tenant declare has been created. -/
  created : declaredElsewhere before file tenantName ≤ activeInstances before tenantName
  noOverflow : ∀ decl ∈ file.services,
    (activeInstances before tenantName : Int) + decl.instances < 2 ^ 63

variable {decl : Lang.ServiceDecl}

/-- The facts of a service of a file that compiles are among those of the file. -/
theorem exists_serviceFacts {surroundings : Lang.Surroundings}
    (hcompile : Lang.compile surroundings file = .ok facts) (hdecl : decl ∈ file.services) :
    ∃ own, Lang.compileServiceDeclaration [] surroundings file.baseDir file.connections decl =
      .ok own ∧ own ⊆ facts := by
  have hmem : Lang.Declaration.service decl ∈ file.declarations := by
    simp [Lang.File.declarations, hdecl]
  have heach := hcompile
  rw [Lang.compile, Lang.compileWithSource_eq] at heach
  obtain ⟨hoks, -⟩ := Lang.compileEach_eq_ok_iff.mp heach
  refine ⟨_, hoks _ hmem, fun fact hfact => ?_⟩
  exact (Lang.mem_compileWithSource hcompile).mpr ⟨_, hmem, _, hoks _ hmem, hfact⟩

variable {serviceName : Str}

section Sound

variable {gate : Gate} {frontend : Lang.Frontend} {principal : Str} {before : ValidTable}
  {file : Lang.File} {facts : List Lang.Fact} {tenantName : Str}

variable (hsafe : QuotaSafe gate before.toFactTable file facts tenantName)
include hsafe

theorem ownerIn_committed (serviceName : Str) :
    ownerIn (before.putAll (entries facts)).toFactTable serviceName =
      ownerIn before.toFactTable serviceName := by
  rw [ownerIn_putAll, ownerWith]
  cases hlast : lastValue (entries facts) (keyDesiredServiceOwner serviceName) with
  | none => rfl
  | some value =>
    obtain ⟨hne, howner⟩ := hsafe.owners _ _ (Lang.mem_entries.mp (mem_of_lastValue hlast))
    rw [howner]
    exact if_neg hne

theorem declaredCount_committed_of_not_mem
    (hname : serviceName ∉ file.services.map Lang.ServiceDecl.name) :
    declaredCount (before.putAll (entries facts)).toFactTable serviceName =
      declaredCount before.toFactTable serviceName := by
  have hnone : lastValue (entries facts) (keyDesiredServiceInstances serviceName) = none := by
    rw [lastValue_eq_none_iff]
    intro ⟨_, value⟩ hentry heq
    subst heq
    obtain ⟨_, hdecl, heq, -⟩ := hsafe.counts _ _ (Lang.mem_entries.mp hentry)
    exact hname (heq ▸ mem_map_of_mem hdecl)
  rw [declaredCount_putAll, countWith, hnone]

/-- A commit sets the counts of the file's services. -/
theorem declaredCount_committed_of_mem
    (hcompile : Lang.compile frontend.toSurroundings file = .ok facts)
    (hname : serviceName ∈ file.services.map Lang.ServiceDecl.name) :
    ∃ decl ∈ file.services, decl.name = serviceName ∧
      (declaredCount (before.putAll (entries facts)).toFactTable serviceName : Int) =
        decl.instances := by
  obtain ⟨declared, hdeclared, rfl⟩ := mem_map.mp hname
  obtain ⟨_, hown, hsubset⟩ := exists_serviceFacts hcompile hdeclared
  have hhead : (⟨keyDesiredServiceInstances declared.name, itoa declared.instances⟩ : Lang.Fact) ∈
      facts := hsubset (Lang.headFacts_subset hown (by simp [Lang.ServiceDecl.headFacts]))
  rw [declaredCount_putAll, countWith]
  cases hlast : lastValue (entries facts) (keyDesiredServiceInstances declared.name) with
  | none =>
    exact absurd rfl (lastValue_eq_none_iff.mp hlast _ (Lang.mem_entries.mpr hhead))
  | some value =>
    obtain ⟨decl, hdecl, hdeclName, rfl⟩ :=
      hsafe.counts _ _ (Lang.mem_entries.mp (mem_of_lastValue hlast))
    refine ⟨decl, hdecl, hdeclName, ?_⟩
    obtain ⟨_, hotherOwn, -⟩ := exists_serviceFacts hcompile hdecl
    have hnonneg : 0 ≤ decl.instances := (Lang.compileService_ok hotherOwn).2.2.1
    have hfits := hsafe.noOverflow decl hdecl
    have hparse : parseInt (itoa decl.instances) = (decl.instances, none) :=
      parseInt_itoa (by unfold minInt64; omega) (by unfold maxInt64; omega)
    dsimp only [countIn]
    rw [hparse]
    exact Int.toNat_of_nonneg hnonneg

/-- After the commit, the sum is what the other services declare and what the file's
own services have. -/
theorem declaredSum_committed : declaredSum (before.putAll (entries facts)).toFactTable tenantName =
      declaredElsewhere before.toFactTable file tenantName +
        ∑ name ∈ (file.services.map Lang.ServiceDecl.name).toFinset,
          if ownerIn before.toFactTable name = some tenantName then
            declaredCount (before.putAll (entries facts)).toFactTable name else 0 := by
  let own := (file.services.map Lang.ServiceDecl.name).toFinset
  let names := (countedServices before.toFactTable).toFinset ∪
    (countedServices (before.putAll (entries facts)).toFactTable).toFinset ∪ own
  have hbefore : (countedServices before.toFactTable).toFinset ⊆ names :=
    fun name hname => Finset.mem_union_left _ (Finset.mem_union_left _ hname)
  have hafter : (countedServices (before.putAll (entries facts)).toFactTable).toFinset ⊆
      names :=
    fun name hname => Finset.mem_union_left _ (Finset.mem_union_right _ hname)
  rw [declaredSum_eq_sum hafter, declaredElsewhere_eq_sum hbefore,
    ← Finset.sum_filter_not_add_sum_filter names
      (fun name => name ∈ file.services.map Lang.ServiceDecl.name)]
  simp only [ownerIn_committed hsafe]
  congr 1
  · apply Finset.sum_congr rfl
    intro name hname
    rw [declaredCount_committed_of_not_mem hsafe (Finset.mem_filter.mp hname).2]
  · apply Finset.sum_congr _ fun _ _ => rfl
    ext name
    simp only [Finset.mem_filter, mem_toFinset]
    constructor
    · exact fun hname => hname.2
    · exact fun hname => ⟨Finset.mem_union_right _ (mem_toFinset.mpr hname), hname⟩

variable (hcompile : Lang.compile frontend.toSurroundings file = .ok facts)
include hcompile

theorem sum_own_of_none
    (hnone : ∀ decl ∈ file.services, ownerIn before.toFactTable decl.name = some tenantName →
      ¬0 < decl.instances) :
    ∑ name ∈ (file.services.map Lang.ServiceDecl.name).toFinset,
      (if ownerIn before.toFactTable name = some tenantName then
        declaredCount (before.putAll (entries facts)).toFactTable name else 0) = 0 := by
  apply Finset.sum_eq_zero
  intro name hname
  obtain ⟨decl, hdecl, rfl, _⟩ :=
    declaredCount_committed_of_mem hsafe hcompile (mem_toFinset.mp hname)
  split
  next howner =>
    have := hnone decl hdecl howner
    omega
  next => rfl

/-- One service of the file has all that the file's services of the tenant declare. -/
theorem sum_own_of_single (hdecl : decl ∈ file.services)
    (howner : ownerIn before.toFactTable decl.name = some tenantName)
    (hpositive : 0 < decl.instances) :
    ∑ name ∈ (file.services.map Lang.ServiceDecl.name).toFinset,
      (if ownerIn before.toFactTable name = some tenantName then
        declaredCount (before.putAll (entries facts)).toFactTable name else 0) =
      declaredCount (before.putAll (entries facts)).toFactTable decl.name := by
  rw [Finset.sum_eq_single decl.name]
  · rw [if_pos howner]
  · intro name hname hother
    obtain ⟨found, hfound, rfl, _⟩ :=
      declaredCount_committed_of_mem hsafe hcompile (mem_toFinset.mp hname)
    split
    next hfoundOwner =>
      by_contra hcounted
      have hfoundPositive : 0 < found.instances := by omega
      exact hother (hsafe.single found hfound decl hdecl hfoundOwner howner hfoundPositive
        hpositive)
    next => rfl
  · exact fun habsent => absurd (mem_toFinset.mpr (mem_map_of_mem hdecl)) habsent

end Sound

/-- A store with a tenant that may have three instances. -/
def threeForAcme : ValidTable :=
  ValidTable.new.putAll [(keyDesiredTenant (lit "acme"), []),
    (keyDesiredTenantQuotaInstances (lit "acme"), lit "3")]

/-- Services of the tenant with two instances each. -/
def acmeServices (names : List String) : Lang.File :=
  { services := names.map (fun name =>
      { name := lit "acme/" ++ lit name, image := lit "nginx", instances := 2 }) }

/-- The evaluation and commit of the services. -/
def acmeCommit (names : List String) : Except Str GateResult × ValidTable :=
  (quotaGate.evaluateAndCommit (frontendOf (acmeServices names)) .identity (lit "user:ann")
    (fun _ => []) []).eval ValidTable.perform threeForAcme

def oneServiceFacts : List Lang.Fact :=
  [⟨keyDesiredService (lit "acme/web"), []⟩, ⟨keyDesiredServiceImage (lit "acme/web"), lit "nginx"⟩,
    ⟨keyDesiredServiceInstances (lit "acme/web"), lit "2"⟩,
    ⟨keyIntentUserServiceInstances (lit "acme/web"), lit "2"⟩,
    ⟨keyEffectiveServiceInstances (lit "acme/web"), lit "2"⟩,
    ⟨keyDesiredServiceOwner (lit "acme/web"), lit "acme"⟩]

theorem serviceName_eq_of_field {field key : Str}
    (h : fieldKey scanDesiredServices serviceName field = key) :
    scanDesiredServices <+: key ∧ Str.slash :: field <:+ key ∧
      ∀ other, key = fieldKey scanDesiredServices other field → serviceName = other := by
  subst h
  refine ⟨prefix_append _ _, ⟨scanDesiredServices ++ serviceName, by simp [fieldKey]⟩, ?_⟩
  intro other heq
  exact append_cancel_right (append_cancel_left heq)

theorem quotaSafe_oneService :
    QuotaSafe quotaGate threeForAcme.toFactTable (acmeServices ["web"]) oneServiceFacts
      (lit "acme") := by
  have hactive : activeInstances threeForAcme.toFactTable (lit "acme") = 0 := by
    have hcount := @eval_countTenantInstances threeForAcme .identity (lit "acme")
    have hzero : ((countTenantInstances .identity (lit "acme")).eval ValidTable.perform
        threeForAcme).1 = 0 := by decide +kernel
    rw [hcount] at hzero
    exact Int.natCast_eq_zero.mp hzero
  have hloadable : Loadable threeForAcme.toFactTable (lit "acme") := by
    constructor <;> decide +kernel
  refine ⟨rfl, hloadable, fun serviceName value hfact => ?_, fun serviceName value hfact => ?_, ?_,
    ?_, ?_⟩
  · simp only [oneServiceFacts, mem_cons, Lang.Fact.mk.injEq, not_mem_nil, or_false]
      at hfact
    rcases hfact with ⟨hkey, -⟩ | ⟨hkey, -⟩ | ⟨hkey, -⟩ | ⟨hkey, -⟩ | ⟨hkey, -⟩ | ⟨hkey, rfl⟩
    pick_goal 6
    · rw [(serviceName_eq_of_field hkey).2.2 _ rfl]
      decide +kernel
    all_goals exact absurd (serviceName_eq_of_field hkey).2.1 (by decide)
  · simp only [oneServiceFacts, mem_cons, Lang.Fact.mk.injEq, not_mem_nil, or_false]
      at hfact
    rcases hfact with ⟨hkey, -⟩ | ⟨hkey, -⟩ | ⟨hkey, rfl⟩ | ⟨hkey, -⟩ | ⟨hkey, -⟩ | ⟨hkey, -⟩
    · exact absurd (serviceName_eq_of_field hkey).2.1 (by decide)
    · exact absurd (serviceName_eq_of_field hkey).2.1 (by decide)
    · rw [(serviceName_eq_of_field hkey).2.2 _ rfl]
      exact ⟨_, mem_singleton_self _, rfl, by decide⟩
    · exact absurd (serviceName_eq_of_field hkey).1 (by decide)
    · exact absurd (serviceName_eq_of_field hkey).1 (by decide)
    · exact absurd (serviceName_eq_of_field hkey).2.1 (by decide)
  · intro _ hfirst _ hsecond _ _ _ _
    rw [mem_singleton.mp hfirst, mem_singleton.mp hsecond]
  · exact Nat.zero_le _
  · intro _ hdecl
    rw [mem_singleton.mp hdecl, hactive]
    decide

end CCattler.Tenant
