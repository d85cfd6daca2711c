import CCattler.Tenant.Deletion

/-! # What deleting a tenant removes

Both deletions remove the stored keys of an area. They stay inside the tenant exactly if
no fact that is not the tenant's lies in it.
-/

namespace CCattler.Tenant

open Go Store CCattler.Types Concurrency List
open ValidTable (perform perform_get)
open ResourceNode (factKeys)
open Proc (eval_bind eval_pure)

theorem append_ne_append_of_apart {scan other rest otherRest : Str} (h : ¬scan <+: other)
    (hother : ¬other <+: scan) : scan ++ rest ≠ other ++ otherRest := by
  intro heq
  have hfirst : scan <+: scan ++ rest := prefix_append _ _
  rcases prefix_or_prefix_of_prefix hfirst (heq ▸ prefix_append other otherRest) with
    hstarts | hstarts
  · exact h hstarts
  · exact hother hstarts

/-! ## Loops of deletions -/

variable {key : Str}

section Loops

variable (table : ValidTable)

theorem value_deleteKeys (keys : List Str) (key : Str) :
    ((deleteKeys keys).eval perform table).2.value key =
      if key ∈ keys then none else table.value key := by
  induction keys generalizing table with
  | nil => rfl
  | cons first rest ih =>
    have hstep : (deleteKeys (first :: rest)).eval perform table =
        (deleteKeys rest).eval perform (table.after (.delete first)) := rfl
    rw [hstep, ih]
    by_cases hkey : key = first <;> simp [hkey]

/-- The stored keys below a prefix. -/
abbrev storedBelow (scanPrefix : Str) : List Str := (table.scanned scanPrefix).map Fact.key

theorem eval_keysBelow (scanPrefix : Str) : (keysBelow scanPrefix).eval perform table =
      (storedBelow table scanPrefix, table) := rfl

theorem mem_keysBelow {scanPrefix : Str} (hscan : scanPrefix ≠ []) :
    key ∈ storedBelow table scanPrefix ↔ (table.value key).isSome ∧ scanPrefix <+: key := by
  rw [mem_map, Option.isSome_iff_exists]
  constructor
  · rintro ⟨fact, hfact, rfl⟩
    obtain ⟨hbelow, hvalue⟩ :=
      (table.valid.exists_scanned_iff hscan).mp ⟨fact, hfact, rfl, rfl⟩
    exact ⟨⟨_, hvalue⟩, hbelow⟩
  · rintro ⟨⟨_, hvalue⟩, hbelow⟩
    obtain ⟨fact, hfact, hkey, -⟩ := (table.valid.exists_scanned_iff hscan).mpr ⟨hbelow, hvalue⟩
    exact ⟨fact, hfact, hkey⟩

theorem mem_filter_keysBelow {scanPrefix : Str} {p : Str → Bool} (hscan : scanPrefix ≠ []) :
    key ∈ (storedBelow table scanPrefix).filter p ↔
      (table.value key).isSome ∧ scanPrefix <+: key ∧ p key = true := by
  rw [mem_filter, mem_keysBelow table hscan, and_assoc]

theorem eval_keysBelowAll (prefixes : List Str) : (keysBelowAll prefixes).eval perform table =
      (prefixes.flatMap (storedBelow table), table) := by
  induction prefixes with
  | nil => rfl
  | cons scanPrefix rest ih =>
    simp only [keysBelowAll, eval_bind, eval_keysBelow, ih, eval_pure, flatMap_cons]

/-- The keys below the services that the code takes for ones of the tenant. -/
def ownedKeys (tenantName : Str) : List Str :=
  ((table.scanned scanDesiredServices).map Fact.key).filter
    (fun key => ownerIn table.toFactTable (serviceNameInKey key) = some tenantName)

/-- The keys of the tenant's services. -/
theorem eval_ownedServiceKeys (tenantName : Str) (facts : List Fact) :
    (ownedServiceKeys tenantName facts).eval perform table =
      ((facts.map Fact.key).filter fun key =>
        ownerIn table.toFactTable (serviceNameInKey key) = some tenantName, table) := by
  induction facts with
  | nil => rfl
  | cons fact rest ih =>
    simp only [ownedServiceKeys, eval_bind, eval_resolveTenantForService, ih,
      eval_pure, map_cons, filter_cons, decide_eq_true_eq]

end Loops

/-! ## The area of the lifecycle -/

/-- A key below the services that the code takes for one of a service of the tenant. -/
def OwnedServiceKey (table : FactTable) (tenantName key : Str) : Prop :=
  scanDesiredServices <+: key ∧ ownerIn table (serviceNameInKey key) = some tenantName

/-- A name that the code takes for a service of the tenant. -/
def OwnedName (table : FactTable) (tenantName serviceName : Str) : Prop :=
  ∃ key, (table.value key).isSome ∧ OwnedServiceKey table tenantName key ∧
    serviceNameInKey key = serviceName

/-- What `DeleteTenant` removes of what is stored, step by step. -/
def LifecycleArea (table : FactTable) (tenantName key : Str) : Prop :=
  (OwnedServiceKey table tenantName key ∨
    ∃ serviceName, OwnedName table tenantName serviceName ∧ key ∈ intentKeys serviceName) ∨
  (scanDesiredVolumes <+: key ∧
    isTenantVolumePath tenantName (key.trimPrefix scanDesiredVolumes) = true) ∨
  (prefixExport <+: key ∧ extractTenantFromName (exportedService key) = tenantName) ∨
  infraPrefix tenantName <+: key ∨
  keyDesiredTenant tenantName <+: key ∨
  ∃ resource ∈ ["cpu", "memory", "instances", "volumes"],
    key = keyObservedTenantUsage tenantName resource

variable {area : Str → Prop} {keys : List Str} {serviceName : Str}

section Lifecycle

variable {table : ValidTable} {tenantName : Str}

theorem mem_ownedKeys : key ∈ ownedKeys table tenantName ↔
    (table.value key).isSome ∧ OwnedServiceKey table.toFactTable tenantName key := by
  rw [ownedKeys, mem_filter_keysBelow table (by decide), decide_eq_true_eq, OwnedServiceKey]

theorem mem_ownedNames : serviceName ∈ ((ownedKeys table tenantName).map serviceNameInKey).dedup ↔
      OwnedName table.toFactTable tenantName serviceName := by
  simp only [mem_dedup, mem_map, mem_ownedKeys, OwnedName, and_assoc]

/-- The program removes the keys of an area and changes nothing else. -/
def Clears {α : Type} (program : StoreProgram α) (table : ValidTable) (area : Str → Prop) : Prop :=
  ∀ key, (area key → (program.eval perform table).2.value key = none) ∧
    (¬area key → (program.eval perform table).2.value key = table.value key)

theorem clears_deleteKeys (hsound : ∀ key ∈ keys, area key)
    (hcomplete : ∀ key, (table.value key).isSome → area key → key ∈ keys) :
    Clears (deleteKeys keys) table area := by
  intro key
  rw [value_deleteKeys]
  constructor
  · intro harea
    by_cases hmem : key ∈ keys
    · exact if_pos hmem
    · rw [if_neg hmem, ← Option.not_isSome_iff_eq_none]
      exact fun hsome => hmem (hcomplete key hsome harea)
  · exact fun harea => if_neg fun hmem => harea (hsound key hmem)

theorem clears_stored (h : ∀ key, key ∈ keys ↔ (table.value key).isSome ∧ area key) :
    Clears (deleteKeys keys) table area :=
  clears_deleteKeys (fun key hkey => ((h key).mp hkey).2)
    (fun key hsome harea => (h key).mpr ⟨hsome, harea⟩)

/-- Two steps clear both areas, where the second does not depend on the first. -/
theorem Clears.bind {α β : Type} {program : StoreProgram α} {next : α → StoreProgram β}
    {later : Str → Prop} (h : Clears program table area)
    (hnext : Clears (next (program.eval perform table).1) (program.eval perform table).2 later) :
    Clears (program >>= next) table (fun key => area key ∨ later key) := by
  intro key
  rw [eval_bind]
  constructor
  · intro hkey
    by_cases hlater : later key
    · exact (hnext key).1 hlater
    · rw [(hnext key).2 hlater]
      exact (h key).1 (hkey.resolve_right hlater)
  · intro hkey
    rw [(hnext key).2 fun hlater => hkey (Or.inr hlater)]
    exact (h key).2 fun harea => hkey (Or.inl harea)

theorem Clears.discard {α β : Type} {program : StoreProgram α} {value : α → β}
    (h : Clears program table area) :
    Clears (program >>= fun result => pure (value result)) table area := by
  intro key
  rw [eval_bind]
  exact h key

/-- The deletion clears the owned services and their intents. -/
theorem clears_deleteOwnedServices (order : IterationOrder) :
    Clears (deleteOwnedServices order tenantName) table (fun key =>
      OwnedServiceKey table.toFactTable tenantName key ∨
        ∃ serviceName, OwnedName table.toFactTable tenantName serviceName ∧
          key ∈ intentKeys serviceName) := by
  let names := ((ownedKeys table tenantName).map serviceNameInKey).dedup
  have heval : (deleteOwnedServices order tenantName).eval perform table = (do
        deleteKeys (ownedKeys table tenantName)
        deleteKeys ((order.visit names).flatMap intentKeys)
        return names.length : StoreProgram Nat).eval perform table := by
    have hscan : (StoreProgram.scan scanDesiredServices).eval perform table =
        (.ok (table.scanned scanDesiredServices), table) := rfl
    rw [deleteOwnedServices, eval_bind, hscan]
    simp only [eval_bind, eval_ownedServiceKeys]
    rfl
  have hintents (key : Str) : key ∈ (order.visit names).flatMap intentKeys ↔
      ∃ serviceName, OwnedName table.toFactTable tenantName serviceName ∧
        key ∈ intentKeys serviceName := by
    simp only [mem_flatMap, (order.visit_perm names).mem_iff]
    exact exists_congr fun serviceName => and_congr_left fun _ => mem_ownedNames
  intro key
  rw [heval]
  apply Clears.bind (clears_stored fun _ => mem_ownedKeys)
  apply Clears.discard
  exact clears_deleteKeys (fun key => (hintents key).mp) (fun key _ => (hintents key).mpr)

theorem clears_deleteOwnedVolumes :
    Clears (deleteOwnedVolumes tenantName) table (fun key => scanDesiredVolumes <+: key ∧
      isTenantVolumePath tenantName (key.trimPrefix scanDesiredVolumes) = true) := by
  apply Clears.discard
  exact clears_stored fun key => mem_filter_keysBelow table (by decide)

theorem clears_deleteExports :
    Clears (deleteExports tenantName) table (fun key => prefixExport <+: key ∧
      extractTenantFromName (exportedService key) = tenantName) := by
  apply Clears.discard
  apply clears_stored
  intro key
  rw [mem_filter_keysBelow _ (by decide), decide_eq_true_eq]
  rfl

theorem clears_deleteTenantInfraFacts :
    Clears (deleteTenantInfraFacts tenantName) table (fun key => infraPrefix tenantName <+: key) :=
  clears_stored fun _ => mem_keysBelow table (by simp [infraPrefix, lit])

theorem clears_deleteTenantDesiredFacts : Clears (deleteTenantDesiredFacts tenantName) table
      (fun key => keyDesiredTenant tenantName <+: key) := by
  have hmem (key : Str) := @mem_keysBelow key table (keyDesiredTenant tenantName)
    (append_ne_nil_of_left_ne_nil (by decide) _)
  refine clears_deleteKeys (fun key hkey => ?_) (fun key hsome harea => ?_)
  · rcases mem_append.mp hkey with hscanned | hmarker
    · exact ((hmem key).mp hscanned).2
    · rw [mem_singleton.mp hmarker]
  · exact mem_append_left _ ((hmem key).mpr ⟨hsome, harea⟩)

theorem clears_deleteObservedUsageFacts :
    Clears (deleteObservedUsageFacts tenantName) table (fun key =>
      ∃ resource ∈ ["cpu", "memory", "instances", "volumes"],
        key = keyObservedTenantUsage tenantName resource) := by
  refine clears_deleteKeys (fun key hkey => ?_) (fun key _ hkey => ?_)
  · simpa using hkey
  · simpa using hkey

variable (table tenantName) in
/-- The store in which the tenant is marked as being deleted. -/
def marked : ValidTable := table.after (.put (keyDesiredTenantState tenantName) Gate.tenantDeleting)

theorem value_marked_of_ne (h : key ≠ keyDesiredTenantState tenantName) :
    (marked table tenantName).toFactTable.value key = table.toFactTable.value key :=
  (table.value_after_put _ _ _).trans (if_neg h)

/-- Marking the tenant changes nothing that the services of the tenant depend on. -/
theorem ownedServiceKey_marked :
    OwnedServiceKey (marked table tenantName).toFactTable tenantName key ↔
      OwnedServiceKey table.toFactTable tenantName key := by
  have howner (serviceName : Str) : ownerIn (marked table tenantName).toFactTable serviceName =
      ownerIn table.toFactTable serviceName := by
    have hne : keyDesiredServiceOwner serviceName ≠ keyDesiredTenantState tenantName :=
      append_ne_append_of_apart (by decide) (by decide)
    rw [ownerIn, value_marked_of_ne hne, ownerIn]
  rw [OwnedServiceKey, OwnedServiceKey, howner]

theorem ownedName_marked : OwnedName (marked table tenantName).toFactTable tenantName serviceName ↔
      OwnedName table.toFactTable tenantName serviceName := by
  refine exists_congr fun key => ?_
  rw [ownedServiceKey_marked]
  refine and_congr_left fun howned => ?_
  obtain ⟨_, hkey⟩ := howned.1.1
  have hne : key ≠ keyDesiredTenantState tenantName := by
    rw [← hkey]
    exact append_ne_append_of_apart (by decide) (by decide)
  rw [value_marked_of_ne hne]

theorem lifecycleArea_marked : LifecycleArea (marked table tenantName).toFactTable tenantName key ↔
      LifecycleArea table.toFactTable tenantName key := by
  simp only [LifecycleArea, ownedServiceKey_marked, ownedName_marked]

variable (order : IterationOrder)

theorem clears_deleteOwned : Clears (deleteOwned order tenantName) table
      (LifecycleArea table.toFactTable tenantName) := by
  apply Clears.bind (clears_deleteOwnedServices order)
  apply Clears.bind clears_deleteOwnedVolumes
  apply Clears.bind clears_deleteExports
  apply Clears.bind clears_deleteTenantInfraFacts
  apply Clears.bind clears_deleteTenantDesiredFacts
  apply Clears.discard
  exact clears_deleteObservedUsageFacts

theorem clears_deleteTenant (hfound : (table.value (keyDesiredTenant tenantName)).isSome) :
    Clears (deleteTenant order tenantName) table (LifecycleArea table.toFactTable tenantName) := by
  have heval : ((deleteTenant order tenantName).eval perform table).2 =
      ((deleteOwned order tenantName).eval perform (marked table tenantName)).2 := by
    rw [FactTable.value_isSome] at hfound
    obtain ⟨_, hread⟩ := Option.isSome_iff_exists.mp hfound
    simp only [deleteTenant, StoreProgram.get, eval_bind, Proc.eval_request, perform_get, hread]
    rfl
  intro key
  rw [heval]
  constructor
  · exact fun harea => (clears_deleteOwned order key).1 (lifecycleArea_marked.mpr harea)
  · intro harea
    refine ((clears_deleteOwned order key).2 fun h => harea (lifecycleArea_marked.mp h)).trans ?_
    apply value_marked_of_ne
    intro hstate
    apply harea
    rw [hstate]
    have hbelow : keyDesiredTenant tenantName <+: keyDesiredTenantState tenantName :=
      ⟨Str.slash :: lit "state", rfl⟩
    exact Or.inr (Or.inr (Or.inr (Or.inr (Or.inl hbelow))))

theorem deleteTenant_of_absent (habsent : ¬(table.value (keyDesiredTenant tenantName)).isSome) :
    ((deleteTenant order tenantName).eval perform table).2 = table := by
  rw [FactTable.value_isSome, Option.not_isSome_iff_eq_none] at habsent
  simp only [deleteTenant, StoreProgram.get, eval_bind, Proc.eval_request, perform_get, habsent]
  rfl

end Lifecycle

/-! ## The area of the garbage collector -/

/-- The instance belongs to a service that the code takes for one of the tenant. -/
def OwnedInstance (table : FactTable) (tenantName instanceID : Str) : Prop :=
  Str.slash ∉ instanceID ∧ ∃ serviceName,
    table.value (keyObservedInstanceService instanceID) = some serviceName ∧
      OwnedName table tenantName serviceName

/-- What `DeleteTenantResources` removes of what is stored, level by level. -/
def CollectorArea (table : FactTable) (tenantName key : Str) : Prop :=
  (key = keyDesiredTenant tenantName ∨ keyDesiredTenant tenantName ++ lit "/" <+: key ∨
    prefixObservedTenant ++ tenantName ++ lit "/" <+: key ∨ infraPrefix tenantName <+: key) ∨
  (OwnedServiceKey table tenantName key ∨ (∃ serviceName, OwnedName table tenantName serviceName ∧
      ∃ scan ∈ servicePrefixes serviceName, scan <+: key) ∨
    (scanDesiredVolumes <+: key ∧ firstSegment (key.trimPrefix scanDesiredVolumes) = tenantName)) ∨
  (∃ instanceID, OwnedInstance table tenantName instanceID ∧
    (fieldKey scanObservedInstances instanceID [] <+: key ∨ (scanDerivedInstances <+: key ∧
        firstSegment (key.trimPrefix scanDerivedInstances) = instanceID))) ∨
  (∃ serviceName, OwnedName table tenantName serviceName ∧
    scanEndpoints ++ serviceName ++ lit "/" <+: key) ∨
  (scanPlacements <+: key ∧
    OwnedInstance table tenantName (firstSegment (key.trimPrefix scanPlacements)))

/-- The collector finds facts below the tenant. -/
def RootFound (table : FactTable) (tenantName : Str) : Prop :=
  ∃ key, (table.value key).isSome ∧ keyDesiredTenant tenantName ++ lit "/" <+: key

section Collector

variable {table : ValidTable} {tenantName : Str}

/-- The program reads only and finds the stored keys of an area. -/
structure Finds (program : StoreProgram (List ResourceNode)) (table : ValidTable)
    (area : Str → Prop) : Prop where
  reads : (program.eval perform table).2 = table
  keys : ∀ key, key ∈ ((program.eval perform table).1).flatMap factKeys ↔
    (table.value key).isSome ∧ area key

theorem Finds.exists_nodes {program : StoreProgram (List ResourceNode)}
    (h : Finds program table area) :
    ∃ nodes, program.eval perform table = (nodes, table) ∧
      ∀ key, key ∈ nodes.flatMap factKeys ↔ (table.value key).isSome ∧ area key :=
  ⟨_, Prod.ext rfl h.reads, h.keys⟩

theorem mem_unlessEmpty [Decidable (keys = [])] {resourceType : ResourceType} {resourceName : Str} :
    key ∈ (if keys = [] then [] else [⟨resourceType, resourceName, keys⟩]).flatMap
      factKeys ↔ key ∈ keys := by
  by_cases hempty : keys = [] <;> simp [hempty]

theorem scanned_root_ne_nil : keyDesiredTenant tenantName ++ lit "/" ≠ [] := by
  simp [lit]

theorem rootFound_iff : RootFound table.toFactTable tenantName ↔
    storedBelow table (keyDesiredTenant tenantName ++ lit "/") ≠ [] := by
  constructor
  · intro ⟨key, hkey⟩
    exact ne_nil_of_mem ((mem_keysBelow table scanned_root_ne_nil).mpr hkey)
  · intro hne
    obtain ⟨key, hkey⟩ := exists_mem_of_ne_nil _ hne
    exact ⟨key, (mem_keysBelow table scanned_root_ne_nil).mp hkey⟩

/-- The root level: the tenant's own keys. -/
theorem finds_root (hroot : RootFound table.toFactTable tenantName) :
    Finds (discoverTenantRootKeys tenantName) table (fun key => key = keyDesiredTenant tenantName ∨
      keyDesiredTenant tenantName ++ lit "/" <+: key ∨
      prefixObservedTenant ++ tenantName ++ lit "/" <+: key ∨ infraPrefix tenantName <+: key) ∧
    ((discoverTenantRootKeys tenantName).eval perform table).1 ≠ [] := by
  have hdesired := rootFound_iff.mp hroot
  have hmarker (key : Str) : key ∈ markerKeys tenantName
      (perform (.get (keyDesiredTenant tenantName)) table).1 ↔
        (table.value key).isSome ∧ key = keyDesiredTenant tenantName := by
    rw [perform_get, and_comm]
    cases hread : table.facts (keyDesiredTenant tenantName) with
    | none => simp +contextual [markerKeys, hread]
    | some fact => simp +contextual [markerKeys, hread]
  have heval : (discoverTenantRootKeys tenantName).eval perform table =
      ([⟨.tenant, tenantName, markerKeys tenantName
          (perform (.get (keyDesiredTenant tenantName)) table).1 ++
        storedBelow table (keyDesiredTenant tenantName ++ lit "/") ++
        storedBelow table (prefixObservedTenant ++ tenantName ++ lit "/") ++
        storedBelow table (infraPrefix tenantName)⟩], table) := by
    rw [discoverTenantRootKeys, eval_bind, eval_keysBelow, if_neg hdesired]
    rfl
  rw [heval]
  refine ⟨⟨by rw [heval], fun key => ?_⟩, cons_ne_nil _ _⟩
  rw [heval]
  simp only [flatMap_cons, flatMap_nil, append_nil, mem_append, hmarker,
    mem_keysBelow table (@scanned_root_ne_nil tenantName),
    @mem_keysBelow key table (prefixObservedTenant ++ tenantName ++ lit "/")
      (by simp [lit]),
    @mem_keysBelow key table (infraPrefix tenantName) (by simp [infraPrefix, lit])]
  tauto

theorem eval_serviceNodes (ownedKeys names : List Str) :
    (serviceNodes ownedKeys names).eval perform table =
      (names.map (fun serviceName => ⟨.service, serviceName,
        ownedKeys.filter (fun key => serviceNameInKey key = serviceName) ++
          (servicePrefixes serviceName).flatMap (storedBelow table)⟩), table) := by
  induction names with
  | nil => rfl
  | cons serviceName rest ih =>
    simp only [serviceNodes, eval_bind, eval_keysBelowAll, ih, eval_pure, map_cons]

theorem servicePrefixes_ne_nil {scan : Str} (h : scan ∈ servicePrefixes serviceName) :
    scan ≠ [] := by
  simp only [servicePrefixes, mem_cons, not_mem_nil, or_false] at h
  rcases h with rfl | rfl | rfl | rfl | rfl <;>
    exact append_ne_nil_of_left_ne_nil (by decide) _

variable (order : IterationOrder)

/-- The second level: keys of owned services and of volumes. -/
theorem finds_children : Finds (discoverDirectChildren order tenantName) table (fun key =>
      OwnedServiceKey table.toFactTable tenantName key ∨
      (∃ serviceName, OwnedName table.toFactTable tenantName serviceName ∧
        ∃ scan ∈ servicePrefixes serviceName, scan <+: key) ∨
      (scanDesiredVolumes <+: key ∧
        firstSegment (key.trimPrefix scanDesiredVolumes) = tenantName)) ∧
    ∀ serviceName, serviceName ∈ namesOf .service
        ((discoverDirectChildren order tenantName).eval perform table).1 ↔
      OwnedName table.toFactTable tenantName serviceName := by
  let names := order.visit ((ownedKeys table tenantName).map serviceNameInKey).dedup
  let volumeKeys := (storedBelow table scanDesiredVolumes).filter
    (fun key => firstSegment (key.trimPrefix scanDesiredVolumes) = tenantName)
  have hnames (serviceName : Str) :
      serviceName ∈ names ↔ OwnedName table.toFactTable tenantName serviceName := by
    rw [(order.visit_perm _).mem_iff]
    exact mem_ownedNames
  have heval : (discoverDirectChildren order tenantName).eval perform table =
      (names.map (fun serviceName => ⟨.service, serviceName,
        (ownedKeys table tenantName).filter (fun key => serviceNameInKey key = serviceName) ++
          (servicePrefixes serviceName).flatMap (storedBelow table)⟩) ++
        (if volumeKeys = [] then [] else [⟨.volume, tenantName, volumeKeys⟩]), table) := by
    have hscan : (StoreProgram.scan scanDesiredServices).eval perform table =
        (.ok (table.scanned scanDesiredServices), table) := rfl
    simp only [discoverDirectChildren, eval_bind, hscan, scannedFacts, eval_ownedServiceKeys,
      eval_serviceNodes, eval_pure]
    rfl
  refine ⟨⟨by rw [heval], fun key => ?_⟩, fun serviceName => ?_⟩
  · rw [heval]
    have hvolumes : key ∈ (if volumeKeys = [] then ([] : List ResourceNode)
        else [⟨.volume, tenantName, volumeKeys⟩]).flatMap factKeys ↔
        (table.value key).isSome ∧ scanDesiredVolumes <+: key ∧
          firstSegment (key.trimPrefix scanDesiredVolumes) = tenantName := by
      rw [mem_unlessEmpty, mem_filter_keysBelow table (by decide), decide_eq_true_eq]
    have hbelow (serviceName : Str) : key ∈ (servicePrefixes serviceName).flatMap
        (storedBelow table) ↔
        (table.value key).isSome ∧ ∃ scan ∈ servicePrefixes serviceName, scan <+: key := by
      rw [mem_flatMap, ← exists_and_left]
      refine exists_congr fun scan => ?_
      rw [and_left_comm]
      exact and_congr_right fun hscan => mem_keysBelow table (servicePrefixes_ne_nil hscan)
    rw [flatMap_append, mem_append, hvolumes]
    simp only [flatMap_map, mem_flatMap, mem_append, hnames]
    simp only [← mem_flatMap, hbelow, mem_filter, decide_eq_true_eq]
    constructor
    · rintro (⟨serviceName, howned, ⟨hmem, -⟩ | ⟨hsome, hscans⟩⟩ | ⟨hsome, hvolume⟩)
      · have hkey := mem_ownedKeys.mp hmem
        exact ⟨hkey.1, Or.inl hkey.2⟩
      · exact ⟨hsome, Or.inr (Or.inl ⟨serviceName, howned, hscans⟩)⟩
      · exact ⟨hsome, Or.inr (Or.inr hvolume)⟩
    · rintro ⟨hsome, howned | ⟨serviceName, howned, hscans⟩ | hvolume⟩
      · exact Or.inl ⟨serviceNameInKey key, ⟨key, hsome, howned, rfl⟩,
          Or.inl ⟨mem_ownedKeys.mpr ⟨hsome, howned⟩, rfl⟩⟩
      · exact Or.inl ⟨serviceName, howned, Or.inr ⟨hsome, hscans⟩⟩
      · exact Or.inr ⟨hsome, hvolume⟩
  · rw [heval, ← hnames]
    have hvolume : namesOf .service (if volumeKeys = [] then ([] : List ResourceNode)
        else [⟨.volume, tenantName, volumeKeys⟩]) = [] := by
      by_cases hempty : volumeKeys = [] <;> simp [namesOf]
    have hservices (keys : Str → List Str) : namesOf .service (names.map (fun serviceName =>
        (⟨.service, serviceName, keys serviceName⟩ : ResourceNode))) = names := by
      simp [namesOf, filter_map, Function.comp_def]
    have hsplit (first second : List ResourceNode) : namesOf .service (first ++ second) =
        namesOf .service first ++ namesOf .service second := by
      simp [namesOf]
    rw [hsplit, hservices, hvolume, append_nil]

theorem instanceKeyOf_eq_some {instanceID found : Str} (hkey : scanObservedInstances <+: key) :
    instanceKeyOf key = some (instanceID, found) ↔
      found = key ∧ Str.slash ∉ instanceID ∧
        fieldKey scanObservedInstances instanceID [] <+: key := by
  obtain ⟨rest, rfl⟩ := hkey
  have hfield (part : Str) : fieldKey scanObservedInstances part [] <+:
      scanObservedInstances ++ rest ↔ part ++ [Str.slash] <+: rest := by
    rw [fieldKey, prefix_append_right_inj]
  rw [instanceKeyOf, Str.trimPrefix_append, hfield]
  constructor
  · intro h
    split at h
    next _ last hsplit =>
      obtain ⟨rfl, hfirst⟩ := Str.splitN_two_iff.mp hsplit
      obtain ⟨hid, hfound⟩ := Prod.mk.inj (Option.some.inj h)
      subst hid
      exact ⟨hfound.symm, hfirst, ⟨last, by simp⟩⟩
    next => cases h
  · rintro ⟨hfound, hslash, last, hlast⟩
    have hrest : rest = instanceID ++ Str.slash :: last := by
      rw [← hlast, append_assoc, singleton_append]
    rw [Str.splitN_two_iff.mpr ⟨hrest, hslash⟩, hfound]

theorem mem_instanceNode {instanceID : Str} (hslash : Str.slash ∉ instanceID) :
    key ∈ (instanceNode (storedBelow table scanObservedInstances)
        (storedBelow table scanDerivedInstances) instanceID).factKeys ↔
      (table.value key).isSome ∧ (fieldKey scanObservedInstances instanceID [] <+: key ∨
        (scanDerivedInstances <+: key ∧
          firstSegment (key.trimPrefix scanDerivedInstances) = instanceID)) := by
  have hobserved : key ∈ ((storedBelow table scanObservedInstances).filterMap
      instanceKeyOf).filterMap (fun found => if found.1 = instanceID then some found.2 else none) ↔
      (table.value key).isSome ∧ fieldKey scanObservedInstances instanceID [] <+: key := by
    simp only [mem_filterMap, Option.ite_none_right_eq_some, Option.some.injEq, Prod.exists]
    constructor
    · rintro ⟨_, _, ⟨_, hstored, hsplit⟩, rfl, rfl⟩
      obtain ⟨hsome, hbelow⟩ := (mem_keysBelow table (by decide)).mp hstored
      obtain ⟨rfl, -, hfield⟩ := (instanceKeyOf_eq_some hbelow).mp hsplit
      exact ⟨hsome, hfield⟩
    · intro ⟨hsome, hfield⟩
      have hbelow : scanObservedInstances <+: key :=
        List.IsPrefix.trans (prefix_append _ _) hfield
      exact ⟨_, _, ⟨key, (mem_keysBelow table (by decide)).mpr ⟨hsome, hbelow⟩,
        (instanceKeyOf_eq_some hbelow).mpr ⟨rfl, hslash, hfield⟩⟩, rfl, rfl⟩
  rw [instanceNode, mem_append, mem_filter, mem_keysBelow table (by decide), decide_eq_true_eq]
  tauto

/-- The third level: keys of owned instances. -/
theorem finds_instances {serviceNames : List Str}
    (hnames : ∀ serviceName, serviceName ∈ serviceNames ↔
      OwnedName table.toFactTable tenantName serviceName) :
    Finds (discoverInstances order serviceNames) table (fun key =>
      ∃ instanceID, OwnedInstance table.toFactTable tenantName instanceID ∧
        (fieldKey scanObservedInstances instanceID [] <+: key ∨ (scanDerivedInstances <+: key ∧
            firstSegment (key.trimPrefix scanDerivedInstances) = instanceID))) ∧
    ∀ instanceID, instanceID ∈ namesOf .serviceInstance
        ((discoverInstances order serviceNames).eval perform table).1 ↔
      OwnedInstance table.toFactTable tenantName instanceID := by
  let services := instanceValues (table.scanned scanObservedInstances) (lit "service")
  let ids := (order.visit services.keys).filter
    (fun instanceID => services.get instanceID [] ∈ serviceNames)
  let observed := storedBelow table scanObservedInstances
  let derived := storedBelow table scanDerivedInstances
  have heval : (discoverInstances order serviceNames).eval perform table =
      (ids.map (instanceNode observed derived), table) := by
    rw [discoverInstances]
    split
    next hempty =>
      have hnone : ids = [] := by simp [ids, hempty]
      rw [hnone]
      rfl
    next => rfl
  have hids (instanceID : Str) :
      instanceID ∈ ids ↔ OwnedInstance table.toFactTable tenantName instanceID := by
    rw [mem_filter, (order.visit_perm _).mem_iff, mem_keys_instanceValues, decide_eq_true_eq]
    have hget (hslash : Str.slash ∉ instanceID) {value : Str} (hvalue : table.value
        (fieldKey scanObservedInstances instanceID (lit "service")) = some value) :
        services.get instanceID [] = value :=
      congrArg (Option.getD · []) ((lookup_instanceValues _ _ hslash).trans hvalue)
    constructor
    · intro ⟨⟨hslash, value, hvalue⟩, hmem⟩
      rw [hget hslash hvalue] at hmem
      exact ⟨hslash, value, hvalue, (hnames value).mp hmem⟩
    · intro ⟨hslash, value, hvalue, howned⟩
      rw [hget hslash hvalue]
      exact ⟨⟨hslash, value, hvalue⟩, (hnames value).mpr howned⟩
  refine ⟨⟨by rw [heval], fun key => ?_⟩, fun instanceID => ?_⟩
  · rw [heval, flatMap_map, mem_flatMap]
    constructor
    · intro ⟨instanceID, hid, hmem⟩
      have howned := (hids instanceID).mp hid
      obtain ⟨hsome, hkey⟩ := (mem_instanceNode howned.1).mp hmem
      exact ⟨hsome, instanceID, howned, hkey⟩
    · intro ⟨hsome, instanceID, howned, hkey⟩
      exact ⟨instanceID, (hids instanceID).mpr howned,
        (mem_instanceNode howned.1).mpr ⟨hsome, hkey⟩⟩
  · rw [heval, ← hids]
    simp [namesOf, filter_map, instanceNode]

theorem finds_endpoints (names : List Str) : Finds (endpointNodes names) table (fun key =>
      ∃ serviceName ∈ names, scanEndpoints ++ serviceName ++ lit "/" <+: key) := by
  induction names with
  | nil => exact ⟨rfl, fun key => by simp [endpointNodes]⟩
  | cons serviceName rest ih =>
    have hscan : scanEndpoints ++ serviceName ++ lit "/" ≠ [] := by simp [lit]
    have heval : (endpointNodes (serviceName :: rest)).eval perform table =
        ((if storedBelow table (scanEndpoints ++ serviceName ++ lit "/") = [] then []
          else [⟨.endpoint, serviceName,
            storedBelow table (scanEndpoints ++ serviceName ++ lit "/")⟩]) ++
          ((endpointNodes rest).eval perform table).1, table) := by
      simp only [endpointNodes, eval_bind, eval_keysBelow, ih.reads]
      rfl
    refine ⟨by rw [heval], fun key => ?_⟩
    rw [heval, flatMap_append, mem_append, mem_unlessEmpty, mem_keysBelow table hscan, ih.keys]
    simp only [exists_mem_cons_iff]
    tauto

/-- The last level: endpoints and placements. -/
theorem finds_leaves (serviceNames instanceIDs : List Str) :
    Finds (discoverLeafResources order serviceNames instanceIDs) table (fun key =>
      (∃ serviceName ∈ serviceNames, scanEndpoints ++ serviceName ++ lit "/" <+: key) ∨
        (scanPlacements <+: key ∧ firstSegment (key.trimPrefix scanPlacements) ∈ instanceIDs)) := by
  have hendpoints := @finds_endpoints table (order.visit serviceNames)
  have heval : (discoverLeafResources order serviceNames instanceIDs).eval perform
      table = (((endpointNodes (order.visit serviceNames)).eval perform table).1 ++
        ((storedBelow table scanPlacements).filter
          (fun key => firstSegment (key.trimPrefix scanPlacements) ∈ instanceIDs)).map
            (fun key => ⟨.placement, firstSegment (key.trimPrefix scanPlacements), [key]⟩),
        table) := by
    simp only [discoverLeafResources, eval_bind, hendpoints.reads, eval_keysBelow, eval_pure]
  refine ⟨by rw [heval], fun key => ?_⟩
  have hplacements : key ∈ ((storedBelow table scanPlacements).filter
      (fun key => firstSegment (key.trimPrefix scanPlacements) ∈ instanceIDs)).flatMap
        (fun key => [key]) ↔ (table.value key).isSome ∧ scanPlacements <+: key ∧
          firstSegment (key.trimPrefix scanPlacements) ∈ instanceIDs := by
    rw [flatMap_singleton', mem_filter_keysBelow table (by decide), decide_eq_true_eq]
  rw [heval, flatMap_append, mem_append, hendpoints.keys, flatMap_map, hplacements]
  simp only [(order.visit_perm serviceNames).mem_iff]
  exact and_or_left.symm

theorem mem_levels {root children instances leaves : List ResourceNode} :
    key ∈ (([root] ++ [children, instances, leaves].filter (· ≠ [])).reverse.flatten).flatMap
        factKeys ↔
      key ∈ root.flatMap factKeys ∨ key ∈ children.flatMap factKeys ∨
        key ∈ instances.flatMap factKeys ∨
        key ∈ leaves.flatMap factKeys := by
  have hperm := (reverse_perm ([root] ++ [children, instances, leaves].filter (· ≠ []))).flatten
  rw [(hperm.flatMap_right factKeys).mem_iff, flatten_append, flatten_filter_ne_nil]
  simp

theorem clears_deleteTenantResources (hroot : RootFound table.toFactTable tenantName) :
    Clears (deleteTenantResources order tenantName) table
      (CollectorArea table.toFactTable tenantName) := by
  obtain ⟨hfinds, hsome⟩ := finds_root hroot
  obtain ⟨hchildren, hservices⟩ := @finds_children table tenantName order
  obtain ⟨root, hrootEval, hrootKeys⟩ := hfinds.exists_nodes
  obtain ⟨children, hchildrenEval, hchildrenKeys⟩ := hchildren.exists_nodes
  rw [hrootEval] at hsome
  rw [hchildrenEval] at hservices
  obtain ⟨hfound, hids⟩ := finds_instances order hservices
  obtain ⟨instances, hinstancesEval, hinstancesKeys⟩ := hfound.exists_nodes
  rw [hinstancesEval] at hids
  obtain ⟨leaves, hleavesEval, hleavesKeys⟩ :=
    (@finds_leaves table order (namesOf .service children)
      (namesOf .serviceInstance instances)).exists_nodes
  simp only [hservices, hids] at hleavesKeys
  have hcollect : (collectTenantResources order tenantName).eval perform table =
      ([root] ++ [children, instances, leaves].filter (· ≠ []), table) := by
    rw [collectTenantResources, eval_bind, hrootEval, if_neg hsome]
    simp only [eval_bind, hchildrenEval, hinstancesEval, hleavesEval, eval_pure]
  have hmem (key : Str) :
      key ∈ (([root] ++ [children, instances, leaves].filter (· ≠ [])).reverse.flatten).flatMap
          factKeys ↔
        (table.value key).isSome ∧ CollectorArea table.toFactTable tenantName key := by
    rw [mem_levels, hrootKeys, hchildrenKeys, hinstancesKeys, hleavesKeys]
    simp only [CollectorArea, and_or_left]
  intro key
  rw [deleteTenantResources, eval_bind, hcollect]
  exact (clears_stored hmem).discard key

theorem deleteTenantResources_of_absent (hroot : ¬RootFound table.toFactTable tenantName) :
    ((deleteTenantResources order tenantName).eval perform table).2 = table := by
  have hnone : storedBelow table (keyDesiredTenant tenantName ++ lit "/") = [] := by
    by_contra hne
    exact hroot (rootFound_iff.mpr hne)
  have heval : (discoverTenantRootKeys tenantName).eval perform table = ([], table) := by
    rw [discoverTenantRootKeys, eval_bind, eval_keysBelow, if_pos hnone]
    rfl
  have hcollect : (collectTenantResources order tenantName).eval perform table = ([], table) := by
    rw [collectTenantResources, eval_bind, heval]
    rfl
  rw [deleteTenantResources, eval_bind, hcollect]
  rfl

end Collector

/-! ## What belongs to a tenant -/

/-- The key is a name below a prefix, alone or followed by a slash. -/
def UnderName (scan name key : Str) : Prop :=
  key = scan ++ name ∨ scan ++ name ++ lit "/" <+: key

/-- The name is the longest of those declared that the key is under. -/
structure NamedBy (declared : Str → Prop) (scan key name : Str) : Prop where
  known : declared name
  under : UnderName scan name key
  longest : ∀ other, declared other → UnderName scan other key → other.length ≤ name.length

/-- The prefixes of the facts of tenants, of services and of instances. -/
def tenantScans : List Str := [scanDesiredTenants, prefixObservedTenant, lit "tenant/"]

@[inherit_doc tenantScans]
def serviceFactScans : List Str :=
  [scanDesiredServices, scanEffectiveServices, scanIntentUserServices, scanIntentAutoscalerServices,
    scanDerivedServices, scanObservedServices, scanEndpoints, prefixExport]

@[inherit_doc tenantScans]
def instanceFactScans : List Str := [scanObservedInstances, scanDerivedInstances, scanPlacements]

/-- The service is declared and owned by the tenant. -/
def OwnsService (table : FactTable) (tenantName serviceName : Str) : Prop :=
  (table.value (keyDesiredService serviceName)).isSome ∧ ownerIn table serviceName = some tenantName

/-- A fact of the tenant, of what it owns, or of an instance of its services. -/
inductive Belongs (table : FactTable) (tenantName key : Str) : Prop
  | tenant (scan : Str) (hscan : scan ∈ tenantScans)
      (h : NamedBy (fun name => name = tenantName ∨ (table.value (keyDesiredTenant name)).isSome)
        scan key tenantName)
  | service (scan : Str) (hscan : scan ∈ serviceFactScans) (serviceName : Str)
      (h : NamedBy (fun name => (table.value (keyDesiredService name)).isSome) scan key serviceName)
      (howner : OwnsService table tenantName serviceName)
  | volume (volumeName : Str)
      (h : NamedBy (fun name => (table.value (keyDesiredVolume name)).isSome) scanDesiredVolumes key
        volumeName) (howner : nameOwner volumeName = some tenantName)
  | ofInstance (scan : Str) (hscan : scan ∈ instanceFactScans) (instanceID serviceName : Str)
      (hslash : Str.slash ∉ instanceID) (h : UnderName scan instanceID key)
      (hservice : table.value (keyObservedInstanceService instanceID) = some serviceName)
      (howner : OwnsService table tenantName serviceName)

/-- What does not belong to the tenant is unchanged. -/
def StaysInside (before after : FactTable) (tenantName : Str) : Prop :=
  ∀ key, ¬Belongs before tenantName key → after.value key = before.value key

/-- No stored fact that is not the tenant's lies in the area of a deletion that finds
the tenant. -/
def NothingForeignInArea (before : FactTable) (tenantName : Str) : Prop :=
  ∀ key, (before.value key).isSome →
    ((before.value (keyDesiredTenant tenantName)).isSome ∧ LifecycleArea before tenantName key ∨
      RootFound before tenantName ∧ CollectorArea before tenantName key) →
    Belongs before tenantName key

section

variable {α : Type} {program : StoreProgram α} {before : ValidTable}

/-- A clearing stays inside iff its area belongs. -/
theorem staysInside_iff_of_clears {tenantName : Str} (h : Clears program before area) :
    StaysInside before.toFactTable (program.eval perform before).2.toFactTable tenantName ↔
      ∀ key, (before.value key).isSome → area key → Belongs before.toFactTable tenantName key := by
  constructor
  · intro hinside key hsome harea
    by_contra hforeign
    have hsame : (program.eval perform before).2.value key = before.value key :=
      hinside key hforeign
    rw [(h key).1 harea] at hsame
    rw [← hsame] at hsome
    cases hsome
  · intro harea key hforeign
    by_cases hkey : area key
    · rw [(h key).1 hkey]
      by_contra hne
      have hsome : (before.value key).isSome := by
        rw [Option.isSome_iff_ne_none]
        exact Ne.symm hne
      exact hforeign (harea key hsome hkey)
    · exact (h key).2 hkey

theorem staysInside_iff_of_found {found : Prop} {tenantName : Str}
    (h : found → Clears program before area)
    (habsent : ¬found → (program.eval perform before).2 = before) :
    StaysInside before.toFactTable (program.eval perform before).2.toFactTable tenantName ↔
      ∀ key, (before.toFactTable.value key).isSome → found ∧ area key →
        Belongs before.toFactTable tenantName key := by
  by_cases hfound : found
  · rw [staysInside_iff_of_clears (h hfound)]
    exact forall_congr' fun key => imp_congr_right fun _ =>
      ⟨fun h harea => h harea.2, fun h harea => h ⟨hfound, harea⟩⟩
  · rw [habsent hfound]
    exact iff_of_true (fun _ _ => rfl) fun _ _ harea => absurd harea.1 hfound

end

/-- Deletions leave what is not the tenant's exactly if nothing of it is in their areas. -/
theorem deletion_stays_inside_iff (order : IterationOrder) (before : ValidTable)
    (tenantName : Str) :
    (StaysInside before.toFactTable
        ((deleteTenant order tenantName).eval perform before).2.toFactTable tenantName ∧
      StaysInside before.toFactTable
        ((deleteTenantResources order tenantName).eval perform before).2.toFactTable
          tenantName) ↔ NothingForeignInArea before.toFactTable tenantName := by
  rw [staysInside_iff_of_found (clears_deleteTenant order) (deleteTenant_of_absent order),
    staysInside_iff_of_found (clears_deleteTenantResources order) (deleteTenantResources_of_absent
    order)]
  constructor
  · intro ⟨hfirst, hsecond⟩ key hsome harea
    rcases harea with h | h
    · exact hfirst key hsome h
    · exact hsecond key hsome h
  · intro h
    exact ⟨fun key hsome harea => h key hsome (Or.inl harea),
      fun key hsome harea => h key hsome (Or.inr harea)⟩

theorem UnderName.starts {scan name : Str} (h : UnderName scan name key) : scan <+: key := by
  rcases h with heq | ⟨rest, heq⟩
  · exact ⟨name, heq.symm⟩
  · exact ⟨name ++ lit "/" ++ rest, by simpa using heq⟩

/-- Deleting a tenant deletes another whose name starts with the same characters. -/
theorem acme_deletes_acme2 :
    let before := ValidTable.new.putAll [(keyDesiredTenant (lit "acme"), []),
      (keyDesiredTenant (lit "acme2"), []), (keyDesiredTenantQuotaInstances (lit "acme2"), lit "3")]
    let after := ((deleteTenant .identity (lit "acme")).eval perform before).2
    ¬Belongs before.toFactTable (lit "acme") (keyDesiredTenantQuotaInstances (lit "acme2")) ∧
      before.value (keyDesiredTenantQuotaInstances (lit "acme2")) = some (lit "3") ∧
      after.value (keyDesiredTenantQuotaInstances (lit "acme2")) = none ∧
      after.value (keyDesiredTenant (lit "acme2")) = none := by
  refine ⟨fun hbelongs => ?_, by decide +kernel⟩
  cases hbelongs with
  | tenant scan hscan h =>
    have hunder := h.under
    simp only [tenantScans, mem_cons, not_mem_nil, or_false] at hscan
    rcases hscan with rfl | rfl | rfl
    · rcases hunder with heq | hstarts
      · exact absurd heq (by decide)
      · exact absurd hstarts (by decide)
    · exact absurd hunder.starts (by decide)
    · exact absurd hunder.starts (by decide)
  | service scan hscan serviceName h =>
    have hnone : ∀ scan ∈ serviceFactScans,
        ¬scan <+: keyDesiredTenantQuotaInstances (lit "acme2") := by decide
    exact hnone scan hscan h.under.starts
  | volume volumeName h => exact absurd h.under.starts (by decide)
  | ofInstance scan hscan instanceID serviceName hslash h =>
    have hnone : ∀ scan ∈ instanceFactScans,
        ¬scan <+: keyDesiredTenantQuotaInstances (lit "acme2") := by decide
    exact hnone scan hscan h.starts

end CCattler.Tenant
