import CCattler.Lang.CompilerLaws

/-! # Where a declaration writes

Every declaration writes below the prefixes of its kind and under its name, so facts of
different kinds or names never meet unless one name is a path below the other.
-/

namespace CCattler.Lang

open Go CCattler.Types

/-- The key is a name below one of the prefixes, alone or followed by a slash. -/
def Under (scans : List Str) (name key : Str) : Prop :=
  ∃ scan ∈ scans, ∃ rest, key = scan ++ (name ++ rest) ∧ (rest = [] ∨ rest.head? = some Str.slash)

/-- All facts are under a name. -/
def FactsUnder (scans : List Str) (name : Str) (facts : List Fact) : Prop :=
  ∀ fact ∈ facts, Under scans name fact.key

variable {scan field : Str}

variable {key : Str} {facts : List Fact}

section Rules

variable {scans : List Str} {name : Str}

theorem under_root (h : scan ∈ scans) : Under scans name (scan ++ name) :=
  ⟨scan, h, [], by rw [List.append_nil], Or.inl rfl⟩

theorem under_field (h : scan ∈ scans) : Under scans name (fieldKey scan name field) :=
  ⟨scan, h, Str.slash :: field, rfl, Or.inr rfl⟩

theorem factsUnder_nil : FactsUnder scans name [] := fun _ h => nomatch h

theorem FactsUnder.cons {value : Str} (hkey : Under scans name key)
    (hfacts : FactsUnder scans name facts) : FactsUnder scans name (⟨key, value⟩ :: facts) := by
  intro fact hfact
  rcases List.mem_cons.mp hfact with heq | hmem
  · rw [heq]
    exact hkey
  · exact hfacts fact hmem

theorem FactsUnder.append {first second : List Fact} (hfirst : FactsUnder scans name first)
    (hsecond : FactsUnder scans name second) : FactsUnder scans name (first ++ second) := by
  intro fact hfact
  rcases List.mem_append.mp hfact with hmem | hmem
  · exact hfirst fact hmem
  · exact hsecond fact hmem

theorem factsUnder_textFact {value : Str} (h : Under scans name key) :
    FactsUnder scans name (textFact key value) := by
  intro _ hfact
  rw [(mem_textFact.mp hfact).2]
  exact h

theorem factsUnder_countFact {count : Int} (h : Under scans name key) :
    FactsUnder scans name (countFact key count) := by
  intro _ hfact
  rw [(mem_countFact.mp hfact).2]
  exact h

theorem factsUnder_flagFact {flag : Bool} (h : Under scans name key) :
    FactsUnder scans name (flagFact key flag) := by
  intro _ hfact
  rw [(mem_flagFact.mp hfact).2]
  exact h

theorem factsUnder_blockFacts {Block : Type} {block : Option Block} {facts : Block → List Fact}
    (h : ∀ present, FactsUnder scans name (facts present)) :
    FactsUnder scans name (blockFacts block facts) := by
  intro fact hfact
  obtain ⟨present, -, hmem⟩ := mem_blockFacts.mp hfact
  exact h present fact hmem

theorem factsUnder_map {Item : Type} {items : List Item} {fact : Item → Fact}
    (h : ∀ item, Under scans name (fact item).key) : FactsUnder scans name (items.map fact) := by
  intro _ hfound
  obtain ⟨item, -, rfl⟩ := List.mem_map.mp hfound
  exact h item

theorem factsUnder_flatMap {Item : Type} {items : List Item} {facts : Item → List Fact}
    (h : ∀ item, FactsUnder scans name (facts item)) :
    FactsUnder scans name (items.flatMap facts) := by
  intro found hfound
  obtain ⟨item, -, hmem⟩ := List.mem_flatMap.mp hfound
  exact h item found hmem

theorem underOnly_root : Under [scan] name (scan ++ name) :=
  under_root List.mem_cons_self

theorem underOnly_field : Under [scan] name (fieldKey scan name field) :=
  under_field List.mem_cons_self

end Rules

open FactsUnder (append cons)

/-! ## The kinds that write below one prefix -/

theorem QuotaDecl.factsUnder (tenantName : Str) (quota : QuotaDecl) :
    FactsUnder [scanDesiredTenants] tenantName (quota.facts tenantName) := by
  apply_rules [append, factsUnder_textFact, factsUnder_countFact, underOnly_field]

theorem TenantDecl.factsUnder (decl : TenantDecl) :
    FactsUnder [scanDesiredTenants] decl.name decl.facts := by
  apply_rules [append, cons, factsUnder_nil, factsUnder_countFact,
    underOnly_root, underOnly_field, factsUnder_blockFacts, QuotaDecl.factsUnder]

theorem VolumeDecl.factsUnder (decl : VolumeDecl) :
    FactsUnder [scanDesiredVolumes] decl.name decl.facts := by
  apply_rules [append, cons, factsUnder_nil, underOnly_root, underOnly_field]
  exact factsUnder_textFact (@underOnly_field scanDesiredVolumes _ _)

theorem CloudIdentityDecl.factsUnder (decl : CloudIdentityDecl) :
    FactsUnder [scanDesiredCloudIdentities] decl.name decl.facts := by
  apply_rules [append, cons, factsUnder_nil, factsUnder_textFact, underOnly_root, underOnly_field]

theorem JobDecl.factsUnder (decl : JobDecl) :
    FactsUnder [scanDesiredJobs] decl.name decl.facts := by
  apply_rules [append, cons, factsUnder_nil, factsUnder_textFact, underOnly_root, underOnly_field]

theorem CronJobDecl.factsUnder (decl : CronJobDecl) :
    FactsUnder [scanDesiredCronJobs] decl.name decl.facts := by
  apply_rules [append, cons, factsUnder_nil, factsUnder_textFact, underOnly_root, underOnly_field]

theorem RouteCookieSettings.factsUnder (routeName : Str) (cookie : RouteCookieSettings) :
    FactsUnder [scanDesiredRoutes] routeName (cookie.facts routeName) := by
  apply_rules [append, factsUnder_textFact, factsUnder_flagFact, underOnly_field]

theorem RouteStickyDecl.factsUnder (routeName : Str) (sticky : RouteStickyDecl) :
    FactsUnder [scanDesiredRoutes] routeName (sticky.facts routeName) := by
  apply_rules [append, cons, factsUnder_nil, underOnly_field,
    factsUnder_blockFacts, RouteCookieSettings.factsUnder]

theorem RouteDecl.factsUnder (decl : RouteDecl) :
    FactsUnder [scanDesiredRoutes] decl.name decl.facts := by
  apply_rules [append, cons, factsUnder_nil, factsUnder_textFact,
    factsUnder_countFact, underOnly_root, underOnly_field, factsUnder_blockFacts,
    RouteStickyDecl.factsUnder]

theorem ServiceGroupDecl.factsUnder (decl : ServiceGroupDecl) :
    FactsUnder [scanDesiredGroups] decl.name decl.facts :=
  (((cons underOnly_root factsUnder_nil).append
    (factsUnder_map fun _ => underOnly_field)).append (factsUnder_flagFact underOnly_field)).append
    (factsUnder_map fun _ => underOnly_field)

theorem RoleDecl.factsUnder (decl : RoleDecl) : FactsUnder [scanAuthRoles] decl.name decl.facts :=
  (factsUnder_map fun _ => underOnly_field).append (factsUnder_map fun _ => underOnly_field)

theorem factsUnder_conditionFacts (policyName : Str) (index : Nat)
    (conditions : List PolicyConditionDecl) :
    FactsUnder [scanAuthPolicies] policyName (conditionFacts policyName index conditions) := by
  induction conditions generalizing index with
  | nil => exact factsUnder_nil
  | cons condition rest ih =>
    refine append ?_ (ih (index + 1))
    apply_rules [cons, factsUnder_nil, underOnly_field]

theorem PolicyDecl.factsUnder (decl : PolicyDecl) :
    FactsUnder [scanAuthPolicies] decl.name decl.facts :=
  cons underOnly_field (factsUnder_conditionFacts _ _ _)

/-! ## Services -/

/-- The prefixes below which a service writes. -/
def serviceScans : List Str :=
  [scanDesiredServices, scanEffectiveServices, scanIntentUserServices, scanDerivedServices]

variable {own : List Fact} {baseDir : Str}

variable {surroundings : Surroundings}

section Services

variable {serviceName : Str}

theorem under_desired :
    Under serviceScans serviceName (fieldKey scanDesiredServices serviceName field) :=
  under_field (by simp [serviceScans])

theorem under_effective :
    Under serviceScans serviceName (fieldKey scanEffectiveServices serviceName field) :=
  under_field (by simp [serviceScans])

theorem ServiceDecl.factsUnder_head (decl : ServiceDecl) :
    FactsUnder serviceScans decl.name decl.headFacts := by
  refine ((append ?_ ?_).append (factsUnder_textFact under_desired)).append
    (factsUnder_textFact under_desired)
  · exact cons (under_root (by simp [serviceScans])) (cons under_desired
      (cons under_desired (cons (under_field (by simp [serviceScans])) factsUnder_nil)))
  · split
    · exact factsUnder_nil
    · exact cons under_effective factsUnder_nil

theorem factsUnder_portFacts (ports : List Int) (externalPorts : List ExternalPortDecl) :
    FactsUnder serviceScans serviceName (portFacts serviceName ports externalPorts) :=
  (factsUnder_map fun _ => under_desired).append (factsUnder_flatMap fun _ =>
    cons under_desired (cons under_desired factsUnder_nil))

theorem ResourcesDecl.factsUnder (resources : ResourcesDecl) :
    FactsUnder serviceScans serviceName (resources.facts serviceName) := by
  refine append ?_ (cons (under_field (by simp [serviceScans])) factsUnder_nil)
  apply_rules [append, factsUnder_textFact, under_desired]

theorem ScheduleDecl.factsUnder (schedule : ScheduleDecl) :
    FactsUnder serviceScans serviceName (schedule.facts serviceName) := by
  apply_rules [cons, factsUnder_nil, under_desired]

theorem StabilizationDecl.factsUnder (stabilization : StabilizationDecl) :
    FactsUnder serviceScans serviceName (stabilization.facts serviceName) := by
  apply_rules [append, factsUnder_textFact, under_desired]

theorem HorizontalScaleDecl.factsUnder (horizontal : HorizontalScaleDecl) :
    FactsUnder serviceScans serviceName (horizontal.facts serviceName) := by
  apply_rules [append, cons, factsUnder_nil, factsUnder_textFact,
    factsUnder_blockFacts, ScheduleDecl.factsUnder, StabilizationDecl.factsUnder, under_desired]
  all_goals exact factsUnder_map fun _ => under_desired

theorem VerticalScaleDecl.factsUnder (vertical : VerticalScaleDecl) :
    FactsUnder serviceScans serviceName (vertical.facts serviceName) := by
  apply_rules [append, factsUnder_textFact, under_desired]

theorem ScaleDecl.factsUnder (scale : ScaleDecl) :
    FactsUnder serviceScans serviceName (scale.facts serviceName) :=
  (factsUnder_blockFacts HorizontalScaleDecl.factsUnder).append
    (factsUnder_blockFacts VerticalScaleDecl.factsUnder)

theorem PlacementDecl.factsUnder (placement : PlacementDecl) :
    FactsUnder serviceScans serviceName (placement.facts serviceName) := by
  apply_rules [append, factsUnder_textFact, factsUnder_flagFact, under_desired]
  · split
    · exact factsUnder_nil
    · exact factsUnder_countFact under_desired
  all_goals exact factsUnder_map fun _ => under_desired

theorem UpdateDecl.factsUnder (update : UpdateDecl) :
    FactsUnder serviceScans serviceName (update.facts serviceName) := by
  apply_rules [cons, factsUnder_nil, under_desired]

theorem DisruptionDecl.factsUnder (disruption : DisruptionDecl) :
    FactsUnder serviceScans serviceName (disruption.facts serviceName) := by
  apply append
  all_goals
    split
    · exact factsUnder_nil
    · exact cons under_desired factsUnder_nil

theorem LoggingDecl.factsUnder (logging : LoggingDecl) :
    FactsUnder serviceScans serviceName (logging.facts serviceName) := by
  apply_rules [append, factsUnder_textFact, factsUnder_countFact, under_desired]

theorem LifecycleDecl.factsUnder (lifecycle : LifecycleDecl) :
    FactsUnder serviceScans serviceName (lifecycle.facts serviceName) := by
  apply_rules [append, factsUnder_textFact, under_desired]

theorem ProbeDecl.factsUnder (probeType : Str) (probe : ProbeDecl) :
    FactsUnder serviceScans serviceName (probe.facts serviceName probeType) := by
  apply_rules [append, cons, factsUnder_nil, factsUnder_textFact,
    factsUnder_countFact, under_desired]

theorem HealthDecl.factsUnder (health : HealthDecl) :
    FactsUnder serviceScans serviceName (health.facts serviceName) := by
  apply_rules [append, factsUnder_textFact, under_desired]

theorem ServiceDecl.factsUnder_healthProbe (decl : ServiceDecl) :
    FactsUnder serviceScans decl.name decl.healthProbeFacts := by
  apply_rules [append, factsUnder_blockFacts, HealthDecl.factsUnder, ProbeDecl.factsUnder]

theorem factsUnder_config {config : Option ConfigDecl}
    (h : compileServiceConfigFacts surroundings serviceName config baseDir = .ok facts) :
    FactsUnder serviceScans serviceName facts := by
  rcases compileServiceConfigFacts_ok h with ⟨-, rfl⟩ | ⟨_, _, -, hfiles, rfl⟩
  · exact factsUnder_nil
  · refine (factsUnder_map fun _ => under_desired).append ?_
    intro _ hfact
    obtain ⟨_, -, _, hown, hmem⟩ := (mem_compileEach hfiles).mp hfact
    obtain ⟨_, rfl⟩ := compileConfigFile_ok hown
    rw [List.mem_singleton.mp hmem]
    exact under_desired

theorem InitStepDecl.factsUnder (index : Nat) (initStep : InitStepDecl) :
    FactsUnder serviceScans serviceName (initStep.facts serviceName index) := by
  have hfield : ∀ field : Str, Under serviceScans serviceName
      (keyDesiredServiceInitStep serviceName index ++ field) := by
    intro field
    rw [keyDesiredServiceInitStep, scanDesiredServiceInitSteps, desiredServiceKey, fieldKey]
    simp only [List.append_assoc]
    exact under_desired
  refine ((append ?_ ?_).append (factsUnder_textFact (hfield _))).append
    (factsUnder_countFact (hfield _))
  · refine cons ?_ factsUnder_nil
    simpa using hfield []
  · split
    all_goals exact cons (hfield _) factsUnder_nil

theorem factsUnder_initSteps (index : Nat) (initSteps : List InitStepDecl) :
    FactsUnder serviceScans serviceName (initStepFacts serviceName index initSteps) := by
  induction initSteps generalizing index with
  | nil => exact factsUnder_nil
  | cons initStep rest ih => exact (initStep.factsUnder index).append (ih (index + 1))

theorem factsUnder_connectionRefs (connectionRefs : List ConnectionRef)
    (connectionDecls : List ConnectionDecl) (explicitSecrets : List SecretDecl) :
    FactsUnder serviceScans serviceName
      (connectionRefFacts serviceName connectionRefs connectionDecls explicitSecrets) :=
  factsUnder_flatMap fun _ => cons under_desired (factsUnder_blockFacts fun _ =>
    cons under_desired factsUnder_nil)

theorem factsUnder_cloudIdentityBindings (bindings : List CloudIdentityBindingDecl) :
    FactsUnder serviceScans serviceName (cloudIdentityBindingFacts serviceName bindings) :=
  factsUnder_flatMap fun _ => ((cons under_desired factsUnder_nil).append
    (factsUnder_textFact under_desired)).append (factsUnder_textFact under_desired)

theorem ServiceDecl.factsUnder_tail (connectionDecls : List ConnectionDecl) (decl : ServiceDecl) :
    FactsUnder serviceScans decl.name (decl.tailFacts connectionDecls) := by
  apply_rules [append]
  exacts [factsUnder_map fun _ => under_desired, factsUnder_connectionRefs _ _ _,
    factsUnder_cloudIdentityBindings _, factsUnder_initSteps _ _,
    factsUnder_blockFacts DisruptionDecl.factsUnder, factsUnder_map fun _ => under_desired,
    factsUnder_blockFacts LoggingDecl.factsUnder, factsUnder_blockFacts LifecycleDecl.factsUnder,
    factsUnder_textFact under_desired, factsUnder_textFact under_desired,
    factsUnder_flagFact under_desired, factsUnder_flagFact under_desired,
    factsUnder_flagFact under_effective, factsUnder_textFact under_desired,
    factsUnder_countFact under_desired, factsUnder_countFact under_effective]

/-- A service's facts are below its own keys. -/
theorem ServiceDecl.factsUnder {sourceLines : List Str} {surroundings : Surroundings}
    {connectionDecls : List ConnectionDecl} {decl : ServiceDecl}
    (h : compileServiceDeclaration sourceLines surroundings baseDir connectionDecls decl =
      .ok own) : FactsUnder serviceScans decl.name own := by
  obtain ⟨-, -, -, _, _, _, hports, hscale, hconfig, rfl⟩ := compileService_ok h
  rw [compileServicePortsFacts_ok hports, compileServiceScaleFacts_ok hscale]
  exact ((((((((decl.factsUnder_head.append (factsUnder_portFacts _ _)).append
    (factsUnder_blockFacts ResourcesDecl.factsUnder)).append
    (factsUnder_map fun _ => under_desired)).append
    (factsUnder_blockFacts ScaleDecl.factsUnder)).append
    (factsUnder_blockFacts PlacementDecl.factsUnder)).append
    (factsUnder_blockFacts UpdateDecl.factsUnder)).append
    decl.factsUnder_healthProbe).append (factsUnder_config hconfig)).append
    (decl.factsUnder_tail connectionDecls)

end Services

/-! ## All kinds -/

/-- The prefixes below which a declaration writes. -/
def Declaration.scans : Declaration → List Str
  | .tenant _ => [scanDesiredTenants]
  | .volume _ => [scanDesiredVolumes]
  | .cloudIdentity _ => [scanDesiredCloudIdentities]
  | .credentialBroker _ => [lit "desired/credential_broker/"]
  | .cloud _ => [lit "desired/cloud/"]
  | .connection _ => [lit "desired/connection/"]
  | .route _ => [scanDesiredRoutes]
  | .service _ => serviceScans
  | .job _ => [scanDesiredJobs]
  | .cronJob _ => [scanDesiredCronJobs]
  | .role _ => [scanAuthRoles]
  | .grant _ => [scanAuthGrants]
  | .group _ => [scanAuthGroups]
  | .serviceGroup _ => [scanDesiredGroups]
  | .policy _ => [scanAuthPolicies]
  | .network _ => [scanNetworkPolicies]

/-- All facts are below one of the prefixes. -/
def FactsBelow (scans : List Str) (facts : List Fact) : Prop :=
  ∀ fact ∈ facts, ∃ scan ∈ scans, scan <+: fact.key

theorem FactsUnder.below {scans : List Str} {name : Str} (h : FactsUnder scans name facts) :
    FactsBelow scans facts := by
  intro fact hfact
  obtain ⟨scan, hscan, _, hkey, -⟩ := h fact hfact
  exact ⟨scan, hscan, _, hkey.symm⟩

variable {sourceLines : List Str}

theorem factsBelow_networkRules {rules : List NetworkRuleDecl}
    {index : Nat} (h : networkRuleFacts sourceLines index rules = .ok own) :
    FactsBelow [scanNetworkPolicies] own := by
  intro _ hfact
  rw [networkRuleFacts_ok h] at hfact
  obtain ⟨_, -, rfl⟩ := List.mem_map.mp hfact
  exact ⟨_, List.mem_cons_self, List.prefix_append _ _⟩

theorem RouteDecl.factsUnder_compiled {decl : RouteDecl}
    (h : compileRouteDeclaration sourceLines surroundings baseDir decl = .ok own) :
    FactsUnder [scanDesiredRoutes] decl.name own := by
  rcases compileRoute_ok h with ⟨-, rfl⟩ | ⟨_, _, -, -, rfl⟩
  · exact decl.factsUnder
  · refine decl.factsUnder.append (cons underOnly_field ?_)
    split
    · exact cons underOnly_field (cons underOnly_field factsUnder_nil)
    · exact factsUnder_nil

theorem CredentialBrokerDecl.factsBelow (decl : CredentialBrokerDecl) :
    FactsBelow [lit "desired/credential_broker/"] decl.facts := by
  intro _ hfact
  refine ⟨_, List.mem_cons_self, ?_⟩
  simp only [CredentialBrokerDecl.facts, List.mem_append, List.mem_singleton, mem_textFact] at hfact
  rcases hfact with (rfl | ⟨-, rfl⟩) | ⟨-, rfl⟩ <;> exact ⟨_, rfl⟩

theorem CloudDecl.factsBelow (decl : CloudDecl) : FactsBelow [lit "desired/cloud/"] decl.facts := by
  intro _ hfact
  refine ⟨_, List.mem_cons_self, ?_⟩
  simp only [CloudDecl.facts, List.mem_append, List.mem_singleton, mem_textFact] at hfact
  rcases hfact with ((((((rfl | ⟨-, rfl⟩) | ⟨-, rfl⟩) | ⟨-, rfl⟩) | ⟨-, rfl⟩) | ⟨-, rfl⟩) |
    ⟨-, rfl⟩) | ⟨-, rfl⟩ <;> exact ⟨_, rfl⟩

theorem Declaration.factsBelow {file : File} {decl : Declaration}
    (h : decl.compile sourceLines surroundings file = .ok own) : FactsBelow decl.scans own := by
  cases decl with
  | tenant decl => exact compileTenant_ok h ▸ decl.factsUnder.below
  | volume decl => exact compileVolume_ok h ▸ decl.factsUnder.below
  | cloudIdentity decl => exact compileCloudIdentity_ok h ▸ decl.factsUnder.below
  | credentialBroker decl => exact compileCredentialBroker_ok h ▸ decl.factsBelow
  | cloud decl => exact compileCloud_ok h ▸ decl.factsBelow
  | connection decl =>
    rw [compileConnection_ok h]
    exact (cons underOnly_root factsUnder_nil).below
  | route decl => exact (RouteDecl.factsUnder_compiled h).below
  | service decl => exact (ServiceDecl.factsUnder h).below
  | job decl => exact (compileJob_ok h).2.2 ▸ decl.factsUnder.below
  | cronJob decl => exact compileCronJob_ok h ▸ decl.factsUnder.below
  | role decl => exact compileRole_ok h ▸ decl.factsUnder.below
  | grant decl =>
    rw [compileGrant_ok h]
    exact (cons underOnly_field factsUnder_nil).below
  | group decl =>
    rw [compileGroup_ok h]
    exact (factsUnder_map fun _ => underOnly_field).below
  | serviceGroup decl => exact compileServiceGroup_ok h ▸ decl.factsUnder.below
  | policy decl => exact compilePolicy_ok h ▸ decl.factsUnder.below
  | network decl => exact factsBelow_networkRules h

/-! ## The kinds do not meet -/

/-- The prefixes of all kinds, in the order of the kinds. -/
def scansByKind : List (List Str) :=
  [[scanDesiredTenants], [scanDesiredVolumes], [scanDesiredCloudIdentities],
    [lit "desired/credential_broker/"], [lit "desired/cloud/"], [lit "desired/connection/"],
    [scanDesiredRoutes], serviceScans, [scanDesiredJobs], [scanDesiredCronJobs], [scanAuthRoles],
    [scanAuthGrants], [scanAuthGroups], [scanDesiredGroups], [scanAuthPolicies],
    [scanNetworkPolicies]]

/-- The position of a declaration's kind. -/
def Declaration.kind : Declaration → Fin 16
  | .tenant _ => 0
  | .volume _ => 1
  | .cloudIdentity _ => 2
  | .credentialBroker _ => 3
  | .cloud _ => 4
  | .connection _ => 5
  | .route _ => 6
  | .service _ => 7
  | .job _ => 8
  | .cronJob _ => 9
  | .role _ => 10
  | .grant _ => 11
  | .group _ => 12
  | .serviceGroup _ => 13
  | .policy _ => 14
  | .network _ => 15

theorem Declaration.scans_eq (decl : Declaration) :
    decl.scans = scansByKind.get ⟨decl.kind.val, decl.kind.isLt⟩ := by
  cases decl <;> rfl

theorem scansByKind_apart : ∀ first second : Fin 16, first ≠ second →
    ∀ scan ∈ scansByKind.get ⟨first.val, first.isLt⟩,
    ∀ other ∈ scansByKind.get ⟨second.val, second.isLt⟩, ¬scan <+: other := by
  decide +kernel

theorem Declaration.kind_eq_of_scans {first second : Declaration} {other : Str}
    (hscan : scan ∈ first.scans) (hother : other ∈ second.scans) (hkey : scan <+: key)
    (hkey' : other <+: key) : first.kind = second.kind := by
  by_contra hne
  rw [first.scans_eq] at hscan
  rw [second.scans_eq] at hother
  rcases List.prefix_or_prefix_of_prefix hkey hkey' with hstarts | hstarts
  · exact scansByKind_apart _ _ hne scan hscan other hother hstarts
  · exact scansByKind_apart _ _ (Ne.symm hne) other hother scan hscan hstarts

section Files

variable {sourceLines : List Str} {surroundings : Surroundings} {file : File}
  {facts : List Fact} {fact : Fact}

variable (h : compileWithSource sourceLines surroundings file = .ok facts) (hfact : fact ∈ facts)
include h hfact

theorem exists_declaration_of_scan (kindred : Declaration) (hscan : scan ∈ kindred.scans)
    (hkey : scan <+: fact.key) :
    ∃ decl ∈ file.declarations, decl.kind = kindred.kind ∧ ∃ own,
      decl.compile sourceLines surroundings file = .ok own ∧ fact ∈ own := by
  obtain ⟨decl, hdecl, own, hcompile, hmem⟩ := (mem_compileWithSource h).mp hfact
  obtain ⟨_, hother, hstarts⟩ := Declaration.factsBelow hcompile fact hmem
  exact ⟨decl, hdecl, Declaration.kind_eq_of_scans hother hscan hstarts hkey, own, hcompile, hmem⟩

theorem exists_tenant_of_scan (hkey : scanDesiredTenants <+: fact.key) :
    ∃ decl ∈ file.tenants, fact ∈ decl.facts := by
  obtain ⟨decl, hdecl, hkind, _, hcompile, hmem⟩ :=
    exists_declaration_of_scan h hfact (.tenant {}) List.mem_cons_self hkey
  cases decl with
  | tenant decl =>
    rw [compileTenant_ok hcompile] at hmem
    refine ⟨decl, ?_, hmem⟩
    simpa [File.declarations] using hdecl
  | _ => simp [Declaration.kind] at hkind

end Files

/-! ## Fields -/

theorem field_suffix_of_eq {name other otherField : Str}
    (h : fieldKey scan name field = fieldKey scan other otherField) :
    field <:+ otherField ∨ otherField <:+ field := by
  have hends (entity text : Str) : text <:+ fieldKey scan entity text :=
    ⟨scan ++ (entity ++ [Str.slash]), by simp [fieldKey]⟩
  exact List.suffix_or_suffix_of_suffix (hends name field) (h ▸ hends other otherField)

end CCattler.Lang
