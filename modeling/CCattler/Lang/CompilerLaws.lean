import CCattler.Lang.Compiler

/-! # What a compilation writes

What holds of the facts of every declaration holds of the facts of a file.
-/

namespace CCattler.Lang

open Go CCattler.Types List

/-! ## Compiling one declaration after another -/

def Compiled.facts : Compiled → List Fact
  | .ok facts => facts
  | .error _ => []

section

variable {α : Type} {first : Except CompileError α} {facts : List Fact}

theorem bind_eq_ok {next : α → Compiled} :
    (first >>= next) = .ok facts ↔ ∃ made, first = .ok made ∧ next made = .ok facts := by
  cases first <;> simp [bind, Except.bind]

theorem map_eq_ok {next : α → List Fact} :
    first.map next = .ok facts ↔ ∃ made, first = .ok made ∧ facts = next made := by
  cases first <;> simp [Except.map, eq_comm]

end

section CompileEach

variable {Decl Other : Type} (compileOne : Decl → Compiled)

theorem compileEach_cons (decl : Decl) (rest : List Decl) :
    compileEach compileOne (decl :: rest) = (do
      let first ← compileOne decl
      let later ← compileEach compileOne rest
      return first ++ later) := by
  rw [compileEach]
  cases compileOne decl with
  | error error => rfl
  | ok facts => cases compileEach compileOne rest <;> rfl

theorem compileEach_append (earlier later : List Decl) :
    compileEach compileOne (earlier ++ later) = (do
      let first ← compileEach compileOne earlier
      let second ← compileEach compileOne later
      return first ++ second) := by
  induction earlier with
  | nil =>
    rw [nil_append]
    cases compileEach compileOne later <;> rfl
  | cons decl rest ih =>
    rw [cons_append, compileEach_cons, compileEach_cons, ih]
    cases compileOne decl with
    | error error => rfl
    | ok own =>
      cases compileEach compileOne rest with
      | error error => rfl
      | ok earlierFacts =>
        cases compileEach compileOne later with
        | error error => rfl
        | ok laterFacts => exact congrArg Except.ok (append_assoc _ _ _).symm

theorem compileEach_map (rename : Other → Decl) (decls : List Other) :
    compileEach compileOne (decls.map rename) =
      compileEach (fun decl => compileOne (rename decl)) decls := by
  induction decls with
  | nil => rfl
  | cons decl rest ih => rw [map_cons, compileEach_cons, compileEach_cons, ih]

variable {compileOne}

/-- A list compiles iff each of its declarations does. -/
theorem compileEach_eq_ok_iff {decls : List Decl} {facts : List Fact} :
    compileEach compileOne decls = .ok facts ↔
      (∀ decl ∈ decls, compileOne decl = .ok (Compiled.facts (compileOne decl))) ∧
        facts = decls.flatMap (fun decl => Compiled.facts (compileOne decl)) := by
  induction decls generalizing facts with
  | nil => simp [compileEach]
  | cons decl rest ih =>
    simp only [compileEach_cons, bind_eq_ok, ih, forall_mem_cons, flatMap_cons]
    constructor
    · rintro ⟨own, hown, _, ⟨hall, rfl⟩, hfacts⟩
      rw [hown, ← Except.ok.inj hfacts]
      exact ⟨⟨rfl, hall⟩, rfl⟩
    · rintro ⟨⟨hown, hall⟩, rfl⟩
      exact ⟨_, hown, _, ⟨hall, rfl⟩, rfl⟩

theorem mem_compileEach {decls : List Decl} {facts : List Fact}
    (h : compileEach compileOne decls = .ok facts) {fact : Fact} :
    fact ∈ facts ↔ ∃ decl ∈ decls, ∃ own, compileOne decl = .ok own ∧ fact ∈ own := by
  obtain ⟨hall, rfl⟩ := compileEach_eq_ok_iff.mp h
  rw [mem_flatMap]
  constructor
  · intro ⟨decl, hdecl, hmem⟩
    exact ⟨decl, hdecl, _, hall decl hdecl, hmem⟩
  · intro ⟨decl, hdecl, own, hown, hmem⟩
    exact ⟨decl, hdecl, by rwa [hown]⟩

end CompileEach

/-! ## The declarations of a file -/

/-- A declaration of any kind. -/
inductive Declaration where
  | tenant (decl : TenantDecl)
  | volume (decl : VolumeDecl)
  | cloudIdentity (decl : CloudIdentityDecl)
  | credentialBroker (decl : CredentialBrokerDecl)
  | cloud (decl : CloudDecl)
  | connection (decl : ConnectionDecl)
  | route (decl : RouteDecl)
  | service (decl : ServiceDecl)
  | job (decl : JobDecl)
  | cronJob (decl : CronJobDecl)
  | role (decl : RoleDecl)
  | grant (decl : GrantDecl)
  | group (decl : GroupDecl)
  | serviceGroup (decl : ServiceGroupDecl)
  | policy (decl : PolicyDecl)
  | network (decl : NetworkDecl)

/-- The declarations of a file in the order in which they are compiled. -/
def File.declarations (file : File) : List Declaration :=
  file.tenants.map .tenant ++ file.volumes.map .volume ++
  file.cloudIdentities.map .cloudIdentity ++ file.credentialBroker.toList.map .credentialBroker ++
  file.cloud.toList.map .cloud ++ file.connections.map .connection ++ file.routes.map .route ++
  file.services.map .service ++ file.jobs.map .job ++ file.cronJobs.map .cronJob ++
  file.roles.map .role ++ file.grants.map .grant ++ file.groups.map .group ++
  file.serviceGroups.map .serviceGroup ++ file.policies.map .policy ++ file.networks.map .network

section Files

variable (sourceLines : List Str) (surroundings : Surroundings) (file : File)

def Declaration.compile : Declaration → Compiled
  | .tenant decl => compileTenantDeclaration sourceLines decl
  | .volume decl => compileVolumeDeclaration sourceLines decl
  | .cloudIdentity decl => compileCloudIdentityDeclaration sourceLines surroundings decl
  | .credentialBroker decl => compileCredentialBrokerDeclaration sourceLines decl
  | .cloud decl => compileCloudDeclaration sourceLines surroundings decl
  | .connection decl => compileConnectionDeclaration sourceLines surroundings decl
  | .route decl => compileRouteDeclaration sourceLines surroundings file.baseDir decl
  | .service decl =>
    compileServiceDeclaration sourceLines surroundings file.baseDir file.connections decl
  | .job decl => compileJobDeclaration sourceLines surroundings decl
  | .cronJob decl => compileCronJobDeclaration sourceLines surroundings decl
  | .role decl => ofParse (compileRoleDeclaration decl sourceLines)
  | .grant decl => compileGrantDeclaration sourceLines decl
  | .group decl => compileGroupDeclaration sourceLines decl
  | .serviceGroup decl => compileServiceGroupDeclaration sourceLines decl
  | .policy decl => ofParse (compilePolicyDeclaration decl sourceLines)
  | .network decl => compileNetworkDeclaration sourceLines decl

theorem compileWithSource_eq : compileWithSource sourceLines surroundings file =
      compileEach (Declaration.compile sourceLines surroundings file) file.declarations := by
  simp only [compileWithSource, compileInfrastructureDeclarations, compileOptional,
    compileAccessControlDeclarations, File.declarations, compileEach_append, compileEach_map,
    Declaration.compile, bind_assoc, pure_bind, append_assoc]

variable {sourceLines surroundings file} {facts : List Fact} {fact : Fact}

theorem mem_compileWithSource (h : compileWithSource sourceLines surroundings file = .ok facts) :
    fact ∈ facts ↔ ∃ decl ∈ file.declarations, ∃ own,
      decl.compile sourceLines surroundings file = .ok own ∧ fact ∈ own :=
  mem_compileEach (compileWithSource_eq sourceLines surroundings file ▸ h)

end Files

/-- Surroundings without files, where texts are quoted without escapes. -/
def plainSurroundings : Surroundings :=
  ⟨fun _ => .error (lit "no such file or directory"), fun text => lit "\"" ++ text ++ lit "\""⟩

/-! ## The facts of single fields -/

variable {key value : Str} {fact : Fact}

@[simp] theorem mem_textFact : fact ∈ textFact key value ↔ value ≠ [] ∧ fact = ⟨key, value⟩ := by
  unfold textFact
  split <;> simp_all

@[simp] theorem mem_countFact {count : Int} :
    fact ∈ countFact key count ↔ count > 0 ∧ fact = ⟨key, itoa count⟩ := by
  unfold countFact
  split <;> simp_all

@[simp] theorem mem_flagFact {flag : Bool} :
    fact ∈ flagFact key flag ↔ flag = true ∧ fact = ⟨key, lit "true"⟩ := by
  unfold flagFact
  split <;> simp_all

@[simp] theorem mem_blockFacts {Block : Type} {block : Option Block} {facts : Block → List Fact} :
    fact ∈ blockFacts block facts ↔ ∃ present, block = some present ∧ fact ∈ facts present := by
  cases block <;> simp [blockFacts]

/-! ## Declarations whose facts are written once their checks pass -/

section Checked

variable {sourceLines : List Str} {surroundings : Surroundings} {own : List Fact}

@[simp] theorem guarded_eq_ok {ε : Type} {failed : Prop} [Decidable failed] {error : ε}
    {compiled : Except ε (List Fact)} :
    (if failed then .error error else compiled) = .ok own ↔ ¬failed ∧ compiled = .ok own := by
  by_cases h : failed <;> simp [h]

theorem ofParse_eq_ok {compiled : Except ParseError (List Fact)} :
    ofParse compiled = .ok own ↔ compiled = .ok own := by
  cases compiled <;> simp [ofParse, Except.mapError]

theorem compileTenant_ok {decl : TenantDecl}
    (h : compileTenantDeclaration sourceLines decl = .ok own) : own = decl.facts := by
  simp only [compileTenantDeclaration, guarded_eq_ok, Except.ok.injEq] at h
  exact h.2.symm

theorem compileVolume_ok {decl : VolumeDecl}
    (h : compileVolumeDeclaration sourceLines decl = .ok own) : own = decl.facts := by
  simp only [compileVolumeDeclaration, guarded_eq_ok, Except.ok.injEq] at h
  exact h.2.symm

theorem compileCloudIdentity_ok {decl : CloudIdentityDecl}
    (h : compileCloudIdentityDeclaration sourceLines surroundings decl = .ok own) :
    own = decl.facts := by
  unfold compileCloudIdentityDeclaration at h
  split at h
  · cases h
  · exact (Except.ok.inj h).symm

theorem compileCredentialBroker_ok {decl : CredentialBrokerDecl}
    (h : compileCredentialBrokerDeclaration sourceLines decl = .ok own) : own = decl.facts := by
  simp only [compileCredentialBrokerDeclaration, guarded_eq_ok, Except.ok.injEq] at h
  exact h.2.symm

theorem compileCloud_ok {decl : CloudDecl}
    (h : compileCloudDeclaration sourceLines surroundings decl = .ok own) : own = decl.facts := by
  simp only [compileCloudDeclaration, guarded_eq_ok, Except.ok.injEq] at h
  exact h.2.2.symm

theorem compileConnection_ok {decl : ConnectionDecl}
    (h : compileConnectionDeclaration sourceLines surroundings decl = .ok own) :
    own = [⟨keyDesiredConnection decl.name, buildConnectionJSON surroundings decl⟩] := by
  simp only [compileConnectionDeclaration, guarded_eq_ok, Except.ok.injEq] at h
  exact h.2.symm

theorem compileJob_ok {decl : JobDecl}
    (h : compileJobDeclaration sourceLines surroundings decl = .ok own) :
    decl.name ≠ [] ∧ decl.image ≠ [] ∧ own = decl.facts := by
  simp only [compileJobDeclaration, guarded_eq_ok, Except.ok.injEq] at h
  exact ⟨h.1, h.2.1, h.2.2.symm⟩

theorem compileCronJob_ok {decl : CronJobDecl}
    (h : compileCronJobDeclaration sourceLines surroundings decl = .ok own) :
    own = decl.facts := by
  simp only [compileCronJobDeclaration, guarded_eq_ok, Except.ok.injEq] at h
  exact h.2.2.2.symm

theorem compileRole_ok {decl : RoleDecl}
    (h : ofParse (compileRoleDeclaration decl sourceLines) = .ok own) : own = decl.facts := by
  simp only [ofParse_eq_ok, compileRoleDeclaration, guarded_eq_ok, Except.ok.injEq] at h
  exact h.2.2.symm

theorem compileGrant_ok {decl : GrantDecl}
    (h : compileGrantDeclaration sourceLines decl = .ok own) :
    own = [⟨keyAuthGrant decl.principalKind decl.principalName decl.roleName, lit "true"⟩] := by
  simp only [compileGrantDeclaration, guarded_eq_ok, Except.ok.injEq] at h
  exact h.2.2.2.symm

theorem compileGroup_ok {decl : GroupDecl}
    (h : compileGroupDeclaration sourceLines decl = .ok own) :
    own = decl.members.map (fun memberName =>
      ⟨keyAuthGroupMember decl.name memberName, lit "true"⟩) := by
  simp only [compileGroupDeclaration, guarded_eq_ok, Except.ok.injEq] at h
  exact h.2.symm

theorem compileServiceGroup_ok {decl : ServiceGroupDecl}
    (h : compileServiceGroupDeclaration sourceLines decl = .ok own) : own = decl.facts := by
  simp only [compileServiceGroupDeclaration, guarded_eq_ok, Except.ok.injEq] at h
  exact h.2.2.symm

theorem compilePolicy_ok {decl : PolicyDecl}
    (h : ofParse (compilePolicyDeclaration decl sourceLines) = .ok own) : own = decl.facts := by
  simp only [ofParse_eq_ok, compilePolicyDeclaration, guarded_eq_ok, Except.ok.injEq] at h
  exact h.2.2.symm

theorem networkRuleFacts_ok {rules : List NetworkRuleDecl} {index : Nat}
    (h : networkRuleFacts sourceLines index rules = .ok own) :
    own = (rules.zipIdx index).map (fun indexed => indexed.1.fact indexed.2) := by
  induction rules generalizing index own with
  | nil => exact (Except.ok.inj h).symm
  | cons rule rest ih =>
    rw [networkRuleFacts, guarded_eq_ok, map_eq_ok] at h
    obtain ⟨-, _, hrest, rfl⟩ := h
    rw [zipIdx_cons, map_cons, ih hrest]

def RouteTLSDecl.facts (routeName : Str) (tls : RouteTLSDecl) : List Fact :=
  ⟨keyDesiredRouteTLSMode routeName, tls.mode⟩ ::
    if tls.mode = routeTLSModeManual then
      [⟨keyDesiredRouteTLSCert routeName, tls.certPEM⟩,
        ⟨keyDesiredRouteTLSKey routeName, tls.keyPEM⟩]
    else []

theorem compileTLSFacts_ok {routeName : Str} {tls : RouteTLSDecl} {line : Int}
    (h : compileTLSFacts sourceLines surroundings routeName tls line = .ok own) :
    own = tls.facts routeName := by
  unfold compileTLSFacts at h
  unfold RouteTLSDecl.facts
  split at h
  next hmanual =>
    rw [guarded_eq_ok] at h
    rw [if_pos hmanual, ← Except.ok.inj h.2]
  next hmanual => rw [if_neg hmanual, ← Except.ok.inj h]

theorem compileRoute_ok {baseDir : Str} {decl : RouteDecl}
    (h : compileRouteDeclaration sourceLines surroundings baseDir decl = .ok own) :
    (decl.tls = none ∧ own = decl.facts) ∨ ∃ tls loaded, decl.tls = some tls ∧
      loadCertificate sourceLines surroundings baseDir decl tls = .ok loaded ∧
      own = decl.facts ++ loaded.facts decl.name := by
  simp only [compileRouteDeclaration, guarded_eq_ok] at h
  obtain ⟨-, -, h⟩ := h
  split at h
  next hnone => exact Or.inl ⟨hnone, (Except.ok.inj h).symm⟩
  next tls htls =>
    obtain ⟨loaded, hloaded, h⟩ := bind_eq_ok.mp h
    obtain ⟨_, hfacts, h⟩ := bind_eq_ok.mp h
    refine Or.inr ⟨tls, loaded, htls, hloaded, ?_⟩
    rw [← Except.ok.inj h, compileTLSFacts_ok hfacts]

end Checked

/-! ## The facts of a service -/

def ScaleDecl.facts (serviceName : Str) (scale : ScaleDecl) : List Fact :=
  blockFacts scale.horizontal (HorizontalScaleDecl.facts serviceName) ++
  blockFacts scale.vertical (VerticalScaleDecl.facts serviceName)

section Services

variable {sourceLines : List Str} {surroundings : Surroundings} {baseDir : Str}
  {connectionDecls : List ConnectionDecl} {decl : ServiceDecl} {own : List Fact}
  {serviceName : Str} {facts : List Fact} {line : Int}

theorem compileServicePortsFacts_ok {ports : List Int} {externalPorts : List ExternalPortDecl}
    (h : compileServicePortsFacts sourceLines surroundings serviceName ports externalPorts line =
      .ok facts) : facts = portFacts serviceName ports externalPorts := by
  unfold compileServicePortsFacts at h
  split at h
  · cases h
  split at h
  · cases h
  · exact (Except.ok.inj h).symm

theorem compileServiceHorizontalScaleFacts_ok {horizontal : HorizontalScaleDecl}
    (h : compileServiceHorizontalScaleFacts sourceLines surroundings serviceName horizontal line =
      .ok facts) : facts = horizontal.facts serviceName := by
  simp only [compileServiceHorizontalScaleFacts, guarded_eq_ok] at h
  obtain ⟨-, -, h⟩ := h
  split at h
  · cases h
  split at h
  · cases h
  · exact (Except.ok.inj h).symm

theorem compileServiceScaleFacts_ok {scale : Option ScaleDecl}
    (h : compileServiceScaleFacts sourceLines surroundings serviceName scale line = .ok facts) :
    facts = blockFacts scale (ScaleDecl.facts serviceName) := by
  cases scale with
  | none => exact (Except.ok.inj h).symm
  | some scale =>
    obtain ⟨horizontal, _⟩ := scale
    cases horizontal with
    | none => exact (Except.ok.inj h).symm
    | some horizontal =>
      obtain ⟨_, hparts, h⟩ := bind_eq_ok.mp h
      rw [← Except.ok.inj h, compileServiceHorizontalScaleFacts_ok hparts]
      rfl

theorem compileServiceConfigFacts_ok {config : Option ConfigDecl}
    (h : compileServiceConfigFacts surroundings serviceName config baseDir = .ok facts) :
    (config = none ∧ facts = []) ∨ ∃ present fileFacts, config = some present ∧
      compileEach (compileConfigFile surroundings serviceName baseDir) present.configFiles =
        .ok fileFacts ∧
      facts = envFacts serviceName present.envVars ++ fileFacts := by
  cases config with
  | none => exact Or.inl ⟨rfl, (Except.ok.inj h).symm⟩
  | some present =>
    obtain ⟨fileFacts, hfiles, hfacts⟩ := map_eq_ok.mp h
    exact Or.inr ⟨present, fileFacts, rfl, hfiles, hfacts⟩

theorem compileConfigFile_ok {configFile : ConfigFileDecl}
    (h : compileConfigFile surroundings serviceName baseDir configFile = .ok facts) :
    ∃ content, facts = [⟨keyDesiredServiceConfigFile serviceName configFile.path, content⟩] := by
  unfold compileConfigFile at h
  split at h
  · exact ⟨_, (Except.ok.inj h).symm⟩
  split at h
  · exact ⟨_, (Except.ok.inj h).symm⟩
  · cases h

variable
  (h : compileServiceDeclaration sourceLines surroundings baseDir connectionDecls decl = .ok own)
include h

theorem compileService_ok : decl.name ≠ [] ∧ decl.image ≠ [] ∧ 0 ≤ decl.instances ∧
    ∃ portFacts scaleFacts configFacts,
      compileServicePortsFacts sourceLines surroundings decl.name decl.ports decl.externalPorts
        decl.line = .ok portFacts ∧
      compileServiceScaleFacts sourceLines surroundings decl.name decl.scale decl.line =
        .ok scaleFacts ∧
      compileServiceConfigFacts surroundings decl.name decl.config baseDir = .ok configFacts ∧
      own = decl.headFacts ++ portFacts ++
        blockFacts decl.resources (ResourcesDecl.facts decl.name) ++
        volumeMountFacts decl.name decl.volumeMounts ++ scaleFacts ++
        blockFacts decl.placement (PlacementDecl.facts decl.name) ++
        blockFacts decl.update (UpdateDecl.facts decl.name) ++
        decl.healthProbeFacts ++ configFacts ++ decl.tailFacts connectionDecls := by
  simp only [compileServiceDeclaration, guarded_eq_ok, bind_eq_ok] at h
  obtain ⟨hname, himage, hinstances, portFacts, hports, scaleFacts, hscale, configFacts, hconfig,
    hown⟩ := h
  exact ⟨hname, himage, not_lt.mp hinstances, portFacts, scaleFacts, configFacts, hports, hscale,
    hconfig, (Except.ok.inj hown).symm⟩

theorem headFacts_subset : decl.headFacts ⊆ own := by
  obtain ⟨-, -, -, _, _, _, -, -, -, rfl⟩ := compileService_ok h
  intro _ hfact
  simp [hfact]

theorem tailFacts_subset : decl.tailFacts connectionDecls ⊆ own := by
  obtain ⟨-, -, -, _, _, _, -, -, -, rfl⟩ := compileService_ok h
  exact subset_append_right _ _

end Services

end CCattler.Lang
