import CCattler.Lang.CompilerLaws
import CCattler.Security.ApiAuthorizer

/-! # Authorization of compiled facts

The policy gate reads the capability that a fact requires off its key. A job's image
pull secret stands below `desired/job/`, where no name is looked at.
-/

namespace CCattler.Security

open Go CCattler.Types List

/-- `PrincipalFromKindAndName`: a text without a colon names a user. -/
def principalFromKindAndName (kindColonName : Str) : Principal :=
  match Str.cut (lit ":") kindColonName with
  | some (kind, name) => ⟨kind, name, [], []⟩
  | none => ⟨lit "user", kindColonName, [], []⟩

def clusterAdminFactPrefixes : List Str :=
  [lit "auth/", lit "policy/network/", lit "desired/cloud_identity/"]

def workloadFactPrefixes : List Str :=
  [lit "desired/", lit "effective/", lit "intent/", lit "derived/service/"]

def requiredCapabilityForFactWrite (factKey : Str) : Capability :=
  if clusterAdminFactPrefixes.any factKey.hasPrefix then capabilityClusterAdmin
  else if factKey.hasPrefix (lit "desired/service/") &&
      factKey.containsStr (lit "/cloud_identity/") then
    capabilityClusterAdmin
  else if factKey.hasPrefix (lit "desired/service/") &&
      (factKey.containsStr (lit "/secret/") || factKey.hasSuffix (lit "/image_pull_secret")) then
    capabilitySecretUse
  else if workloadFactPrefixes.any factKey.hasPrefix then capabilityWorkloadCreate
  else capabilityClusterAdmin

/-- The refusals of `CapabilityFactAuthorizer`. -/
inductive FactDenial where
  | notAWrite (permission : Permission)
  | denied (denial : APIDenial)
  deriving DecidableEq

structure CapabilityFactAuthorizer where
  apiAuthorizer : APIAuthorizer

def CapabilityFactAuthorizer.authorize (factAuthorizer : CapabilityFactAuthorizer)
    (order : IterationOrder) (principal : Str) (permission : Permission) (factKey : Str) :
    Except FactDenial Unit :=
  if permission = .write then
    (factAuthorizer.apiAuthorizer.authorizeAPI order (principalFromKindAndName principal)
      (requiredCapabilityForFactWrite factKey) scopeCluster none).1.mapError .denied
  else .error (.notAWrite permission)

/-! ## What the principal may write -/

section Accepted

variable {factAuthorizer : CapabilityFactAuthorizer} {order : IterationOrder} {principal : Str}

/-- The principal holds the one capability at cluster scope and no other. -/
def CapabilityFactAuthorizer.HoldsOnly (factAuthorizer : CapabilityFactAuthorizer)
    (principal : Str) (capability : Capability) : Prop :=
  ∀ required, factAuthorizer.apiAuthorizer.Allows (principalFromKindAndName principal) required
    scopeCluster none ↔ required = capability

def CapabilityFactAuthorizer.Accepts (factAuthorizer : CapabilityFactAuthorizer)
    (order : IterationOrder) (principal : Str) (facts : List Lang.Fact) : Prop :=
  ∀ fact ∈ facts, factAuthorizer.authorize order principal .write fact.key = .ok ()

/-- A holder of one capability writes its keys only. -/
theorem authorize_write_iff {capability : Capability}
    (honly : factAuthorizer.HoldsOnly principal capability) {factKey : Str} :
    factAuthorizer.authorize order principal .write factKey = .ok () ↔
      requiredCapabilityForFactWrite factKey = capability := by
  rw [← honly, ← APIAuthorizer.authorizeAPI_ok_iff order, CapabilityFactAuthorizer.authorize]
  cases (factAuthorizer.apiAuthorizer.authorizeAPI order (principalFromKindAndName principal)
    (requiredCapabilityForFactWrite factKey) scopeCluster none).1 with
  | error denial => exact iff_of_false (fun h => nomatch h) (fun h => nomatch h)
  | ok result => exact iff_of_true rfl rfl

/-- A key of a service that requires no more than `workload.create` has no telling
name in it. -/
theorem plain_of_workloadCreate {factKey : Str}
    (h : requiredCapabilityForFactWrite factKey = capabilityWorkloadCreate)
    (hservice : factKey.hasPrefix (lit "desired/service/") = true) :
    factKey.containsStr (lit "/cloud_identity/") = false ∧
      factKey.containsStr (lit "/secret/") = false ∧
      factKey.hasSuffix (lit "/image_pull_secret") = false := by
  unfold requiredCapabilityForFactWrite at h
  rw [hservice, Bool.true_and, Bool.true_and] at h
  split at h
  · exact absurd h (by decide)
  split at h
  · exact absurd h (by decide)
  split at h
  · exact absurd h (by decide)
  next hidentity hsecret =>
    rw [Bool.not_eq_true] at hidentity hsecret
    rw [Bool.or_eq_false_iff] at hsecret
    exact ⟨hidentity, hsecret⟩

end Accepted

/-! ## What a file binds -/

variable (connectionDecls : List Lang.ConnectionDecl)

/-- The connection is declared with a secret. -/
def CarriesSecret (connectionName : Str) : Prop :=
  ∃ connectionDecl, Lang.connectionDeclNamed connectionDecls connectionName =
    some connectionDecl ∧ connectionDecl.secret ≠ []

/-- No init step waits for a connection that carries a secret. -/
def InitStepsBindNoSecret (decl : Lang.ServiceDecl) : Prop :=
  ∀ initStep ∈ decl.initSteps, initStep.connection ≠ [] →
    ¬ CarriesSecret connectionDecls initStep.connection

/-- A service takes no secret and no cloud identity, also not through a connection. -/
structure BindsNoSecret (connectionDecls : List Lang.ConnectionDecl) (decl : Lang.ServiceDecl) :
    Prop where
  secrets : decl.secrets = []
  imagePullSecret : decl.imagePullSecret = []
  connections : ∀ connectionRef ∈ decl.connections,
    ¬ CarriesSecret connectionDecls connectionRef.connectionName
  initSteps : InitStepsBindNoSecret connectionDecls decl
  cloudIdentities : decl.cloudIdentities = []

/-- No service and no job of a file takes a secret or a cloud identity. -/
structure FileBindsNoSecret (file : Lang.File) : Prop where
  services : ∀ decl ∈ file.services, BindsNoSecret file.connections decl
  jobs : ∀ decl ∈ file.jobs, decl.imagePullSecret = []

section Services

variable {connectionDecls : List Lang.ConnectionDecl} {decl : Lang.ServiceDecl}

theorem plain_of_accepted {facts : List Lang.Fact}
    (haccepted : ∀ fact ∈ facts, requiredCapabilityForFactWrite fact.key = capabilityWorkloadCreate)
    {serviceName field value : Str}
    (hmem : (⟨fieldKey scanDesiredServices serviceName field, value⟩ : Lang.Fact) ∈ facts) :
    (¬lit "/cloud_identity/" <:+: fieldKey scanDesiredServices serviceName field) ∧
      (¬lit "/secret/" <:+: fieldKey scanDesiredServices serviceName field) ∧
      ¬lit "/image_pull_secret" <:+ fieldKey scanDesiredServices serviceName field := by
  obtain ⟨hidentity, hsecret, hpull⟩ :=
    plain_of_workloadCreate (haccepted _ hmem) (fieldKey_hasPrefix scanDesiredServices _ _)
  simp only [← Str.containsStr_iff, ← Str.hasSuffix_iff]
  exact ⟨by rw [hidentity]; exact Bool.false_ne_true, by rw [hsecret]; exact Bool.false_ne_true,
    by rw [hpull]; exact Bool.false_ne_true⟩

theorem infix_desiredServiceEntry (serviceName entry : Str) (group : String) :
    Str.slash :: lit group <:+: Types.desiredServiceEntry serviceName group entry :=
  ⟨scanDesiredServices ++ serviceName, entry, by simp [Types.desiredServiceEntry, fieldKey]⟩

/-- Facts a creator may write bind no secret. -/
theorem bindsNoSecret_of_accepted (haccepted : ∀ fact ∈ decl.tailFacts connectionDecls,
      requiredCapabilityForFactWrite fact.key = capabilityWorkloadCreate)
    (hinit : InitStepsBindNoSecret connectionDecls decl) :
    BindsNoSecret connectionDecls decl := by
  have hnoSecret : ∀ secretName value, (⟨keyDesiredServiceSecret decl.name secretName, value⟩ :
      Lang.Fact) ∉ decl.tailFacts connectionDecls := by
    intro secretName value hmem
    exact (plain_of_accepted haccepted hmem).2.1 (infix_desiredServiceEntry _ _ "secret/")
  have hsecrets : decl.secrets = [] := by
    refine eq_nil_iff_forall_not_mem.mpr (fun secret hsecret => ?_)
    refine hnoSecret secret.name secret.mountPath ?_
    simp only [Lang.ServiceDecl.tailFacts, mem_append, or_assoc]
    exact Or.inl (mem_map_of_mem (f := fun secret : Lang.SecretDecl =>
      (⟨keyDesiredServiceSecret decl.name secret.name, secret.mountPath⟩ : Lang.Fact)) hsecret)
  refine ⟨hsecrets, ?_, ?_, hinit, ?_⟩
  · by_contra hpull
    have hmem : (⟨keyDesiredServiceImagePullSecret decl.name, decl.imagePullSecret⟩ : Lang.Fact) ∈
        decl.tailFacts connectionDecls := by
      simp [Lang.ServiceDecl.tailFacts, hpull]
    exact (plain_of_accepted haccepted hmem).2.2
      ⟨scanDesiredServices ++ decl.name, by simp; rfl⟩
  · rintro connectionRef href ⟨connectionDecl, hnamed, hsecret⟩
    refine hnoSecret connectionDecl.secret (lit "connection") ?_
    have himplicit : Lang.implicitSecret connectionDecls decl.secrets connectionRef.connectionName =
        some connectionDecl.secret := by
      simp [Lang.implicitSecret, hnamed, hsecret, hsecrets]
    have hmem : (⟨keyDesiredServiceSecret decl.name connectionDecl.secret, lit "connection"⟩ :
        Lang.Fact) ∈ Lang.connectionRefFacts decl.name decl.connections connectionDecls
          decl.secrets := by
      refine mem_flatMap.mpr ⟨connectionRef, href, mem_cons_of_mem _ ?_⟩
      simp [himplicit]
    simp only [Lang.ServiceDecl.tailFacts, mem_append, hmem, true_or, or_true]
  · refine eq_nil_iff_forall_not_mem.mpr (fun binding hbinding => ?_)
    have hmem : (⟨keyDesiredServiceCloudIdentity decl.name binding.identityName, []⟩ : Lang.Fact) ∈
        decl.tailFacts connectionDecls := by
      have hown : (⟨keyDesiredServiceCloudIdentity decl.name binding.identityName, []⟩ :
          Lang.Fact) ∈ Lang.cloudIdentityBindingFacts decl.name decl.cloudIdentities :=
        mem_flatMap.mpr ⟨binding, hbinding, by simp⟩
      simp only [Lang.ServiceDecl.tailFacts, mem_append, hown, true_or, or_true]
    exact (plain_of_accepted haccepted hmem).1 (infix_desiredServiceEntry _ _ "cloud_identity/")

end Services

/-- A file accepted with `workload.create` alone binds no secret and no cloud identity,
as far as its jobs pull their images without a secret and its init steps wait for no
connection that carries one. -/
theorem workloadCreate_binds_no_secret_iff {factAuthorizer : CapabilityFactAuthorizer}
    {order : IterationOrder} {principal : Str}
    (honly : factAuthorizer.HoldsOnly principal capabilityWorkloadCreate)
    {sourceLines : List Str} {surroundings : Lang.Surroundings} {file : Lang.File}
    {facts : List Lang.Fact}
    (hcompile : Lang.compileWithSource sourceLines surroundings file = .ok facts)
    (haccepts : factAuthorizer.Accepts order principal facts) :
    FileBindsNoSecret file ↔ (∀ decl ∈ file.jobs, decl.imagePullSecret = []) ∧
      ∀ decl ∈ file.services, InitStepsBindNoSecret file.connections decl := by
  refine ⟨fun h => ⟨h.jobs, fun decl hdecl => (h.services decl hdecl).initSteps⟩,
    fun ⟨hjobs, hinit⟩ => ⟨fun decl hdecl => ?_, hjobs⟩⟩
  have hdeclared : Lang.Declaration.service decl ∈ file.declarations := by
    simp [Lang.File.declarations, hdecl]
  have hmem : ∀ {fact}, fact ∈ facts ↔ _ := Lang.mem_compileWithSource hcompile
  rw [Lang.compileWithSource_eq] at hcompile
  have hown := (Lang.compileEach_eq_ok_iff.mp hcompile).1 _ hdeclared
  refine bindsNoSecret_of_accepted (fun fact hfact => ?_) (hinit decl hdecl)
  refine (authorize_write_iff honly).mp (haccepts fact (hmem.mpr ?_))
  exact ⟨_, hdeclared, _, hown, Lang.tailFacts_subset hown hfact⟩

/-! ## A job's image pull secret -/

/-- A user with `workload.create` at cluster scope. -/
def creator : CapabilityFactAuthorizer :=
  ⟨{ APIAuthorizer.new with
      grants := Map.set ∅ (lit "user:ann") [⟨capabilityWorkloadCreate, scopeCluster⟩] }⟩

theorem holds_creator_iff {grant : CapabilityGrant} :
    APIAuthorizer.Holds creator.apiAuthorizer.grants (lit "user:ann") grant ↔
      grant = ⟨capabilityWorkloadCreate, scopeCluster⟩ := by
  have hget : ∀ bound, creator.apiAuthorizer.grants.get bound [] =
      if bound = lit "user:ann" then [⟨capabilityWorkloadCreate, scopeCluster⟩] else [] := by
    intro bound
    unfold creator Map.get
    rw [Map.lookup_set]
    split <;> rfl
  constructor
  · intro ⟨bound, _, hgrant⟩
    rw [hget] at hgrant
    split at hgrant
    · exact mem_singleton.mp hgrant
    · cases hgrant
  · intro hgrant
    refine ⟨lit "user:ann", Or.inl rfl, ?_⟩
    rw [hget, hgrant]
    exact mem_singleton_self _

theorem creator_holdsOnly : creator.HoldsOnly (lit "user:ann") capabilityWorkloadCreate := by
  intro _
  have hname : principalFromKindAndName (lit "user:ann") = ⟨lit "user", lit "ann", [], []⟩ := by
    decide
  have hstring : (⟨lit "user", lit "ann", [], []⟩ : Principal).string = lit "user:ann" := by decide
  have hdiffer : capabilityWorkloadCreate ≠ capabilityClusterAdmin := by decide
  rw [hname]
  constructor
  · intro hallows
    rcases hallows.granted with ⟨_, hbootstrap | hgrant, hcovers⟩ | ⟨_, hpolicy, _⟩
    · obtain ⟨_, _, hmem⟩ := hbootstrap
      cases hmem
    · rw [hstring, holds_creator_iff] at hgrant
      rw [hgrant, CapabilityGrant.covers, Bool.and_eq_true] at hcovers
      simpa [hdiffer, eq_comm] using hcovers.1
    · cases hpolicy
  · intro hrequired
    refine ⟨by decide, Or.inl ⟨⟨capabilityWorkloadCreate, scopeCluster⟩, Or.inr ?_, ?_⟩⟩
    · rw [hstring, holds_creator_iff]
    · rw [hrequired]
      decide

/-- A service that waits for a connection without a secret, and a job with an image from
an open registry. -/
def plainFile : Lang.File :=
  { connections := [{ name := lit "db", driver := lit "redis", host := lit "cache" }]
    services := [
      { name := lit "web", image := lit "nginx", instances := 1,
        initSteps := [{ connection := lit "db" }] }]
    jobs := [{ name := lit "migrate", image := lit "app" }] }

/-- The same file with a job that pulls its image with a secret. -/
def pullingFile : Lang.File :=
  { plainFile with
    jobs := [{ name := lit "migrate", image := lit "app", imagePullSecret := lit "registry" }] }

/-- The file compiles, and every fact of it is accepted for the creator. -/
def acceptedFile (file : Lang.File) : Bool :=
  match Lang.compile Lang.plainSurroundings file with
  | .ok facts => facts.all (fun fact =>
    requiredCapabilityForFactWrite fact.key == capabilityWorkloadCreate)
  | .error _ => false

theorem accepts_of_acceptedFile {file : Lang.File} (h : acceptedFile file = true) :
    ∃ facts, Lang.compile Lang.plainSurroundings file = .ok facts ∧
      ∀ order, creator.Accepts order (lit "user:ann") facts := by
  unfold acceptedFile at h
  split at h
  next facts hcompile =>
    refine ⟨facts, hcompile, fun order fact hfact => ?_⟩
    rw [authorize_write_iff creator_holdsOnly]
    exact eq_of_beq (all_eq_true.mp h fact hfact)
  next => cases h

theorem plainFile_binds_no_secret : FileBindsNoSecret plainFile := by
  have haccepted : acceptedFile plainFile = true := by decide +kernel
  obtain ⟨_, hcompile, haccepts⟩ := accepts_of_acceptedFile haccepted
  refine (workloadCreate_binds_no_secret_iff creator_holdsOnly hcompile
    (haccepts .identity)).mpr ⟨by decide, ?_⟩
  intro decl hdecl initStep hstep _ ⟨connectionDecl, hnamed, hsecret⟩
  obtain rfl := mem_singleton.mp hdecl
  obtain rfl := mem_singleton.mp hstep
  exact hsecret (congrArg Lang.ConnectionDecl.secret (Option.some.inj hnamed).symm)

/-- A job that pulls its image with a secret needs no more than `workload.create`. -/
theorem pullSecret_accepted_for_creator :
    ∃ facts, Lang.compile Lang.plainSurroundings pullingFile = .ok facts ∧
      (∀ order, creator.Accepts order (lit "user:ann") facts) ∧ ¬FileBindsNoSecret pullingFile := by
  have haccepted : acceptedFile pullingFile = true := by decide +kernel
  obtain ⟨facts, hcompile, haccepts⟩ := accepts_of_acceptedFile haccepted
  refine ⟨facts, hcompile, haccepts, fun h => ?_⟩
  exact absurd (h.jobs _ (mem_singleton_self _)) (by decide)

end CCattler.Security
