import CCattler.Go.Path
import CCattler.Lang.AccessControl
import CCattler.Types.DeclarationKeys

/-! # The compiler

A file becomes a list of facts, declaration by declaration in a fixed order of the
kinds, or the first error found on the way.
-/

namespace CCattler.Lang

open Go CCattler.Types

structure Surroundings where
  /-- `os.ReadFile`: the contents, or the text of the error. -/
  readFile : Str → Except Str Str
  /-- The verb `%q` of package `fmt` for a string. -/
  quote : Str → Str

/-- A `ParseError`, or the plain error of a config file that cannot be read. -/
inductive CompileError where
  | parse (error : ParseError)
  | other (message : Str)
  deriving DecidableEq

abbrev Compiled : Type := Except CompileError (List Fact)

/-- The loops over the declarations of one kind: the facts of one after another,
up to the first error. -/
def compileEach {Decl : Type} (compileOne : Decl → Compiled) : List Decl → Compiled
  | [] => .ok []
  | decl :: rest =>
    match compileOne decl with
    | .error error => .error error
    | .ok facts => (compileEach compileOne rest).map (facts ++ ·)

def textFact (key value : Str) : List Fact := if value = [] then [] else [⟨key, value⟩]

def countFact (key : Str) (count : Int) : List Fact :=
  if count > 0 then [⟨key, itoa count⟩] else []

def flagFact (key : Str) (flag : Bool) : List Fact := if flag then [⟨key, lit "true"⟩] else []

def blockFacts {Block : Type} (block : Option Block) (facts : Block → List Fact) : List Fact :=
  match block with
  | none => []
  | some present => facts present

section Declarations

variable (sourceLines : List Str)

def compileError (line : Int) (message : Str) : CompileError :=
  .parse (declarationError sourceLines line message)

/-! ## Tenants and volumes -/

def QuotaDecl.facts (tenantName : Str) (quota : QuotaDecl) : List Fact :=
  countFact (keyDesiredTenantQuotaCPU tenantName) quota.cpu ++
  textFact (keyDesiredTenantQuotaMemory tenantName) quota.memory ++
  countFact (keyDesiredTenantQuotaInstances tenantName) quota.instances ++
  countFact (keyDesiredTenantQuotaVolumes tenantName) quota.volumes ++
  textFact (keyDesiredTenantQuotaStorage tenantName) quota.storage

def TenantDecl.facts (tenantDecl : TenantDecl) : List Fact :=
  [⟨keyDesiredTenant tenantDecl.name, []⟩] ++
  countFact (keyDesiredTenantWeight tenantDecl.name) tenantDecl.weight ++
  blockFacts tenantDecl.quota (QuotaDecl.facts tenantDecl.name)

def compileTenantDeclaration (tenantDecl : TenantDecl) : Compiled :=
  if tenantDecl.name = [] then
    .error (compileError sourceLines tenantDecl.line (lit "tenant name is required"))
  else .ok tenantDecl.facts

def VolumeDecl.facts (volumeDecl : VolumeDecl) : List Fact :=
  [⟨keyDesiredVolume volumeDecl.name, []⟩, ⟨keyDesiredVolumeSize volumeDecl.name, volumeDecl.size⟩,
    ⟨keyDesiredVolumePersistent volumeDecl.name,
      if volumeDecl.persistent then lit "true" else lit "false"⟩] ++
  textFact (keyDesiredVolumeType volumeDecl.name) volumeDecl.storageType

def compileVolumeDeclaration (volumeDecl : VolumeDecl) : Compiled :=
  if volumeDecl.name = [] then
    .error (compileError sourceLines volumeDecl.line (lit "volume name is required"))
  else .ok volumeDecl.facts

/-! ## Cloud identities, the credential broker and the cloud provider -/

section CloudIdentity

variable (surroundings : Surroundings)

variable (decl : CloudIdentityDecl)

def requiredIdentityFields : Option (List (String × Str)) :=
  if decl.provider = lit "aws" then some [("a role", decl.role)]
  else if decl.provider = lit "gcp" then
    some [("a service_account", decl.serviceAccount), ("a pool", decl.pool)]
  else if decl.provider = lit "azure" then
    some [("a client_id", decl.clientID), ("a tenant_id", decl.tenantID)]
  else none

/-- `validateCloudIdentityRequiredFields`: the message of the first check that fails. -/
def validateCloudIdentityRequiredFields : Option Str :=
  if decl.name = [] then some (lit "cloud_identity name is required")
  else if decl.provider = [] then
    some (lit "cloud_identity " ++ surroundings.quote decl.name ++
      lit " requires a provider (aws, gcp, or azure)")
  else
    match requiredIdentityFields decl with
    | none =>
      some (lit "cloud_identity " ++ surroundings.quote decl.name ++
        lit " has unknown provider " ++ surroundings.quote decl.provider ++
        lit " (must be aws, gcp, or azure)")
    | some fields =>
      (fields.find? (fun field => field.2 = [])).map (fun field =>
        lit "cloud_identity " ++ surroundings.quote decl.name ++ lit " with provider " ++
          decl.provider ++ lit " requires " ++ lit field.1)

/-- `buildCloudIdentityFactsFromDeclaration`. -/
def CloudIdentityDecl.facts : List Fact :=
  [⟨keyDesiredCloudIdentity decl.name, []⟩,
    ⟨keyDesiredCloudIdentityProvider decl.name, decl.provider⟩] ++
  textFact (keyDesiredCloudIdentityRole decl.name) decl.role ++
  textFact (keyDesiredCloudIdentityServiceAccount decl.name) decl.serviceAccount ++
  textFact (keyDesiredCloudIdentityPool decl.name) decl.pool ++
  textFact (keyDesiredCloudIdentityClientID decl.name) decl.clientID ++
  textFact (keyDesiredCloudIdentityTenantID decl.name) decl.tenantID

def compileCloudIdentityDeclaration : Compiled :=
  match validateCloudIdentityRequiredFields surroundings decl with
  | some message => .error (compileError sourceLines decl.line message)
  | none => .ok decl.facts

end CloudIdentity

def CredentialBrokerDecl.facts (decl : CredentialBrokerDecl) : List Fact :=
  [⟨keyDesiredCredentialBrokerOIDCIssuer, decl.oidcIssuer⟩] ++
  textFact keyDesiredCredentialBrokerCredentialTTL decl.credentialTTL ++
  textFact keyDesiredCredentialBrokerRefreshBefore decl.refreshBefore

def compileCredentialBrokerDeclaration (decl : CredentialBrokerDecl) : Compiled :=
  if decl.oidcIssuer = [] then
    .error (compileError sourceLines decl.line (lit "credential_broker requires an oidc_issuer"))
  else .ok decl.facts

def CloudDecl.facts (decl : CloudDecl) : List Fact :=
  [⟨keyDesiredCloudProvider, decl.provider⟩] ++
  textFact keyDesiredCloudRegion decl.region ++
  textFact keyDesiredCloudInstanceType decl.instanceType ++
  textFact keyDesiredCloudCredentials decl.credentials ++
  textFact keyDesiredCloudProjectID decl.projectID ++
  textFact keyDesiredCloudResourceGroup decl.resourceGroup ++
  textFact keyDesiredCloudVPCNetwork decl.vpcNetwork ++
  textFact keyDesiredCloudRouteTable decl.routeTable

def compileCloudDeclaration (surroundings : Surroundings) (decl : CloudDecl) : Compiled :=
  if decl.provider = [] then
    .error (compileError sourceLines decl.line
      (lit "cloud block requires a provider (aws, gcp, or azure)"))
  else if decl.provider ∉ [lit "aws", lit "gcp", lit "azure"] then
    .error (compileError sourceLines decl.line (lit "unknown cloud provider " ++
      surroundings.quote decl.provider ++ lit " (expected aws, gcp, or azure)"))
  else .ok decl.facts

/-! ## Connections -/

section

variable (surroundings : Surroundings) (decl : ConnectionDecl)

def buildConnectionJSON : Str :=
  let text (name : String) (value : Str) : Str :=
    lit "\"" ++ lit name ++ lit "\":" ++ surroundings.quote value
  let optional (name : String) (value : Str) : List Str :=
    if value = [] then [] else [text name value]
  let parts :=
    [text "driver" decl.driver] ++ optional "user" decl.user ++ optional "secret" decl.secret ++
    [text "host" decl.host] ++
    (if decl.port > 0 then [lit "\"port\":" ++ itoa decl.port] else []) ++
    optional "database" decl.database
  lit "\x7b" ++ Str.join (lit ",") parts ++ lit "\x7d"

def compileConnectionDeclaration : Compiled :=
  if decl.name = [] then
    .error (compileError sourceLines decl.line (lit "connection name is required"))
  else .ok [⟨keyDesiredConnection decl.name, buildConnectionJSON surroundings decl⟩]

end

/-! ## Gates -/

def resolvePath (baseDir path : Str) : Str :=
  if baseDir ≠ [] ∧ path.head? ≠ some Str.slash then joinPath [baseDir, path] else path

/-- `compileStickyFacts`. -/
def RouteCookieSettings.facts (routeName : Str) (cookie : RouteCookieSettings) : List Fact :=
  textFact (keyDesiredRouteCookieName routeName) cookie.name ++
  flagFact (keyDesiredRouteCookieSecure routeName) cookie.secure ++
  flagFact (keyDesiredRouteCookieHTTPOnly routeName) cookie.httpOnly ++
  textFact (keyDesiredRouteCookieSameSite routeName) cookie.sameSite

@[inherit_doc RouteCookieSettings.facts]
def RouteStickyDecl.facts (routeName : Str) (sticky : RouteStickyDecl) : List Fact :=
  [⟨keyDesiredRouteSticky routeName, sticky.method⟩] ++
  blockFacts sticky.cookie (RouteCookieSettings.facts routeName)

def RouteDecl.facts (decl : RouteDecl) : List Fact :=
  [⟨keyDesiredRoute decl.name, []⟩, ⟨keyDesiredRouteService decl.name, decl.serviceName⟩] ++
  textFact (keyDesiredRouteHost decl.name) decl.host ++
  textFact (keyDesiredRoutePath decl.name) decl.path ++
  countFact (keyDesiredRoutePort decl.name) decl.servicePort ++
  blockFacts decl.sticky (RouteStickyDecl.facts decl.name)

section

variable (surroundings : Surroundings)

def loadCertificate (baseDir : Str) (decl : RouteDecl) (tls : RouteTLSDecl) :
    Except CompileError RouteTLSDecl :=
  let cannotRead (what : String) (file error : Str) : CompileError :=
    compileError sourceLines decl.line (lit "gate " ++ surroundings.quote decl.name ++
      lit ": cannot read tls " ++ lit what ++ lit " " ++ surroundings.quote file ++ lit ": " ++
      error)
  if tls.mode = routeTLSModeManual ∧ tls.certPEM = [] then
    match surroundings.readFile (resolvePath baseDir tls.certFile) with
    | .error error => .error (cannotRead "cert" tls.certFile error)
    | .ok cert =>
      match surroundings.readFile (resolvePath baseDir tls.keyFile) with
      | .error error => .error (cannotRead "key" tls.keyFile error)
      | .ok key => .ok { tls with certPEM := cert, keyPEM := key }
  else .ok tls

def compileTLSFacts (routeName : Str) (tls : RouteTLSDecl) (line : Int) : Compiled :=
  let modeFact : Fact := ⟨keyDesiredRouteTLSMode routeName, tls.mode⟩
  if tls.mode = routeTLSModeManual then
    if tls.certPEM = [] then
      .error (compileError sourceLines line (lit "gate " ++ surroundings.quote routeName ++
        lit ": tls cert file content is empty"))
    else
      .ok [modeFact, ⟨keyDesiredRouteTLSCert routeName, tls.certPEM⟩,
        ⟨keyDesiredRouteTLSKey routeName, tls.keyPEM⟩]
  else .ok [modeFact]

def compileRouteDeclaration (baseDir : Str) (decl : RouteDecl) : Compiled :=
  if decl.name = [] then
    .error (compileError sourceLines decl.line (lit "gate name is required"))
  else if decl.serviceName = [] then
    .error (compileError sourceLines decl.line (lit "gate must specify a target service"))
  else
    match decl.tls with
    | none => .ok decl.facts
    | some tls => do
        let loaded ← loadCertificate sourceLines surroundings baseDir decl tls
        let tlsFacts ← compileTLSFacts sourceLines surroundings decl.name loaded decl.line
        return decl.facts ++ tlsFacts

end

/-! ## Services -/

/-- `extractTenantFromHierarchicalName`: what comes before the first slash, unless it
is first. -/
def extractTenantFromHierarchicalName (serviceName : Str) : Str :=
  match Str.cut [Str.slash] serviceName with
  | some (tenantName, _) => tenantName
  | none => []

def ServiceDecl.ownerTenant (decl : ServiceDecl) : Str :=
  if decl.owner = [] then extractTenantFromHierarchicalName decl.name else decl.owner

def ServiceDecl.isPerNode (decl : ServiceDecl) : Bool :=
  match decl.placement with
  | none => false
  | some placement => placement.mode == lit "per-node"

def ServiceDecl.headFacts (decl : ServiceDecl) : List Fact :=
  [⟨keyDesiredService decl.name, []⟩, ⟨keyDesiredServiceImage decl.name, decl.image⟩,
    ⟨keyDesiredServiceInstances decl.name, itoa decl.instances⟩,
    ⟨keyIntentUserServiceInstances decl.name, itoa decl.instances⟩] ++
  (if decl.isPerNode then []
    else [⟨keyEffectiveServiceInstances decl.name, itoa decl.instances⟩]) ++
  textFact (keyDesiredServiceCommand decl.name) decl.command ++
  textFact (keyDesiredServiceOwner decl.name) decl.ownerTenant

def portOutOfRange (port : Int) : Bool := port < 1 || port > 65535

def portFacts (serviceName : Str) (ports : List Int) (externalPorts : List ExternalPortDecl) :
    List Fact :=
  ports.map (fun port => ⟨keyDesiredServiceExpose serviceName port, []⟩) ++
  externalPorts.flatMap (fun externalPort =>
    [⟨keyDesiredServiceExpose serviceName externalPort.port, []⟩,
      ⟨keyDesiredServiceExposeExternal serviceName externalPort.port, externalPort.protocol⟩])

def compileServicePortsFacts (surroundings : Surroundings) (serviceName : Str) (ports : List Int)
    (externalPorts : List ExternalPortDecl) (line : Int) : Compiled :=
  let outOfRange (what : String) (port : Int) : Compiled :=
    .error (compileError sourceLines line (lit "service " ++ surroundings.quote serviceName ++
      lit what ++ itoa port ++ lit " out of range (1-65535)"))
  match ports.find? portOutOfRange with
  | some port => outOfRange " port " port
  | none =>
    match externalPorts.find? (fun externalPort => portOutOfRange externalPort.port) with
    | some externalPort => outOfRange " external port " externalPort.port
    | none => .ok (portFacts serviceName ports externalPorts)

def classifyQoS (resources : ResourcesDecl) : Str :=
  let hasCPU := resources.cpu ≠ []
  let hasMemory := resources.memory ≠ []
  let hasCPULimit := resources.cpuLimit ≠ []
  let hasMemoryLimit := resources.memoryLimit ≠ []
  if ¬hasCPU ∧ ¬hasMemory ∧ ¬hasCPULimit ∧ ¬hasMemoryLimit then lit "BestEffort"
  else if (hasCPU ∧ hasCPULimit ∧ resources.cpu = resources.cpuLimit) ∧
      (hasMemory ∧ hasMemoryLimit ∧ resources.memory = resources.memoryLimit) then
    lit "Guaranteed"
  else if hasCPU ∧ ¬hasCPULimit ∧ hasMemory ∧ ¬hasMemoryLimit then lit "Guaranteed"
  else lit "Burstable"

section

variable (serviceName : Str)

/-- `compileServiceResourceFacts`. -/
def ResourcesDecl.facts (resources : ResourcesDecl) : List Fact :=
  textFact (keyDesiredServiceResourcesCPU serviceName) resources.cpu ++
  textFact (keyDesiredServiceResourcesMemory serviceName) resources.memory ++
  textFact (keyDesiredServiceResourcesCPULimit serviceName) resources.cpuLimit ++
  textFact (keyDesiredServiceResourcesMemoryLimit serviceName) resources.memoryLimit ++
  [⟨keyDerivedServiceQoSClass serviceName, classifyQoS resources⟩]

/-- `compileServiceVolumeMountFacts`. -/
def volumeMountFacts (volumeMounts : List VolumeMountDecl) : List Fact :=
  volumeMounts.map (fun mount =>
    ⟨keyDesiredServiceVolume serviceName mount.volumeName, mount.mountPath⟩)

def ScheduleDecl.facts (schedule : ScheduleDecl) : List Fact :=
  [⟨keyDesiredServiceScaleScheduleDays serviceName, schedule.days⟩,
    ⟨keyDesiredServiceScaleScheduleStart serviceName, schedule.start⟩,
    ⟨keyDesiredServiceScaleScheduleEnd serviceName, schedule.endTime⟩,
    ⟨keyDesiredServiceScaleScheduleMinimum serviceName, itoa schedule.minimum⟩]

def StabilizationDecl.facts (stabilization : StabilizationDecl) : List Fact :=
  textFact (keyDesiredServiceScaleStabilizationUp serviceName) stabilization.scaleUp ++
  textFact (keyDesiredServiceScaleStabilizationDown serviceName) stabilization.scaleDown

end

def HorizontalScaleDecl.facts (serviceName : Str) (horizontal : HorizontalScaleDecl) : List Fact :=
  [⟨keyDesiredServiceScaleHorizontalMin serviceName, itoa horizontal.min⟩,
    ⟨keyDesiredServiceScaleHorizontalMax serviceName, itoa horizontal.max⟩] ++
  horizontal.targets.map (fun target =>
    ⟨keyDesiredServiceScaleHorizontalTarget serviceName target.metric, itoa target.value⟩) ++
  horizontal.events.map (fun event =>
    ⟨keyDesiredServiceScaleHorizontalEvent serviceName event.source, itoa event.target⟩) ++
  blockFacts horizontal.schedule (ScheduleDecl.facts serviceName) ++
  blockFacts horizontal.stabilization (StabilizationDecl.facts serviceName) ++
  textFact (keyDesiredServiceScaleIdleTimeout serviceName) horizontal.idleTimeout ++
  textFact (keyDesiredServiceScaleActivationTimeout serviceName) horizontal.activationTimeout

def compileServiceHorizontalScaleFacts (surroundings : Surroundings) (serviceName : Str)
    (horizontal : HorizontalScaleDecl) (line : Int) : Compiled :=
  let fails (message : Str) : Compiled :=
    .error (compileError sourceLines line
      (lit "service " ++ surroundings.quote serviceName ++ message))
  if horizontal.min < 0 then fails (lit " scale min must be >= 0")
  else if horizontal.max < horizontal.min then fails (lit " scale max must be >= min")
  else
    match horizontal.targets.find? (fun target => target.value ≤ 0) with
    | some target =>
      fails (lit " scale target " ++ surroundings.quote target.metric ++ lit " must be > 0")
    | none =>
      match horizontal.events.find? (fun event => event.target ≤ 0) with
      | some event =>
        fails (lit " event target for " ++ surroundings.quote event.source ++ lit " must be > 0")
      | none => .ok (horizontal.facts serviceName)

/-- `compileServiceVerticalScaleFacts`. -/
def VerticalScaleDecl.facts (serviceName : Str) (vertical : VerticalScaleDecl) : List Fact :=
  textFact (keyDesiredServiceScaleVerticalCPUMin serviceName) vertical.cpuMin ++
  textFact (keyDesiredServiceScaleVerticalCPUMax serviceName) vertical.cpuMax ++
  textFact (keyDesiredServiceScaleVerticalMemoryMin serviceName) vertical.memoryMin ++
  textFact (keyDesiredServiceScaleVerticalMemoryMax serviceName) vertical.memoryMax

def compileServiceScaleFacts (surroundings : Surroundings) (serviceName : Str)
    (scale : Option ScaleDecl) (line : Int) : Compiled :=
  match scale with
  | none => .ok []
  | some scale => do
      let horizontalFacts ← match scale.horizontal with
        | none => .ok []
        | some horizontal =>
          compileServiceHorizontalScaleFacts sourceLines surroundings serviceName horizontal line
      return horizontalFacts ++ blockFacts scale.vertical (VerticalScaleDecl.facts serviceName)

section

variable (serviceName : Str)

/-- `compileServicePlacementFacts`. -/
def PlacementDecl.facts (placement : PlacementDecl) : List Fact :=
  textFact (keyDesiredServicePlacementMode serviceName) placement.mode ++
  textFact (keyDesiredServicePlacementArchitecture serviceName) placement.architecture ++
  textFact (keyDesiredServicePlacementZonePolicy serviceName) placement.zonePolicy ++
  (if placement.zonePolicy = [] then []
    else countFact (keyDesiredServicePlacementZoneMaxSkew serviceName) placement.zoneMaxSkew) ++
  placement.require.map (fun rule =>
    ⟨keyDesiredServicePlacementRequire serviceName rule.label, rule.value⟩) ++
  placement.prefer.map (fun rule =>
    ⟨keyDesiredServicePlacementPrefer serviceName rule.label, rule.value⟩) ++
  placement.accept.map (fun label => ⟨keyDesiredServicePlacementAccept serviceName label, []⟩) ++
  placement.colocate.map (fun targetService =>
    ⟨keyDesiredServicePlacementColocate serviceName targetService, []⟩) ++
  placement.separate.map (fun targetService =>
    ⟨keyDesiredServicePlacementSeparate serviceName targetService, []⟩) ++
  flagFact (keyDesiredServicePlacementRebalance serviceName) placement.rebalance

/-- `compileServiceUpdateFacts`. -/
def UpdateDecl.facts (update : UpdateDecl) : List Fact :=
  [⟨keyDesiredServiceUpdateMaxUnavailable serviceName, itoa update.maxUnavailable⟩,
    ⟨keyDesiredServiceUpdateMaxExtra serviceName, itoa update.maxExtra⟩]

/-- `compileServiceDisruptionFacts`. -/
def DisruptionDecl.facts (disruption : DisruptionDecl) : List Fact :=
  (if disruption.minAvailable = 0 then []
    else [⟨keyDesiredServiceDisruptionMinAvailable serviceName, itoa disruption.minAvailable⟩]) ++
  (if disruption.maxUnavailable = 0 then []
    else [⟨keyDesiredServiceDisruptionMaxUnavailable serviceName, itoa disruption.maxUnavailable⟩])

/-- `compileServiceTagFacts`. -/
def tagFacts (tags : List TagDecl) : List Fact :=
  tags.map (fun tag => ⟨keyDesiredServiceTag serviceName tag.key, tag.value⟩)

/-- `compileServiceLoggingFacts`. -/
def LoggingDecl.facts (logging : LoggingDecl) : List Fact :=
  textFact (keyDesiredServiceLoggingMaxSize serviceName) logging.maxSize ++
  countFact (keyDesiredServiceLoggingMaxFiles serviceName) logging.maxFiles

/-- `compileServiceLifecycleFacts`. -/
def LifecycleDecl.facts (lifecycle : LifecycleDecl) : List Fact :=
  textFact (keyDesiredServiceLifecyclePreStop serviceName) lifecycle.preStop ++
  textFact (keyDesiredServiceLifecyclePostStart serviceName) lifecycle.postStart

/-- `compileProbeDeclaration`. -/
def ProbeDecl.facts (probeType : Str) (probe : ProbeDecl) : List Fact :=
  [⟨keyDesiredServiceProbeMethod serviceName probeType, probe.method⟩] ++
  textFact (keyDesiredServiceProbePath serviceName probeType) probe.path ++
  countFact (keyDesiredServiceProbePort serviceName probeType) probe.port ++
  textFact (keyDesiredServiceProbeInterval serviceName probeType) probe.interval ++
  textFact (keyDesiredServiceProbeTimeout serviceName probeType) probe.timeout ++
  countFact (keyDesiredServiceProbeFailureThreshold serviceName probeType) probe.failureThreshold ++
  countFact (keyDesiredServiceProbeSuccessThreshold serviceName probeType) probe.successThreshold ++
  textFact (keyDesiredServiceProbeInitialDelay serviceName probeType) probe.initialDelay

def HealthDecl.facts (health : HealthDecl) : List Fact :=
  textFact (keyDesiredServiceHealthMethod serviceName) health.method ++
  textFact (keyDesiredServiceHealthPath serviceName) health.path ++
  textFact (keyDesiredServiceHealthInterval serviceName) health.interval ++
  textFact (keyDesiredServiceHealthTimeout serviceName) health.timeout

end

/-- `compileServiceHealthProbeFacts`. -/
def ServiceDecl.healthProbeFacts (decl : ServiceDecl) : List Fact :=
  blockFacts decl.health (HealthDecl.facts decl.name) ++
  blockFacts decl.startup (ProbeDecl.facts decl.name probeStartup) ++
  blockFacts decl.liveness (ProbeDecl.facts decl.name probeLiveness) ++
  blockFacts decl.readiness (ProbeDecl.facts decl.name probeReadiness)

def compileConfigFile (surroundings : Surroundings) (serviceName baseDir : Str)
    (configFile : ConfigFileDecl) : Compiled :=
  let key := keyDesiredServiceConfigFile serviceName configFile.path
  if configFile.fromFile = [] then .ok [⟨key, configFile.content⟩]
  else
    match surroundings.readFile (resolvePath baseDir configFile.fromFile) with
    | .ok fileContent => .ok [⟨key, fileContent⟩]
    | .error error =>
      .error (.other (lit "config file " ++ surroundings.quote configFile.path ++
        lit ": cannot read " ++ surroundings.quote configFile.fromFile ++ lit ": " ++ error))

def envFacts (serviceName : Str) (envVars : List EnvVarDecl) : List Fact :=
  envVars.map (fun envVar => ⟨keyDesiredServiceConfigEnv serviceName envVar.name, envVar.value⟩)

def compileServiceConfigFacts (surroundings : Surroundings) (serviceName : Str)
    (config : Option ConfigDecl) (baseDir : Str) : Compiled :=
  match config with
  | none => .ok []
  | some config =>
    (compileEach (compileConfigFile surroundings serviceName baseDir) config.configFiles).map
      (envFacts serviceName config.envVars ++ ·)

/-- `compileServiceSecretFacts`. -/
def secretFacts (serviceName : Str) (secrets : List SecretDecl) : List Fact :=
  secrets.map (fun secret => ⟨keyDesiredServiceSecret serviceName secret.name, secret.mountPath⟩)

/-- `buildConnectionDeclMap` and a look up in it: the last declaration of a name counts. -/
def connectionDeclNamed (connectionDecls : List ConnectionDecl) (name : Str) :
    Option ConnectionDecl :=
  connectionDecls.reverse.find? (fun decl => decl.name = name)

def implicitSecret (connectionDecls : List ConnectionDecl) (explicitSecrets : List SecretDecl)
    (connectionName : Str) : Option Str :=
  match connectionDeclNamed connectionDecls connectionName with
  | none => none
  | some decl =>
    if decl.secret ≠ [] ∧ decl.secret ∉ explicitSecrets.map SecretDecl.name then some decl.secret
    else none

/-- `compileServiceConnectionRefFacts`. -/
def connectionRefFacts (serviceName : Str) (connectionRefs : List ConnectionRef)
    (connectionDecls : List ConnectionDecl) (explicitSecrets : List SecretDecl) : List Fact :=
  connectionRefs.flatMap (fun connectionRef =>
    ⟨keyDesiredServiceConnection serviceName connectionRef.connectionName,
        connectionRef.mountPath⟩ ::
      blockFacts (implicitSecret connectionDecls explicitSecrets connectionRef.connectionName)
        (fun secret => [⟨keyDesiredServiceSecret serviceName secret, lit "connection"⟩]))

/-- `compileServiceCloudIdentityFacts`. -/
def cloudIdentityBindingFacts (serviceName : Str) (bindings : List CloudIdentityBindingDecl) :
    List Fact :=
  bindings.flatMap (fun binding =>
    [⟨keyDesiredServiceCloudIdentity serviceName binding.identityName, []⟩] ++
    textFact (keyDesiredServiceCloudIdentityMountPath serviceName binding.identityName)
      binding.mountPath ++
    textFact (keyDesiredServiceCloudIdentityDeliverMode serviceName binding.identityName)
      binding.deliverMode)

def InitStepDecl.facts (serviceName : Str) (stepIndex : Nat) (initStep : InitStepDecl) :
    List Fact :=
  [⟨keyDesiredServiceInitStep serviceName stepIndex, []⟩] ++
  (if initStep.connection = [] then
    [⟨keyDesiredServiceInitStepExec serviceName stepIndex, initStep.exec⟩]
  else [⟨keyDesiredServiceInitStepConnection serviceName stepIndex, initStep.connection⟩]) ++
  textFact (keyDesiredServiceInitStepTimeout serviceName stepIndex) initStep.timeout ++
  countFact (keyDesiredServiceInitStepRetry serviceName stepIndex) initStep.retry

/-- `compileServiceInitStepFacts`, from an index on. -/
def initStepFacts (serviceName : Str) : Nat → List InitStepDecl → List Fact
  | _, [] => []
  | stepIndex, initStep :: rest =>
    initStep.facts serviceName stepIndex ++ initStepFacts serviceName (stepIndex + 1) rest

def ServiceDecl.tailFacts (connectionDecls : List ConnectionDecl) (decl : ServiceDecl) :
    List Fact :=
  secretFacts decl.name decl.secrets ++
  connectionRefFacts decl.name decl.connections connectionDecls decl.secrets ++
  cloudIdentityBindingFacts decl.name decl.cloudIdentities ++
  initStepFacts decl.name 0 decl.initSteps ++
  blockFacts decl.disruption (DisruptionDecl.facts decl.name) ++
  tagFacts decl.name decl.tags ++
  blockFacts decl.logging (LoggingDecl.facts decl.name) ++
  blockFacts decl.lifecycle (LifecycleDecl.facts decl.name) ++
  textFact (keyDesiredServicePullPolicy decl.name) decl.pullPolicy ++
  textFact (keyDesiredServiceImagePullSecret decl.name) decl.imagePullSecret ++
  flagFact (keyDesiredServiceLegacySecretAPI decl.name) decl.legacySecretAPI ++
  flagFact (keyDesiredServiceStateful decl.name) decl.stateful ++
  flagFact (keyEffectiveServiceStateful decl.name) decl.stateful ++
  textFact (keyDesiredServiceTerminationGracePeriod decl.name) decl.terminationGracePeriod ++
  countFact (keyDesiredServicePriority decl.name) decl.priority ++
  countFact (keyEffectiveServicePriority decl.name) decl.priority

def compileServiceDeclaration (surroundings : Surroundings) (baseDir : Str)
    (connectionDecls : List ConnectionDecl) (decl : ServiceDecl) : Compiled :=
  let fails (message : Str) : Compiled := .error (compileError sourceLines decl.line message)
  if decl.name = [] then fails (lit "service name is required")
  else if decl.image = [] then
    fails (lit "service " ++ surroundings.quote decl.name ++ lit " requires an image")
  else if decl.instances < 0 then
    fails (lit "service " ++ surroundings.quote decl.name ++ lit " instances must be >= 0")
  else do
    let portFacts ← compileServicePortsFacts sourceLines surroundings decl.name decl.ports
      decl.externalPorts decl.line
    let scaleFacts ←
      compileServiceScaleFacts sourceLines surroundings decl.name decl.scale decl.line
    let configFacts ← compileServiceConfigFacts surroundings decl.name decl.config baseDir
    return decl.headFacts ++ portFacts ++
      blockFacts decl.resources (ResourcesDecl.facts decl.name) ++
      volumeMountFacts decl.name decl.volumeMounts ++ scaleFacts ++
      blockFacts decl.placement (PlacementDecl.facts decl.name) ++
      blockFacts decl.update (UpdateDecl.facts decl.name) ++
      decl.healthProbeFacts ++ configFacts ++ decl.tailFacts connectionDecls

/-! ## Jobs -/

def defaultJobBackoffLimit : Int := 3

def orDefault (count default : Int) : Int := if count = 0 then default else count

def JobDecl.facts (decl : JobDecl) : List Fact :=
  [⟨keyDesiredJob decl.name, []⟩, ⟨keyDesiredJobImage decl.name, decl.image⟩,
    ⟨keyDesiredJobCompletions decl.name, itoa (orDefault decl.completions 1)⟩,
    ⟨keyDesiredJobParallelism decl.name, itoa (orDefault decl.parallelism 1)⟩,
    ⟨keyDesiredJobBackoffLimit decl.name,
      itoa (orDefault decl.backoffLimit defaultJobBackoffLimit)⟩] ++
  textFact (keyDesiredJobCommand decl.name) decl.command ++
  textFact (keyDesiredJobImagePullSecret decl.name) decl.imagePullSecret

def compileJobDeclaration (surroundings : Surroundings) (decl : JobDecl) : Compiled :=
  if decl.name = [] then
    .error (compileError sourceLines decl.line (lit "job name is required"))
  else if decl.image = [] then
    .error (compileError sourceLines decl.line
      (lit "job " ++ surroundings.quote decl.name ++ lit " requires an image"))
  else .ok decl.facts

def CronJobDecl.facts (decl : CronJobDecl) : List Fact :=
  [⟨keyDesiredCronJob decl.name, []⟩, ⟨keyDesiredCronJobSchedule decl.name, decl.schedule⟩,
    ⟨keyDesiredCronJobImage decl.name, decl.image⟩,
    ⟨keyDesiredCronJobCompletions decl.name, itoa (orDefault decl.completions 1)⟩,
    ⟨keyDesiredCronJobParallelism decl.name, itoa (orDefault decl.parallelism 1)⟩,
    ⟨keyDesiredCronJobBackoffLimit decl.name,
      itoa (orDefault decl.backoffLimit defaultJobBackoffLimit)⟩] ++
  textFact (keyDesiredCronJobCommand decl.name) decl.command

def compileCronJobDeclaration (surroundings : Surroundings) (decl : CronJobDecl) : Compiled :=
  if decl.name = [] then
    .error (compileError sourceLines decl.line (lit "cronjob requires a name"))
  else if decl.image = [] then
    .error (compileError sourceLines decl.line
      (lit "cronjob " ++ surroundings.quote decl.name ++ lit " requires an image"))
  else if decl.schedule = [] then
    .error (compileError sourceLines decl.line
      (lit "cronjob " ++ surroundings.quote decl.name ++ lit " requires a schedule"))
  else .ok decl.facts

/-! ## Grants, groups and network rules -/

def compileGrantDeclaration (decl : GrantDecl) : Compiled :=
  if decl.roleName = [] then
    .error (compileError sourceLines decl.line (lit "grant role name is required"))
  else if decl.principalKind = [] then
    .error (compileError sourceLines decl.line (lit "grant principal kind is required"))
  else if decl.principalName = [] then
    .error (compileError sourceLines decl.line (lit "grant principal name is required"))
  else .ok [⟨keyAuthGrant decl.principalKind decl.principalName decl.roleName, lit "true"⟩]

def compileGroupDeclaration (decl : GroupDecl) : Compiled :=
  if decl.name = [] then
    .error (compileError sourceLines decl.line (lit "group name is required"))
  else .ok (decl.members.map (fun memberName =>
    ⟨keyAuthGroupMember decl.name memberName, lit "true"⟩))

def ServiceGroupDecl.facts (decl : ServiceGroupDecl) : List Fact :=
  [⟨keyDesiredGroup decl.name, lit "true"⟩] ++
  decl.processes.map (fun processName =>
    ⟨keyDesiredGroupProcess decl.name processName, lit "true"⟩) ++
  flagFact (keyDesiredGroupShareNetwork decl.name) decl.shareNetwork ++
  decl.sharedVolumes.map (fun volumeName =>
    ⟨keyDesiredGroupShareVolume decl.name volumeName, lit "true"⟩)

def compileServiceGroupDeclaration (decl : ServiceGroupDecl) : Compiled :=
  if decl.name = [] then
    .error (compileError sourceLines decl.line (lit "service group name is required"))
  else if decl.processes = [] then
    .error (compileError sourceLines decl.line (lit "service group must have at least one process"))
  else .ok decl.facts

def sanitizeRuleName (serviceName : Str) : Str :=
  serviceName.map (fun b => if b = Str.slash then 45 else b)

def NetworkRuleDecl.ruleName (ruleIndex : Nat) (rule : NetworkRuleDecl) : Str :=
  sanitizeRuleName rule.source ++ lit "-to-" ++ sanitizeRuleName rule.target ++ lit "-" ++
    itoa ruleIndex

def NetworkRuleDecl.ruleValue (rule : NetworkRuleDecl) : Str :=
  rule.source ++ lit ":" ++ rule.target ++ lit ":" ++ itoa rule.port ++ lit ":" ++ rule.action

def NetworkRuleDecl.fact (ruleIndex : Nat) (rule : NetworkRuleDecl) : Fact :=
  ⟨keyNetworkPolicyRule (rule.ruleName ruleIndex), rule.ruleValue⟩

def networkRuleFacts : Nat → List NetworkRuleDecl → Compiled
  | _, [] => .ok []
  | ruleIndex, rule :: rest =>
    if rule.source = [] ∨ rule.target = [] then
      .error (compileError sourceLines rule.line
        (lit "network rule requires both source and target service names"))
    else (networkRuleFacts (ruleIndex + 1) rest).map (rule.fact ruleIndex :: ·)

def compileNetworkDeclaration (decl : NetworkDecl) : Compiled :=
  networkRuleFacts sourceLines 0 decl.rules

/-! ## Files -/

variable (surroundings : Surroundings) (file : File)

def compileOptional {Decl : Type} (compileOne : Decl → Compiled) (decl : Option Decl) : Compiled :=
  compileEach compileOne decl.toList

def compileInfrastructureDeclarations : Compiled := do
  let tenantFacts ← compileEach (compileTenantDeclaration sourceLines) file.tenants
  let volumeFacts ← compileEach (compileVolumeDeclaration sourceLines) file.volumes
  let identityFacts ←
    compileEach (compileCloudIdentityDeclaration sourceLines surroundings) file.cloudIdentities
  let brokerFacts ←
    compileOptional (compileCredentialBrokerDeclaration sourceLines) file.credentialBroker
  let cloudFacts ← compileOptional (compileCloudDeclaration sourceLines surroundings) file.cloud
  let connectionFacts ←
    compileEach (compileConnectionDeclaration sourceLines surroundings) file.connections
  let routeFacts ←
    compileEach (compileRouteDeclaration sourceLines surroundings file.baseDir) file.routes
  return tenantFacts ++ volumeFacts ++ identityFacts ++ brokerFacts ++ cloudFacts ++
    connectionFacts ++ routeFacts

def ofParse (compiled : Except ParseError (List Fact)) : Compiled := compiled.mapError .parse

def compileAccessControlDeclarations : Compiled := do
  let roleFacts ←
    compileEach (fun decl => ofParse (compileRoleDeclaration decl sourceLines)) file.roles
  let grantFacts ← compileEach (compileGrantDeclaration sourceLines) file.grants
  let groupFacts ← compileEach (compileGroupDeclaration sourceLines) file.groups
  let serviceGroupFacts ←
    compileEach (compileServiceGroupDeclaration sourceLines) file.serviceGroups
  let policyFacts ←
    compileEach (fun decl => ofParse (compilePolicyDeclaration decl sourceLines)) file.policies
  let networkFacts ← compileEach (compileNetworkDeclaration sourceLines) file.networks
  return roleFacts ++ grantFacts ++ groupFacts ++ serviceGroupFacts ++ policyFacts ++ networkFacts

def compileWithSource : Compiled := do
  let infrastructureFacts ← compileInfrastructureDeclarations sourceLines surroundings file
  let serviceFacts ← compileEach
    (compileServiceDeclaration sourceLines surroundings file.baseDir file.connections) file.services
  let jobFacts ← compileEach (compileJobDeclaration sourceLines surroundings) file.jobs
  let cronJobFacts ← compileEach (compileCronJobDeclaration sourceLines surroundings) file.cronJobs
  let accessControlFacts ← compileAccessControlDeclarations sourceLines file
  return infrastructureFacts ++ serviceFacts ++ jobFacts ++ cronJobFacts ++ accessControlFacts

end Declarations

/-- `Compile`: without the source lines. -/
def compile (surroundings : Surroundings) (file : File) : Compiled :=
  compileWithSource [] surroundings file

end CCattler.Lang
