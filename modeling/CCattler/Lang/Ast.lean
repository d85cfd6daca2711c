import CCattler.Go.Strings

/-! # Declarations of the configuration language

The syntax tree that the parser builds, with the zero values of Go as defaults. Names
come from identifier tokens, hierarchical ones from identifiers joined by slashes.
-/

namespace CCattler.Lang

open Go

def IsIdentifier (text : Str) : Prop := text ≠ [] ∧ Str.slash ∉ text

instance (text : Str) : Decidable (IsIdentifier text) := inferInstanceAs (Decidable (_ ∧ _))

structure RoleDecl where
  name : Str
  capabilities : List Str
  scopes : List Str
  line : Int

structure PolicyConditionDecl where
  field : Str
  operator : Str
  value : Str
  line : Int

structure PolicyDecl where
  name : Str
  capability : Str
  conditions : List PolicyConditionDecl
  line : Int

structure QuotaDecl where
  cpu : Int := 0
  memory : Str := []
  instances : Int := 0
  volumes : Int := 0
  storage : Str := []

structure TenantDecl where
  name : Str := []
  quota : Option QuotaDecl := none
  weight : Int := 0
  line : Int := 0

structure TagDecl where
  key : Str := []
  value : Str := []

structure VolumeMountDecl where
  volumeName : Str := []
  mountPath : Str := []

structure ResourcesDecl where
  cpu : Str := []
  memory : Str := []
  cpuLimit : Str := []
  memoryLimit : Str := []

structure HealthDecl where
  method : Str := []
  path : Str := []
  interval : Str := []
  timeout : Str := []

structure ScaleTargetDecl where
  metric : Str := []
  value : Int := 0

structure EventScaleDecl where
  source : Str := []
  target : Int := 0

structure ScheduleDecl where
  days : Str := []
  start : Str := []
  endTime : Str := []
  minimum : Int := 0

structure StabilizationDecl where
  scaleUp : Str := []
  scaleDown : Str := []

structure HorizontalScaleDecl where
  min : Int := 0
  max : Int := 0
  targets : List ScaleTargetDecl := []
  events : List EventScaleDecl := []
  schedule : Option ScheduleDecl := none
  stabilization : Option StabilizationDecl := none
  idleTimeout : Str := []
  activationTimeout : Str := []

structure VerticalScaleDecl where
  cpuMin : Str := []
  cpuMax : Str := []
  memoryMin : Str := []
  memoryMax : Str := []

structure ScaleDecl where
  horizontal : Option HorizontalScaleDecl := none
  vertical : Option VerticalScaleDecl := none

structure PlacementMatchDecl where
  label : Str := []
  value : Str := []

structure PlacementDecl where
  mode : Str := []
  architecture : Str := []
  zonePolicy : Str := []
  zoneMaxSkew : Int := 0
  require : List PlacementMatchDecl := []
  prefer : List PlacementMatchDecl := []
  accept : List Str := []
  colocate : List Str := []
  separate : List Str := []
  rebalance : Bool := false

structure UpdateDecl where
  maxUnavailable : Int := 0
  maxExtra : Int := 0

structure DisruptionDecl where
  minAvailable : Int := 0
  maxUnavailable : Int := 0

structure LoggingDecl where
  maxSize : Str := []
  maxFiles : Int := 0

structure LifecycleDecl where
  preStop : Str := []
  postStart : Str := []

structure EnvVarDecl where
  name : Str := []
  value : Str := []

/-- `ConfigFileDecl`: contents given inline, or a local file to take them from. -/
structure ConfigFileDecl where
  path : Str := []
  content : Str := []
  fromFile : Str := []

structure ConfigDecl where
  envVars : List EnvVarDecl := []
  configFiles : List ConfigFileDecl := []

structure InitStepDecl where
  exec : Str := []
  connection : Str := []
  timeout : Str := []
  retry : Int := 0

structure ProbeDecl where
  method : Str := []
  path : Str := []
  port : Int := 0
  interval : Str := []
  timeout : Str := []
  failureThreshold : Int := 0
  successThreshold : Int := 0
  initialDelay : Str := []

structure SecretDecl where
  name : Str := []
  mountPath : Str := []

/-- `ConnectionRef`: a connection that a service mounts. -/
structure ConnectionRef where
  connectionName : Str := []
  mountPath : Str := []

structure CloudIdentityBindingDecl where
  identityName : Str := []
  mountPath : Str := []
  deliverMode : Str := []

structure ExternalPortDecl where
  port : Int := 0
  protocol : Str := []

/-- `ServiceDecl`. An absent block is `none`, an absent text is empty, an absent number zero. -/
structure ServiceDecl where
  name : Str := []
  owner : Str := []
  image : Str := []
  command : Str := []
  instances : Int := 0
  ports : List Int := []
  externalPorts : List ExternalPortDecl := []
  resources : Option ResourcesDecl := none
  health : Option HealthDecl := none
  scale : Option ScaleDecl := none
  placement : Option PlacementDecl := none
  update : Option UpdateDecl := none
  config : Option ConfigDecl := none
  secrets : List SecretDecl := []
  connections : List ConnectionRef := []
  volumeMounts : List VolumeMountDecl := []
  cloudIdentities : List CloudIdentityBindingDecl := []
  initSteps : List InitStepDecl := []
  startup : Option ProbeDecl := none
  liveness : Option ProbeDecl := none
  readiness : Option ProbeDecl := none
  disruption : Option DisruptionDecl := none
  tags : List TagDecl := []
  pullPolicy : Str := []
  imagePullSecret : Str := []
  logging : Option LoggingDecl := none
  lifecycle : Option LifecycleDecl := none
  terminationGracePeriod : Str := []
  stateful : Bool := false
  legacySecretAPI : Bool := false
  priority : Int := 0
  line : Int := 0

structure VolumeDecl where
  name : Str := []
  size : Str := []
  persistent : Bool := false
  storageType : Str := []
  line : Int := 0

structure JobDecl where
  name : Str := []
  image : Str := []
  command : Str := []
  completions : Int := 0
  parallelism : Int := 0
  backoffLimit : Int := 0
  imagePullSecret : Str := []
  line : Int := 0

structure CronJobDecl where
  name : Str := []
  schedule : Str := []
  image : Str := []
  command : Str := []
  completions : Int := 0
  parallelism : Int := 0
  backoffLimit : Int := 0
  line : Int := 0

structure ConnectionDecl where
  name : Str := []
  driver : Str := []
  user : Str := []
  secret : Str := []
  host : Str := []
  port : Int := 0
  database : Str := []
  line : Int := 0

structure CloudIdentityDecl where
  name : Str := []
  provider : Str := []
  role : Str := []
  serviceAccount : Str := []
  pool : Str := []
  clientID : Str := []
  tenantID : Str := []
  line : Int := 0

structure CredentialBrokerDecl where
  oidcIssuer : Str := []
  credentialTTL : Str := []
  refreshBefore : Str := []
  line : Int := 0

structure CloudDecl where
  provider : Str := []
  region : Str := []
  credentials : Str := []
  instanceType : Str := []
  projectID : Str := []
  resourceGroup : Str := []
  vpcNetwork : Str := []
  routeTable : Str := []
  line : Int := 0

structure GrantDecl where
  roleName : Str := []
  principalKind : Str := []
  principalName : Str := []
  line : Int := 0

structure GroupDecl where
  name : Str := []
  members : List Str := []
  line : Int := 0

structure ServiceGroupDecl where
  name : Str := []
  processes : List Str := []
  shareNetwork : Bool := false
  sharedVolumes : List Str := []
  line : Int := 0

structure NetworkRuleDecl where
  action : Str := []
  source : Str := []
  target : Str := []
  port : Int := 0
  line : Int := 0

structure NetworkDecl where
  rules : List NetworkRuleDecl := []
  line : Int := 0

structure RouteCookieSettings where
  name : Str := []
  secure : Bool := false
  httpOnly : Bool := false
  sameSite : Str := []

structure RouteStickyDecl where
  method : Str := []
  cookie : Option RouteCookieSettings := none

/-- `RouteTLSDecl`. The compiler fills in the contents of the two files. -/
structure RouteTLSDecl where
  mode : Str := []
  certFile : Str := []
  keyFile : Str := []
  certPEM : Str := []
  keyPEM : Str := []

/-- `RouteDecl`: a gate. -/
structure RouteDecl where
  name : Str := []
  host : Str := []
  path : Str := []
  serviceName : Str := []
  servicePort : Int := 0
  sticky : Option RouteStickyDecl := none
  tls : Option RouteTLSDecl := none
  line : Int := 0

/-- `File`: the declarations of a source file, kind by kind in the order of the source. -/
structure File where
  services : List ServiceDecl := []
  jobs : List JobDecl := []
  cronJobs : List CronJobDecl := []
  volumes : List VolumeDecl := []
  connections : List ConnectionDecl := []
  tenants : List TenantDecl := []
  cloudIdentities : List CloudIdentityDecl := []
  credentialBroker : Option CredentialBrokerDecl := none
  cloud : Option CloudDecl := none
  roles : List RoleDecl := []
  grants : List GrantDecl := []
  groups : List GroupDecl := []
  serviceGroups : List ServiceGroupDecl := []
  policies : List PolicyDecl := []
  networks : List NetworkDecl := []
  routes : List RouteDecl := []
  baseDir : Str := []

end CCattler.Lang
