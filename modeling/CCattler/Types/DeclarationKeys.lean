import CCattler.Types.WorkloadKeys

/-! # Keys of declarations

The facts that a configuration file is compiled to. Every declaration writes below
the prefix of its kind: a root fact under its name and fields under the name and a
slash.
-/

namespace CCattler.Types

open Go

def scanDesiredTenants : Str := lit "desired/tenant/"

def scanDesiredVolumes : Str := lit "desired/volume/"

def scanDesiredCloudIdentities : Str := lit "desired/cloud_identity/"

def scanDesiredRoutes : Str := lit "desired/route/"

def scanDesiredCronJobs : Str := lit "desired/cronjob/"

def scanIntentUserServices : Str := lit "intent/user/service/"

/-! ## Services -/

section

variable (serviceName : Str)

def desiredServiceEntry (group : String) (entry : Str) : Str :=
  fieldKey scanDesiredServices serviceName (lit group ++ entry)

def keyDesiredService : Str := scanDesiredServices ++ serviceName

def keyDesiredServiceCloudIdentity (identityName : Str) : Str :=
  desiredServiceEntry serviceName "cloud_identity/" identityName

def keyDesiredServiceCloudIdentityDeliverMode (identityName : Str) : Str :=
  desiredServiceEntry serviceName "cloud_identity/" (identityName ++ lit "/deliver_mode")

def keyDesiredServiceCloudIdentityMountPath (identityName : Str) : Str :=
  desiredServiceEntry serviceName "cloud_identity/" (identityName ++ lit "/mount_path")

def keyDesiredServiceConfigEnv (varName : Str) : Str :=
  desiredServiceEntry serviceName "config/env/" varName

def keyDesiredServiceConfigFile (filePath : Str) : Str :=
  desiredServiceEntry serviceName "config/file/" filePath

def keyDesiredServiceConnection (connectionName : Str) : Str :=
  desiredServiceEntry serviceName "connection/" connectionName

def keyDesiredServiceDisruptionMaxUnavailable : Str :=
  desiredServiceKey serviceName "disruption/max_unavailable"

def keyDesiredServiceDisruptionMinAvailable : Str :=
  desiredServiceKey serviceName "disruption/min_available"

def keyDesiredServiceExpose (port : Int) : Str :=
  desiredServiceEntry serviceName "expose/" (itoa port)

def keyDesiredServiceExposeExternal (port : Int) : Str :=
  desiredServiceEntry serviceName "expose/" (itoa port ++ lit "/external")

def keyDesiredServiceHealthInterval : Str := desiredServiceKey serviceName "health/interval"

def keyDesiredServiceHealthMethod : Str := desiredServiceKey serviceName "health/method"

def keyDesiredServiceHealthPath : Str := desiredServiceKey serviceName "health/path"

def keyDesiredServiceHealthTimeout : Str := desiredServiceKey serviceName "health/timeout"

def keyDesiredServiceInstances : Str := desiredServiceKey serviceName "instances"

def keyDesiredServiceLoggingMaxFiles : Str := desiredServiceKey serviceName "logging/max_files"

def keyDesiredServiceLoggingMaxSize : Str := desiredServiceKey serviceName "logging/max_size"

def keyDesiredServicePlacementAccept (label : Str) : Str :=
  desiredServiceEntry serviceName "placement/accept/" label

def keyDesiredServicePlacementArchitecture : Str :=
  desiredServiceKey serviceName "placement/architecture"

def keyDesiredServicePlacementColocate (targetService : Str) : Str :=
  desiredServiceEntry serviceName "placement/colocate/" targetService

def keyDesiredServicePlacementMode : Str := desiredServiceKey serviceName "placement/mode"

def keyDesiredServicePlacementPrefer (label : Str) : Str :=
  desiredServiceEntry serviceName "placement/prefer/" label

def keyDesiredServicePlacementRebalance : Str := desiredServiceKey serviceName "placement/rebalance"

def keyDesiredServicePlacementRequire (label : Str) : Str :=
  desiredServiceEntry serviceName "placement/require/" label

def keyDesiredServicePlacementSeparate (targetService : Str) : Str :=
  desiredServiceEntry serviceName "placement/separate/" targetService

def keyDesiredServicePlacementZoneMaxSkew : Str :=
  desiredServiceKey serviceName "placement/zone/maxSkew"

def keyDesiredServicePlacementZonePolicy : Str := desiredServiceKey serviceName "placement/zone"

def keyDesiredServicePriority : Str := desiredServiceKey serviceName "priority"

def keyDesiredServiceResourcesCPULimit : Str := desiredServiceKey serviceName "resources/cpu_limit"

def keyDesiredServiceResourcesMemoryLimit : Str :=
  desiredServiceKey serviceName "resources/memory_limit"

def keyDesiredServiceScaleActivationTimeout : Str :=
  desiredServiceKey serviceName "scale/horizontal/activation_timeout"

def keyDesiredServiceScaleHorizontalEvent (source : Str) : Str :=
  desiredServiceEntry serviceName "scale/horizontal/event/" source

def keyDesiredServiceScaleHorizontalMax : Str :=
  desiredServiceKey serviceName "scale/horizontal/max"

def keyDesiredServiceScaleHorizontalMin : Str :=
  desiredServiceKey serviceName "scale/horizontal/min"

def keyDesiredServiceScaleHorizontalTarget (metric : Str) : Str :=
  desiredServiceEntry serviceName "scale/horizontal/target/" metric

def keyDesiredServiceScaleIdleTimeout : Str :=
  desiredServiceKey serviceName "scale/horizontal/idle_timeout"

def keyDesiredServiceScaleScheduleDays : Str :=
  desiredServiceKey serviceName "scale/horizontal/schedule/days"

def keyDesiredServiceScaleScheduleEnd : Str :=
  desiredServiceKey serviceName "scale/horizontal/schedule/end"

def keyDesiredServiceScaleScheduleMinimum : Str :=
  desiredServiceKey serviceName "scale/horizontal/schedule/minimum"

def keyDesiredServiceScaleScheduleStart : Str :=
  desiredServiceKey serviceName "scale/horizontal/schedule/start"

def keyDesiredServiceScaleStabilizationDown : Str :=
  desiredServiceKey serviceName "scale/horizontal/stabilization/down"

def keyDesiredServiceScaleStabilizationUp : Str :=
  desiredServiceKey serviceName "scale/horizontal/stabilization/up"

def keyDesiredServiceScaleVerticalCPUMax : Str :=
  desiredServiceKey serviceName "scale/vertical/cpu/max"

def keyDesiredServiceScaleVerticalCPUMin : Str :=
  desiredServiceKey serviceName "scale/vertical/cpu/min"

def keyDesiredServiceScaleVerticalMemoryMax : Str :=
  desiredServiceKey serviceName "scale/vertical/memory/max"

def keyDesiredServiceScaleVerticalMemoryMin : Str :=
  desiredServiceKey serviceName "scale/vertical/memory/min"

def keyDesiredServiceSecret (secretName : Str) : Str :=
  desiredServiceEntry serviceName "secret/" secretName

def keyDesiredServiceStateful : Str := desiredServiceKey serviceName "stateful"

def keyDesiredServiceTag (tagKey : Str) : Str := desiredServiceEntry serviceName "tag/" tagKey

def keyDesiredServiceUpdateMaxExtra : Str := desiredServiceKey serviceName "update/max_extra"

def keyDesiredServiceUpdateMaxUnavailable : Str :=
  desiredServiceKey serviceName "update/max_unavailable"

def keyDesiredServiceVolume (volumeName : Str) : Str :=
  desiredServiceEntry serviceName "volume/" volumeName

section

variable (probeType : Str)

def keyDesiredServiceProbe (field : String) : Str :=
  desiredServiceEntry serviceName "probe/" (probeType ++ Str.slash :: lit field)

def keyDesiredServiceProbeFailureThreshold : Str :=
  keyDesiredServiceProbe serviceName probeType "failure_threshold"

def keyDesiredServiceProbeInitialDelay : Str :=
  keyDesiredServiceProbe serviceName probeType "initial_delay"

def keyDesiredServiceProbeInterval : Str :=
  keyDesiredServiceProbe serviceName probeType "interval"

def keyDesiredServiceProbeMethod : Str :=
  keyDesiredServiceProbe serviceName probeType "method"

def keyDesiredServiceProbePath : Str :=
  keyDesiredServiceProbe serviceName probeType "path"

def keyDesiredServiceProbePort : Str :=
  keyDesiredServiceProbe serviceName probeType "port"

def keyDesiredServiceProbeSuccessThreshold : Str :=
  keyDesiredServiceProbe serviceName probeType "success_threshold"

def keyDesiredServiceProbeTimeout : Str :=
  keyDesiredServiceProbe serviceName probeType "timeout"

end

def effectiveServiceKey (field : String) : Str :=
  fieldKey scanEffectiveServices serviceName (lit field)

def keyEffectiveServiceInstances : Str := effectiveServiceKey serviceName "instances"

def keyEffectiveServicePriority : Str := effectiveServiceKey serviceName "priority"

def keyEffectiveServiceStateful : Str := effectiveServiceKey serviceName "stateful"

def keyIntentUserServiceInstances : Str :=
  fieldKey scanIntentUserServices serviceName (lit "instances")

def keyDerivedServiceQoSClass : Str := fieldKey scanDerivedServices serviceName (lit "qos_class")

end

/-! ## Tenants and volumes -/

section

variable (tenantName : Str)

def desiredTenantKey (field : String) : Str := fieldKey scanDesiredTenants tenantName (lit field)

def keyDesiredTenant : Str := scanDesiredTenants ++ tenantName

def keyDesiredTenantQuotaCPU : Str := desiredTenantKey tenantName "quota/cpu"

def keyDesiredTenantQuotaInstances : Str := desiredTenantKey tenantName "quota/instances"

def keyDesiredTenantQuotaMemory : Str := desiredTenantKey tenantName "quota/memory"

def keyDesiredTenantQuotaStorage : Str := desiredTenantKey tenantName "quota/storage"

def keyDesiredTenantQuotaVolumes : Str := desiredTenantKey tenantName "quota/volumes"

def keyDesiredTenantWeight : Str := desiredTenantKey tenantName "weight"

def keyDesiredTenantState : Str := desiredTenantKey tenantName "state"

end

section

variable (volumeName : Str)

def desiredVolumeKey (field : String) : Str :=
  fieldKey scanDesiredVolumes volumeName (lit field)

def keyDesiredVolume : Str := scanDesiredVolumes ++ volumeName

def keyDesiredVolumePersistent : Str := desiredVolumeKey volumeName "persistent"

def keyDesiredVolumeSize : Str := desiredVolumeKey volumeName "size"

end

/-! ## Cloud -/

section

variable (identityName : Str)

def desiredCloudIdentityKey (field : String) : Str :=
  fieldKey scanDesiredCloudIdentities identityName (lit field)

def keyDesiredCloudIdentity : Str := scanDesiredCloudIdentities ++ identityName

def keyDesiredCloudIdentityClientID : Str := desiredCloudIdentityKey identityName "client_id"

def keyDesiredCloudIdentityPool : Str := desiredCloudIdentityKey identityName "pool"

def keyDesiredCloudIdentityProvider : Str := desiredCloudIdentityKey identityName "provider"

def keyDesiredCloudIdentityRole : Str := desiredCloudIdentityKey identityName "role"

def keyDesiredCloudIdentityServiceAccount : Str :=
  desiredCloudIdentityKey identityName "service_account"

def keyDesiredCloudIdentityTenantID : Str := desiredCloudIdentityKey identityName "tenant_id"

end

def keyDesiredCloudCredentials : Str := lit "desired/cloud/credentials"

def keyDesiredCloudInstanceType : Str := lit "desired/cloud/instance_type"

def keyDesiredCloudProjectID : Str := lit "desired/cloud/project_id"

def keyDesiredCloudProvider : Str := lit "desired/cloud/provider"

def keyDesiredCloudRegion : Str := lit "desired/cloud/region"

def keyDesiredCloudResourceGroup : Str := lit "desired/cloud/resource_group"

def keyDesiredCloudRouteTable : Str := lit "desired/cloud/route_table"

def keyDesiredCloudVPCNetwork : Str := lit "desired/cloud/vpc_network"

def keyDesiredCredentialBrokerCredentialTTL : Str := lit "desired/credential_broker/credential_ttl"

def keyDesiredCredentialBrokerOIDCIssuer : Str := lit "desired/credential_broker/oidc_issuer"

def keyDesiredCredentialBrokerRefreshBefore : Str := lit "desired/credential_broker/refresh_before"

/-! ## Jobs -/

section

variable (jobName : Str)

def desiredJobKey (field : String) : Str := fieldKey scanDesiredJobs jobName (lit field)

def keyDesiredJob : Str := scanDesiredJobs ++ jobName

def keyDesiredJobBackoffLimit : Str := desiredJobKey jobName "backoff_limit"

def keyDesiredJobCommand : Str := desiredJobKey jobName "command"

def keyDesiredJobCompletions : Str := desiredJobKey jobName "completions"

def keyDesiredJobImage : Str := desiredJobKey jobName "image"

def keyDesiredJobImagePullSecret : Str := desiredJobKey jobName "image_pull_secret"

def keyDesiredJobParallelism : Str := desiredJobKey jobName "parallelism"

end

section

variable (cronJobName : Str)

def desiredCronJobKey (field : String) : Str := fieldKey scanDesiredCronJobs cronJobName (lit field)

def keyDesiredCronJob : Str := scanDesiredCronJobs ++ cronJobName

def keyDesiredCronJobBackoffLimit : Str := desiredCronJobKey cronJobName "backoff_limit"

def keyDesiredCronJobCommand : Str := desiredCronJobKey cronJobName "command"

def keyDesiredCronJobCompletions : Str := desiredCronJobKey cronJobName "completions"

def keyDesiredCronJobImage : Str := desiredCronJobKey cronJobName "image"

def keyDesiredCronJobParallelism : Str := desiredCronJobKey cronJobName "parallelism"

def keyDesiredCronJobSchedule : Str := desiredCronJobKey cronJobName "schedule"

end

/-! ## Gates -/

section

variable (routeName : Str)

def desiredRouteKey (field : String) : Str := fieldKey scanDesiredRoutes routeName (lit field)

def keyDesiredRoute : Str := scanDesiredRoutes ++ routeName

def keyDesiredRouteCookieHTTPOnly : Str := desiredRouteKey routeName "cookie/httponly"

def keyDesiredRouteCookieName : Str := desiredRouteKey routeName "cookie/name"

def keyDesiredRouteCookieSameSite : Str := desiredRouteKey routeName "cookie/samesite"

def keyDesiredRouteCookieSecure : Str := desiredRouteKey routeName "cookie/secure"

def keyDesiredRouteHost : Str := desiredRouteKey routeName "host"

def keyDesiredRoutePath : Str := desiredRouteKey routeName "path"

def keyDesiredRoutePort : Str := desiredRouteKey routeName "port"

def keyDesiredRouteService : Str := desiredRouteKey routeName "service"

def keyDesiredRouteSticky : Str := desiredRouteKey routeName "sticky"

def keyDesiredRouteTLSCert : Str := desiredRouteKey routeName "tls/cert"

def keyDesiredRouteTLSKey : Str := desiredRouteKey routeName "tls/key"

def keyDesiredRouteTLSMode : Str := desiredRouteKey routeName "tls/mode"

end

/-! ## Service groups and network rules -/

section

variable (groupName : Str)

def desiredGroupKey (field : String) : Str := fieldKey scanDesiredGroups groupName (lit field)

def desiredGroupEntry (group : String) (entry : Str) : Str :=
  fieldKey scanDesiredGroups groupName (lit group ++ entry)

def keyDesiredGroup : Str := scanDesiredGroups ++ groupName

def keyDesiredGroupProcess (serviceName : Str) : Str :=
  desiredGroupEntry groupName "process/" serviceName

def keyDesiredGroupShareNetwork : Str := desiredGroupKey groupName "share/network"

def keyDesiredGroupShareVolume (volumeName : Str) : Str :=
  desiredGroupEntry groupName "share/volume/" volumeName

end

def keyNetworkPolicyRule (ruleName : Str) : Str := scanNetworkPolicies ++ ruleName

/-! ## Kinds of probes and of certificates -/

def probeStartup : Str := lit "startup"

def probeLiveness : Str := lit "liveness"

def routeTLSModeManual : Str := lit "manual"

end CCattler.Types
