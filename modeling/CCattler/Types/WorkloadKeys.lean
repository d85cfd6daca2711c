import CCattler.Types.Keys

/-! # Keys of the node agent

The facts that a node agent reads to start an instance and the ones it reports:
the desired service, its volumes, secrets and connections, and what is observed
of an instance and of a volume.
-/

namespace CCattler.Types

open Go

/-! ## Desired services -/

section

variable (serviceName : Str)

def desiredServiceKey (field : String) : Str := fieldKey scanDesiredServices serviceName (lit field)

def keyDesiredServiceImage : Str := desiredServiceKey serviceName "image"

def keyDesiredServiceCommand : Str := desiredServiceKey serviceName "command"

def keyDesiredServicePullPolicy : Str := desiredServiceKey serviceName "pull_policy"

def keyDesiredServiceImagePullSecret : Str := desiredServiceKey serviceName "image_pull_secret"

def keyDesiredServiceLifecyclePreStop : Str := desiredServiceKey serviceName "lifecycle/pre_stop"

def keyDesiredServiceLifecyclePostStart : Str :=
  desiredServiceKey serviceName "lifecycle/post_start"

def keyDesiredServiceTerminationGracePeriod : Str :=
  desiredServiceKey serviceName "termination_grace_period"

def keyDesiredServiceLegacySecretAPI : Str := desiredServiceKey serviceName "legacy_secret_api"

def keyDesiredServiceResourcesCPU : Str := desiredServiceKey serviceName "resources/cpu"

def keyDesiredServiceResourcesMemory : Str := desiredServiceKey serviceName "resources/memory"

def keyEffectiveServiceResourcesCPU : Str :=
  fieldKey scanEffectiveServices serviceName (lit "resources/cpu")

def keyEffectiveServiceResourcesMemory : Str :=
  fieldKey scanEffectiveServices serviceName (lit "resources/memory")

def scanDesiredServiceExpose : Str := desiredServiceKey serviceName "expose/"

def scanDesiredServiceConfig : Str := desiredServiceKey serviceName "config/"

def scanDesiredServiceConfigEnv : Str := desiredServiceKey serviceName "config/env/"

def scanDesiredServiceConfigFile : Str := desiredServiceKey serviceName "config/file/"

def scanDesiredServiceSecrets : Str := desiredServiceKey serviceName "secret/"

def scanDesiredServiceConnections : Str := desiredServiceKey serviceName "connection/"

def scanDesiredServiceVolumes : Str := desiredServiceKey serviceName "volume/"

def scanDesiredServiceInitSteps : Str := desiredServiceKey serviceName "init/"

variable (stepIndex : Int)

def keyDesiredServiceInitStep : Str :=
  scanDesiredServiceInitSteps serviceName ++ itoa stepIndex

def keyDesiredServiceInitStepField (field : String) : Str :=
  keyDesiredServiceInitStep serviceName stepIndex ++ Str.slash :: lit field

def keyDesiredServiceInitStepExec : Str :=
  keyDesiredServiceInitStepField serviceName stepIndex "exec"

def keyDesiredServiceInitStepConnection : Str :=
  keyDesiredServiceInitStepField serviceName stepIndex "connection"

def keyDesiredServiceInitStepTimeout : Str :=
  keyDesiredServiceInitStepField serviceName stepIndex "timeout"

def keyDesiredServiceInitStepRetry : Str :=
  keyDesiredServiceInitStepField serviceName stepIndex "retry"

end

def keyDesiredConnection (connectionName : Str) : Str := lit "desired/connection/" ++ connectionName

/-! ## Observed instances -/

section

variable (instanceID : Str)

def keyObservedInstanceNode : Str := fieldKey scanObservedInstances instanceID (lit "node")

def keyObservedInstanceCreatedAt : Str :=
  fieldKey scanObservedInstances instanceID (lit "created-at")

def keyObservedInstanceImage : Str := fieldKey scanObservedInstances instanceID (lit "image")

def keyObservedInstancePullStatus : Str :=
  fieldKey scanObservedInstances instanceID (lit "pull-status")

def keyObservedInstanceConfigHash : Str :=
  fieldKey scanObservedInstances instanceID (lit "config-hash")

def keyObservedInstanceExitReason : Str :=
  fieldKey scanObservedInstances instanceID (lit "exit-reason")

def keyObservedInstanceIP : Str := fieldKey scanObservedInstances instanceID (lit "ip")

def keyObservedInstanceHostPortForPort (containerPort : Int) : Str :=
  fieldKey scanObservedInstances instanceID (lit "hostport/" ++ itoa containerPort)

def keyObservedInstanceStatusReason : Str :=
  fieldKey scanObservedInstances instanceID (lit "status-reason")

def keyObservedInstanceInitProgress : Str :=
  fieldKey scanObservedInstances instanceID (lit "init-progress")

def keyObservedInstanceSecretWait : Str :=
  fieldKey scanObservedInstances instanceID (lit "secret-wait")

def keyObservedInstanceInitStepState (stepIndex : Int) : Str :=
  fieldKey scanObservedInstances instanceID (lit "init/step/" ++ (itoa stepIndex ++ lit "/state"))

def keyObservedInstanceInitStepReason (stepIndex : Int) : Str :=
  fieldKey scanObservedInstances instanceID (lit "init/step/" ++ (itoa stepIndex ++ lit "/reason"))

def keyDerivedInstanceInitPhase : Str := fieldKey scanDerivedInstances instanceID (lit "init/phase")

def keyNetworkAllocation : Str := lit "network/allocation/" ++ instanceID

end

def scanPlacementsForNode (nodeID : Str) : Str := fieldKey (lit "placement/node/") nodeID []

/-! ## Volumes -/

section

variable (volumeName : Str)

def keyDesiredVolumeType : Str := fieldKey (lit "desired/volume/") volumeName (lit "type")

def keyObservedVolume : Str := scanObservedVolumes ++ volumeName

def observedVolumeKey (field : String) : Str := fieldKey scanObservedVolumes volumeName (lit field)

def keyObservedVolumeState : Str := observedVolumeKey volumeName "state"

def keyObservedVolumeNode : Str := observedVolumeKey volumeName "node"

def keyObservedVolumeInstance : Str := observedVolumeKey volumeName "instance"

def keyObservedVolumeAccess : Str := observedVolumeKey volumeName "access"

def keyObservedVolumeSize : Str := observedVolumeKey volumeName "size"

def keyObservedVolumeMountPath : Str := observedVolumeKey volumeName "mount_path"

def keyObservedVolumeType : Str := observedVolumeKey volumeName "type"

def keyObservedVolumeHomeNode : Str := observedVolumeKey volumeName "home_node"

def keyObservedVolumeMigrationSource : Str := observedVolumeKey volumeName "migration_source"

def keyObservedVolumeUsedBytes : Str := observedVolumeKey volumeName "used_bytes"

def keyObservedVolumeCapacityBytes : Str := observedVolumeKey volumeName "capacity_bytes"

def scanObservedVolumeNodeAttachments (nodeID : Str) : Str :=
  fieldKey scanObservedVolumes volumeName (lit "attachment/" ++ (nodeID ++ [Str.slash]))

def keyObservedVolumeAttachment (nodeID instanceID : Str) : Str :=
  fieldKey scanObservedVolumes volumeName (lit "attachment/" ++ (nodeID ++ Str.slash :: instanceID))

end

/-! ## State names -/

abbrev VolumeState := Str

def volumeAvailable : VolumeState := lit "available"

def volumeAttached : VolumeState := lit "attached"

def volumeMigrating : VolumeState := lit "migrating"

abbrev InitStepState := Str

def initStepRunning : InitStepState := lit "running"

def initStepSucceeded : InitStepState := lit "succeeded"

def initStepFailed : InitStepState := lit "failed"

def initPhaseComplete : Str := lit "complete"

end CCattler.Types
