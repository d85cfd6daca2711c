import CCattler.Go.Strconv

/-! # Fact keys and state names

The scan prefixes, the keys below them, and the texts of the state types. A state read
from a fact may be any text.
-/

namespace CCattler.Types

open Go List

/-! ## Scan prefixes -/

def scanDesiredServices : Str := lit "desired/service/"

def scanEffectiveServices : Str := lit "effective/service/"

def scanObservedNodes : Str := lit "observed/node/"

def scanObservedInstances : Str := lit "observed/instance/"

def scanObservedVolumes : Str := lit "observed/volume/"

def scanPlacements : Str := lit "placement/instance/"

def scanEndpoints : Str := lit "endpoint/service/"

def scanLeaseNodes : Str := lit "lease/node/"

def scanDerivedServices : Str := lit "derived/service/"

def scanDerivedInstances : Str := lit "derived/instance/"

def scanDerivedNodes : Str := lit "derived/node/"

def scanDerivedCapacityRequests : Str := lit "derived/capacity/request/"

def scanDerivedSchedulerUnplaced : Str := lit "derived/scheduler/unplaced/"

def scanDerivedCrashLoops : Str := lit "derived/crash-loop/"

def scanDesiredGroups : Str := lit "desired/group/"

def scanDesiredJobs : Str := lit "desired/job/"

def scanDerivedJobs : Str := lit "derived/job/"

def scanNetworkPolicies : Str := lit "policy/network/"

def scanDerivedNetworkRules : Str := lit "derived/network/rule/"

def scanAuthRoles : Str := lit "auth/role/"

def scanAuthGrants : Str := lit "auth/grant/"

def scanAuthGroups : Str := lit "auth/group/"

def scanAuthPolicies : Str := lit "auth/policy/"

/-- `PrefixDesired + "/cluster/autoscale/"`. -/
def clusterAutoscalePrefix : Str := lit "desired/cluster/autoscale/"

/-! ## Keys -/

/-- The key of a field of an entity below a scan prefix. -/
def fieldKey (scan entity field : Str) : Str := scan ++ (entity ++ Str.slash :: field)

section

variable (scan entity field : Str)

theorem fieldKey_hasPrefix : (fieldKey scan entity field).hasPrefix scan = true :=
  Str.hasPrefix_append scan _

theorem isPrefix_fieldKey : scan <+: fieldKey scan entity field :=
  prefix_append _ _

theorem fieldKey_nil_isPrefix : fieldKey scan entity [] <+: fieldKey scan entity field :=
  ⟨field, by simp [fieldKey]⟩

end

theorem fieldKey_inj {scan entity other field otherField : Str} (hentity : Str.slash ∉ entity)
    (hother : Str.slash ∉ other) :
    fieldKey scan entity field = fieldKey scan other otherField ↔
      entity = other ∧ field = otherField := by
  rw [fieldKey, fieldKey, append_cancel_left_eq, Str.append_sep_inj hentity hother]

theorem fieldKey_eq_iff {scan entity other field otherField : Str} (hother : Str.slash ∉ other)
    (hfield : Str.slash ∉ otherField) :
    fieldKey scan entity field = fieldKey scan other otherField ↔
      entity = other ∧ field = otherField := by
  constructor
  · intro heq
    have hcount := congrArg (List.count Str.slash) heq
    simp only [fieldKey, count_append, count_cons_self,
      count_eq_zero_of_not_mem hother, count_eq_zero_of_not_mem hfield] at hcount
    have hentity : Str.slash ∉ entity := by
      apply count_eq_zero.mp
      omega
    exact (fieldKey_inj hentity hother).mp heq
  · intro h
    rw [h.1, h.2]

theorem fieldKey_entity_injective {scan entity other field : Str}
    (h : fieldKey scan entity field = fieldKey scan other field) : entity = other :=
  append_cancel_right (append_cancel_left h)

/-- Field lists of entities that all write a common field are distinct keys exactly if
the entities are distinct. -/
theorem nodup_flatMap_fieldKey {scan common : Str} {entries : List (Str × List Str)}
    (hentries : ∀ entry ∈ entries, Str.slash ∉ entry.1 ∧ entry.2.Nodup ∧ common ∈ entry.2) :
    (entries.flatMap (fun entry => entry.2.map (fieldKey scan entry.1))).Nodup ↔
      (entries.map Prod.fst).Nodup := by
  rw [nodup_flatMap, Nodup, pairwise_map]
  constructor
  · intro h
    refine h.2.imp_of_mem fun {first second} hfirst hsecond hdisjoint heq => ?_
    refine hdisjoint (mem_map_of_mem (hentries first hfirst).2.2) ?_
    rw [heq]
    exact mem_map_of_mem (hentries second hsecond).2.2
  · intro h
    constructor
    · intro entry hentry
      refine (hentries entry hentry).2.1.map fun field other heq => ?_
      have hslash := (hentries entry hentry).1
      exact ((fieldKey_inj hslash hslash).mp heq).2
    · refine h.imp_of_mem fun {first second} hfirst hsecond hne key hkey hother => ?_
      obtain ⟨field, -, rfl⟩ := mem_map.mp hkey
      obtain ⟨other, -, heq⟩ := mem_map.mp hother
      exact hne ((fieldKey_inj (hentries second hsecond).1 (hentries first hfirst).1).mp heq).1.symm

def keyObservedNodeState (nodeID : Str) : Str := fieldKey scanObservedNodes nodeID (lit "state")

section

variable (instanceID : Str)

def keyObservedInstance : Str := scanObservedInstances ++ instanceID

def keyObservedInstanceService : Str := fieldKey scanObservedInstances instanceID (lit "service")

def keyObservedInstanceState : Str := fieldKey scanObservedInstances instanceID (lit "state")

def keyObservedInstanceOrdinal : Str := fieldKey scanObservedInstances instanceID (lit "ordinal")

def keyPlacementInstance : Str := scanPlacements ++ instanceID

end

def keyPlacementNodeInstance (nodeID instanceID : Str) : Str :=
  fieldKey (lit "placement/node/") nodeID instanceID

section

variable (instanceID : Str)

def keyDerivedInstanceDrainReadiness : Str :=
  fieldKey scanDerivedInstances instanceID (lit "drain_readiness")

def keyDerivedInstanceDrainSince : Str :=
  fieldKey scanDerivedInstances instanceID (lit "drain_since")

def keyDerivedInstanceNodeFailure : Str :=
  fieldKey scanDerivedInstances instanceID (lit "node_failure")

def keyDerivedInstanceControllerStopped : Str :=
  fieldKey scanDerivedInstances instanceID (lit "controller_stopped")

def keyDerivedJobInstanceOwner : Str := fieldKey scanDerivedInstances instanceID (lit "job_owner")

end

def keyDerivedJobStatus (jobName : Str) : Str := fieldKey scanDerivedJobs jobName (lit "status")

def keyDerivedCrashLoopCounter (serviceName : Str) : Str := scanDerivedCrashLoops ++ serviceName

def keyDerivedNodeDrainComplete (nodeID : Str) : Str :=
  fieldKey scanDerivedNodes nodeID (lit "drain/complete")

def keyDerivedNodeDrainEvict (nodeID instanceID : Str) : Str :=
  fieldKey scanDerivedNodes nodeID (lit "drain/evict/" ++ instanceID)

def keyDerivedNodePressure (nodeID : Str) : Str :=
  fieldKey scanDerivedNodes nodeID (lit "pressure")

def keyDesiredClusterAutoscaleMinNodes : Str := lit "desired/cluster/autoscale/min_nodes"

def keyDesiredClusterAutoscaleMaxNodes : Str := lit "desired/cluster/autoscale/max_nodes"

section

variable (requestID : Str)

def keyDerivedCapacityRequestState : Str :=
  fieldKey scanDerivedCapacityRequests requestID (lit "state")

def keyDerivedCapacityRequestRequirements : Str :=
  fieldKey scanDerivedCapacityRequests requestID (lit "requirements")

def keyDerivedCapacityRequestReason : Str :=
  fieldKey scanDerivedCapacityRequests requestID (lit "reason")

def keyDerivedCapacityRequestNodeID : Str :=
  fieldKey scanDerivedCapacityRequests requestID (lit "node_id")

end

def keyDerivedSchedulerUnplacedReason (instanceID : Str) : Str :=
  fieldKey scanDerivedSchedulerUnplaced instanceID (lit "reason")

def keyDerivedSchedulerUnplacedRequirements (instanceID : Str) : Str :=
  fieldKey scanDerivedSchedulerUnplaced instanceID (lit "requirements")

def keyDesiredServiceOwner (serviceName : Str) : Str :=
  fieldKey scanDesiredServices serviceName (lit "owner")

def keyEndpoint (serviceName instanceID : Str) (port : Int) : Str :=
  fieldKey scanEndpoints serviceName (instanceID ++ Str.slash :: itoa port)

def keyDerivedNetworkRule (nodeID : Str) (ruleIndex : Int) : Str :=
  fieldKey scanDerivedNetworkRules nodeID (itoa ruleIndex)

def keyAuthRoleCapability (roleName capabilityName : Str) : Str :=
  fieldKey scanAuthRoles roleName (lit "capability" ++ Str.slash :: capabilityName)

def keyAuthRoleScope (roleName scopePath : Str) : Str :=
  fieldKey scanAuthRoles roleName (lit "scope" ++ Str.slash :: scopePath)

def keyAuthGrant (principalKind principalName roleName : Str) : Str :=
  fieldKey scanAuthGrants principalKind
    (principalName ++ Str.slash :: (lit "role" ++ Str.slash :: roleName))

def keyAuthGroupMember (groupName memberName : Str) : Str :=
  fieldKey scanAuthGroups groupName (lit "member" ++ Str.slash :: memberName)

def keyAuthPolicyCapability (policyName : Str) : Str :=
  fieldKey scanAuthPolicies policyName (lit "capability")

/-- The keys of the three components of a condition. -/
def keyAuthPolicyCondition (policyName : Str) (conditionIndex : Nat) (component : Str) : Str :=
  fieldKey scanAuthPolicies policyName
    (lit "condition" ++ Str.slash :: (itoa conditionIndex ++ Str.slash :: component))

/-! ## State names -/

abbrev InstanceState := Str

def instancePending : InstanceState := lit "pending"

def instanceStarting : InstanceState := lit "starting"

def instanceRunning : InstanceState := lit "running"

def instancePulling : InstanceState := lit "pulling"

def instanceImagePullBackoff : InstanceState := lit "image-pull-backoff"

def instanceWaitingForSecrets : InstanceState := lit "waiting-for-secrets"

def instanceFailed : InstanceState := lit "failed"

def instanceStopped : InstanceState := lit "stopped"

abbrev NodeState := Str

def nodeAlive : NodeState := lit "alive"

def nodeUnreachable : NodeState := lit "unreachable"

def nodeDraining : NodeState := lit "draining"

def startupProbeSucceeded : Str := lit "succeeded"

def startupProbeFailed : Str := lit "failed"

def livenessProbeUnhealthy : Str := lit "unhealthy"

def probeReadiness : Str := lit "readiness"

def readinessProbeReady : Str := lit "ready"

def readinessProbeNotReady : Str := lit "not-ready"

def volumeAccessShared : Str := lit "shared"

abbrev CapacityRequestState := Str

def capacityRequestPending : CapacityRequestState := lit "pending"

def capacityRequestLaunching : CapacityRequestState := lit "launching"

def capacityRequestReady : CapacityRequestState := lit "ready"

def capacityRequestFailed : CapacityRequestState := lit "failed"

def capacityRequestRemoving : CapacityRequestState := lit "removing"

abbrev UnplacedReason := Str

def unplacedInsufficientCapacity : UnplacedReason := lit "insufficient_capacity"

def unplacedUnsatisfiableConstraint : UnplacedReason := lit "unsatisfiable_constraint"

def unplacedNoNodes : UnplacedReason := lit "no_nodes"

def unplacedVolumeHomeNodeUnavailable : UnplacedReason := lit "volume_home_node_unavailable"

end CCattler.Types
