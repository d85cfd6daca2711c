import CCattler.Controllers.Job
import CCattler.Scheduler.SelfConflict
import CCattler.Store.Client

/-! # Jobs among evictions and preemptions

The job controller, the eviction controller and the scheduler run side by side with the
agents. A proposal is committed at some later time or never.
-/

namespace CCattler.Controllers

open Go Store CCattler.Types List

/-! ## The system -/

/-- The controllers that write instance facts of jobs. -/
inductive ClusterController where
  | job
  | eviction
  | scheduler
  deriving DecidableEq, Repr

def ClusterController.name : ClusterController → Str
  | .job => lit "job"
  | .eviction => lit "eviction"
  | .scheduler => lit "scheduler"

/-- The changes that a cycle of the controller proposes for a store. -/
def ClusterController.proposes (environment : Scheduler.SchedulerEnvironment)
    (state : Scheduler.SchedulerState) (table : FactTable) : ClusterController → List Change
  | .job => JobController.reconcile (visible JobController.watch table.allFacts)
  | .eviction => EvictionController.reconcile (visible EvictionController.watch table.allFacts)
  | .scheduler =>
    (Scheduler.reconcile environment state (visible Scheduler.watch table.allFacts)).1

/-- The store, the instances that ended with success, and the proposals so far. -/
structure JobCluster where
  table : ValidTable
  succeeded : Set Str
  proposals : Set (ClusterController × List Change)

/-- What can happen. A published field is put, or deleted if there is no value. -/
inductive JobAction where
  | cycle (controller : ClusterController) (environment : Scheduler.SchedulerEnvironment)
      (state : Scheduler.SchedulerState)
  | commit (controller : ClusterController) (changes : List Change)
  | publish (instanceID field : Str) (value : Option Str)
  | exit (instanceID : Str)
  | outside (operation : Operation)

/-- The operations of a change list. -/
def changeOperations (changes : List Change) : List Op :=
  changes.map (fun change => ⟨change.type, change.key, change.value⟩)

/-- The instances that a change list makes new instances of a job. -/
def createdInstances (changes : List Change) : Set Str :=
  {instanceID | ∃ jobName, Change.put (keyDerivedJobInstanceOwner instanceID) jobName ∈ changes}

/-- The operation of an agent that publishes a field. -/
def publishOperation (instanceID field : Str) : Option Str → Operation
  | some value => .put (fieldKey scanObservedInstances instanceID field) value
  | none => .delete (fieldKey scanObservedInstances instanceID field)

/-- One step. Agents own the observed fields but for two, and the rest of the world stays
away from the facts of instances and jobs. -/
inductive JobStep : JobCluster → JobAction → JobCluster → Prop
  | cycle (cluster : JobCluster) (controller : ClusterController)
      (environment : Scheduler.SchedulerEnvironment) (state : Scheduler.SchedulerState) :
      JobStep cluster (.cycle controller environment state) { cluster with
          proposals := insert
            (controller, controller.proposes environment state cluster.table.toFactTable)
            cluster.proposals }
  | commit {cluster : JobCluster} {controller : ClusterController} {changes : List Change}
      (h : (controller, changes) ∈ cluster.proposals) :
      JobStep cluster (.commit controller changes) { cluster with
          table := cluster.table.after (.transaction []
            (changeOperations (submittedChanges controller.name changes)) [])
          succeeded := cluster.succeeded \
            createdInstances (submittedChanges controller.name changes) }
  | publish (cluster : JobCluster) (instanceID : Str) {field : Str} (value : Option Str)
      (howner : field ≠ lit "job_owner") (hmarker : field ≠ lit "controller_stopped") :
      JobStep cluster (.publish instanceID field value)
        { cluster with table := cluster.table.after (publishOperation instanceID field value) }
  | exit (cluster : JobCluster) (instanceID : Str) : JobStep cluster (.exit instanceID)
        { cluster with succeeded := insert instanceID cluster.succeeded }
  | outside (cluster : JobCluster) {operation : Operation}
      (h : ∀ key ∈ operation.writtenKeys, ∀ pre ∈ [scanObservedInstances, scanDerivedInstances,
        scanDerivedJobs], ¬ pre <+: key) :
      JobStep cluster (.outside operation) { cluster with table := cluster.table.after operation }

variable {environment : Scheduler.SchedulerEnvironment} {jobs : Map JobSpec} {facts : List Fact}
  {state : Scheduler.SchedulerState}

namespace JobCluster

/-! ## What the controllers write -/

/-- The changes that a controller can propose, as far as instances and jobs go. -/
inductive WrittenBy : ClusterController → Change → Prop
  | status (jobName value : Str) : WrittenBy .job (.put (keyDerivedJobStatus jobName) value)
  | created {spec : JobSpec} {instanceID : Str} {change : Change} (hslash : Str.slash ∉ instanceID)
      (h : change ∈ buildJobInstanceCreationChanges spec instanceID) : WrittenBy .job change
  | marker {controller : ClusterController} (hjob : controller ≠ .job) (instanceID : Str) :
      WrittenBy controller (.put (keyDerivedInstanceControllerStopped instanceID) (lit "true"))
  | elsewhere (controller : ClusterController) (root : Str) {change : Change}
      (hroot : root <+: change.key)
      (hapart : ∀ pre ∈ [scanObservedInstances, scanDerivedInstances, scanDerivedJobs],
        Apart root pre) :
      WrittenBy controller change

variable {change : Change}

theorem writtenBy_eviction (h : change ∈ EvictionController.reconcile facts) :
    WrittenBy .eviction change := by
  have hnode : ∀ {nodeID : Str}, scanDerivedNodes <+: keyDerivedNodePressure nodeID :=
    isPrefix_fieldKey _ _ _
  obtain ⟨_, _, _, -, -, -, hchange⟩ := EvictionController.mem_changesUnder.mp h
  rcases mem_reconcileNodePressure.mp hchange with ⟨-, -, rfl⟩ | ⟨-, hevicted | ⟨-, rfl⟩⟩
  · exact .elsewhere _ _ hnode (by decide)
  · obtain ⟨candidate, -, rfl⟩ := mem_map.mp hevicted
    exact .marker (by decide) candidate.instanceID
  · exact .elsewhere _ _ hnode (by decide)

theorem writtenBy_scheduler
    (h : change ∈ (Scheduler.reconcile environment state facts).1) :
    WrittenBy .scheduler change := by
  have hinstance : ∀ instanceID, lit "placement/" <+: keyPlacementInstance instanceID := fun _ =>
    (show lit "placement/" <+: scanPlacements by decide).trans (prefix_append _ _)
  have hnode : ∀ nodeID instanceID,
      lit "placement/" <+: keyPlacementNodeInstance nodeID instanceID :=
    fun _ _ => (show lit "placement/" <+: lit "placement/node/" by decide).trans
      (isPrefix_fieldKey _ _ _)
  rcases Scheduler.change_cases h with ⟨placement, -, hchange⟩ | ⟨victimID, -, rfl⟩ | hunplaced |
    ⟨move, -, hchange⟩
  · apply WrittenBy.elsewhere _ (lit "placement/") _ (by decide)
    rcases Scheduler.placement_key hchange with hkey | hkey
    · exact hkey ▸ hinstance _
    · exact hkey ▸ hnode _ _
  · exact .marker (by decide) victimID
  · exact .elsewhere _ _ hunplaced (by decide)
  · apply WrittenBy.elsewhere _ (lit "placement/") _ (by decide)
    rcases Scheduler.move_key hchange with hkey | ⟨-, hkey⟩ | hkey
    · exact hkey ▸ hinstance _
    · exact hkey ▸ hnode _ _
    · exact hkey ▸ hnode _ _

/-- Every extracted job is filed under its own name, which has no slash. -/
def WellFiled (jobs : Map JobSpec) : Prop :=
  ∀ jobName spec, jobs.lookup jobName = some spec → spec.name = jobName ∧ Str.slash ∉ jobName

theorem WellFiled.update (h : WellFiled jobs) {jobName : Str} (hslash : Str.slash ∉ jobName)
    {f : JobSpec → JobSpec} (hname : (f (jobs.get jobName .zero)).name = jobName) :
    WellFiled (jobs.update jobName .zero f) := by
  intro other spec hlookup
  rw [Map.lookup_update] at hlookup
  split at hlookup
  next heq =>
    subst heq
    rw [← Option.some.inj hlookup]
    exact ⟨hname, hslash⟩
  next => exact h other spec hlookup

@[simp] theorem name_setField (spec : JobSpec) (field value : Str) :
    (spec.setField field value).name = spec.name := by
  unfold JobSpec.setField
  repeat' split
  all_goals rfl

theorem WellFiled.addDesiredJobFact (h : WellFiled jobs) (fact : Fact) :
    WellFiled (addDesiredJobFact jobs fact) := by
  unfold Controllers.addDesiredJobFact
  split
  next jobName _ hparts => exact h.update (Str.splitN_two_iff.mp hparts).2 (by simp)
  next jobName others _ hparts =>
    refine h.update ?_ rfl
    cases others with
    | nil =>
      obtain ⟨rfl, hslash⟩ := Str.splitN_singleton_iff.mp hparts
      exact hslash
    | cons second more =>
      obtain ⟨-, -, hslash, -⟩ := Str.splitN_cons hparts
      exact hslash
  next => exact h

theorem WellFiled.foldl_withDefaults {names : List Str} (h : WellFiled jobs)
    (hkeys : ∀ name ∈ names, name ∈ jobs.keys) :
    WellFiled (names.foldl
      (fun jobs jobName => jobs.update jobName .zero JobSpec.withDefaults) jobs) := by
  induction names generalizing jobs with
  | nil => exact h
  | cons name rest ih =>
    obtain ⟨spec, hspec⟩ := Option.isSome_iff_exists.mp
      (AList.lookup_isSome.mpr (hkeys name mem_cons_self))
    obtain ⟨hname, hslash⟩ := h name spec hspec
    apply ih
    · apply h.update hslash
      rw [Map.get, hspec]
      exact hname
    · intro other hother
      exact Map.mem_keys_set.mpr (Or.inr (hkeys other (mem_cons_of_mem _ hother)))

theorem wellFiled_extractDesiredJobs (facts : List Fact) :
    WellFiled (extractDesiredJobs facts) := by
  have hread : ∀ (found : List Fact) (jobs : Map JobSpec), WellFiled jobs →
      WellFiled (found.foldl addDesiredJobFact jobs) := by
    intro found
    induction found with
    | nil => exact fun jobs h => h
    | cons fact rest ih => exact fun jobs h => ih _ (h.addDesiredJobFact fact)
  have hempty : WellFiled ∅ := by
    intro _ _ hlookup
    simp at hlookup
  exact (hread _ _ hempty).foldl_withDefaults fun name hname => hname

/-- The changes a job's turn can make. -/
theorem reconcileSingleJob_cases {spec : JobSpec} {state : JobState}
    (h : change ∈ reconcileSingleJob spec state) :
    (∃ value, change = .put (keyDerivedJobStatus spec.name) value ∧
        (value = jobStatusComplete → spec.completions ≤ state.succeededCount)) ∨
      ∃ instanceIndex,
        change ∈ buildJobInstanceCreationChanges spec (jobInstanceID spec state instanceIndex) := by
  unfold reconcileSingleJob at h
  split at h
  next => cases h
  next =>
    split at h
    next henough => exact Or.inl ⟨_, mem_singleton.mp h, fun _ => henough⟩
    next =>
      split at h
      next => exact Or.inl ⟨_, mem_singleton.mp h, fun heq => absurd heq (by decide)⟩
      next =>
        rcases mem_append.mp h with hcreated | hrunning
        · obtain ⟨instanceIndex, -, hcreated⟩ := mem_flatMap.mp hcreated
          exact Or.inr ⟨instanceIndex, hcreated⟩
        · split at hrunning
          next => exact Or.inl ⟨_, mem_singleton.mp hrunning, fun heq => absurd heq (by decide)⟩
          next => cases hrunning

theorem writtenBy_job (h : change ∈ JobController.reconcile facts) :
    WrittenBy .job change := by
  obtain ⟨jobName, hjob, hchange⟩ := mem_flatMap.mp h
  obtain ⟨spec, hspec⟩ := Option.isSome_iff_exists.mp
    (AList.lookup_isSome.mpr (Map.mem_sortedKeys.mp hjob))
  obtain ⟨hname, hslash⟩ := wellFiled_extractDesiredJobs facts jobName spec hspec
  rw [Map.get, hspec, Option.getD_some] at hchange
  rcases reconcileSingleJob_cases hchange with ⟨_, rfl, -⟩ | ⟨_, hcreated⟩
  · exact .status _ _
  · refine .created ?_ hcreated
    intro hmem
    simp only [jobInstanceID, hname, mem_append] at hmem
    rcases hmem with (hmem | hmem) | hmem
    · exact hslash hmem
    · exact absurd hmem (by decide)
    · exact slash_notMem_itoa _ hmem

theorem writtenBy_proposes {table : FactTable} {controller : ClusterController}
    (h : change ∈ controller.proposes environment state table) : WrittenBy controller change := by
  cases controller with
  | job => exact writtenBy_job h
  | eviction => exact writtenBy_eviction h
  | scheduler => exact writtenBy_scheduler h

theorem apart_fieldKey {pre other key : Str} (hapart : Apart pre other) (hpre : pre <+: key)
    (entity field : Str) : key ≠ fieldKey other entity field := by
  intro heq
  rw [heq] at hpre
  exact hapart.not_isPrefix hpre (isPrefix_fieldKey _ _ _)

/-- The status `complete` is written when enough instances count as successes. -/
theorem complete_of_mem_reconcileSingleJob {spec : JobSpec} {state : JobState} {jobName : Str}
    (h : Change.put (keyDerivedJobStatus jobName) jobStatusComplete ∈
      reconcileSingleJob spec state) :
    spec.name = jobName ∧ spec.completions ≤ state.succeededCount := by
  rcases reconcileSingleJob_cases h with ⟨_, heq, henough⟩ | ⟨_, hcreated⟩
  · obtain ⟨-, hkey, rfl, -⟩ := Change.mk.inj heq
    exact ⟨(fieldKey_entity_injective hkey).symm, henough rfl⟩
  · have hobserved : ∀ entity field, keyDerivedJobStatus jobName ≠
        fieldKey scanObservedInstances entity field :=
      apart_fieldKey (by decide) (isPrefix_fieldKey scanDerivedJobs _ _)
    have hderived : ∀ entity field, keyDerivedJobStatus jobName ≠
        fieldKey scanDerivedInstances entity field :=
      apart_fieldKey (by decide) (isPrefix_fieldKey scanDerivedJobs _ _)
    simp only [buildJobInstanceCreationChanges, mem_cons, not_mem_nil, or_false,
      Change.put, Change.mk.injEq] at hcreated
    rcases hcreated with ⟨-, -, hvalue, -⟩ | ⟨-, hkey, -⟩ | ⟨-, hkey, -⟩ | ⟨-, hkey, -⟩
    · exact absurd hvalue (by decide)
    · exact absurd hkey (hobserved _ _)
    · exact absurd hkey (hobserved _ _)
    · exact absurd hkey (hderived _ _)

/-! ## Which fields a change is about -/

abbrev jobScans : List Str := [scanObservedInstances, scanDerivedInstances, scanDerivedJobs]

/-- The fields of instances and jobs that the controllers write. -/
def writtenFields : List (Str × Str) :=
  [(scanDerivedJobs, lit "status"), (scanObservedInstances, lit "service"),
    (scanObservedInstances, lit "state"), (scanDerivedInstances, lit "job_owner"),
    (scanDerivedInstances, lit "controller_stopped")]

/-- A new instance is pending. The job controller writes the owners, and the
others write the markers. -/
structure WritesField (controller : ClusterController) (change : Change)
    (root entity field : Str) : Prop where
  known : (root, field) ∈ writtenFields
  state : field = lit "state" → change.type = .put ∧ change.value = instancePending
  owner : field = lit "job_owner" → controller = .job ∧
    ∃ jobName, change = .put (keyDerivedJobInstanceOwner entity) jobName
  marker : field = lit "controller_stopped" → controller ≠ .job ∧
    change = .put (keyDerivedInstanceControllerStopped entity) (lit "true")

theorem WrittenBy.field {controller : ClusterController}
    {root entity field : Str} (h : WrittenBy controller change) (hentity : Str.slash ∉ entity)
    (hfield : Str.slash ∉ field) (hroot : root ∈ jobScans)
    (hkey : change.key = fieldKey root entity field) :
    WritesField controller change root entity field := by
  have hapart : ∀ pre ∈ jobScans, ∀ other ∈ jobScans, pre ≠ other → Apart pre other := by decide
  have hbelow : ∀ {pre}, pre ∈ jobScans → pre <+: change.key → pre = root := by
    intro pre hpre hstarts
    by_contra hne
    exact apart_fieldKey (hapart _ hpre _ hroot hne) hstarts _ _ hkey
  have hsame : ∀ {pre other name}, pre ∈ jobScans → change.key = fieldKey pre other name →
      pre = root ∧ other = entity ∧ name = field := by
    intro pre other name hpre heq
    obtain rfl := hbelow hpre (heq ▸ isPrefix_fieldKey _ _ _)
    exact ⟨rfl, (fieldKey_eq_iff hentity hfield).mp (heq.symm.trans hkey)⟩
  cases h with
  | status jobName value =>
    obtain ⟨rfl, -, rfl⟩ := hsame (by simp) rfl
    exact ⟨by decide, (absurd · (by decide)), (absurd · (by decide)), (absurd · (by decide))⟩
  | marker hjob instanceID =>
    obtain ⟨rfl, rfl, rfl⟩ := hsame (by simp) rfl
    exact ⟨by decide, (absurd · (by decide)), (absurd · (by decide)), fun _ => ⟨hjob, rfl⟩⟩
  | elsewhere _ pre hpre hapart => exact absurd hkey (apart_fieldKey (hapart _ hroot) hpre _ _)
  | @created spec instanceID _ hslash hchange =>
    simp only [buildJobInstanceCreationChanges, mem_cons, not_mem_nil, or_false] at hchange
    rcases hchange with rfl | rfl | rfl | rfl
    · -- the marker of the instance itself has no further slash
      obtain rfl := hbelow (by simp) (prefix_append scanObservedInstances instanceID)
      refine absurd ?_ hslash
      rw [append_cancel_left hkey]
      simp
    · obtain ⟨rfl, -, rfl⟩ := hsame (by simp) rfl
      exact ⟨by decide, (absurd · (by decide)), (absurd · (by decide)), (absurd · (by decide))⟩
    · obtain ⟨rfl, -, rfl⟩ := hsame (by simp) rfl
      exact ⟨by decide, fun _ => ⟨rfl, rfl⟩, (absurd · (by decide)), (absurd · (by decide))⟩
    · obtain ⟨rfl, rfl, rfl⟩ := hsame (by simp) rfl
      exact ⟨by decide, (absurd · (by decide)), fun _ => ⟨rfl, spec.name, rfl⟩,
        (absurd · (by decide))⟩

end JobCluster

end CCattler.Controllers
