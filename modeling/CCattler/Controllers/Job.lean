import CCattler.Controllers.Controller
import CCattler.Controllers.Helpers

/-! # The job controller

Creates the instances of run-to-completion jobs up to their parallelism, and
marks a job complete or failed by the effective states of its instances.
-/

namespace CCattler.Controllers

open Go Store CCattler.Types

def jobStatusRunning : Str := lit "running"

def jobStatusComplete : Str := lit "complete"

def jobStatusFailed : Str := lit "failed"

def defaultJobCompletions : Int := 1

def defaultJobParallelism : Int := 1

def defaultJobBackoffLimitController : Int := 3

structure JobSpec where
  name : Str
  image : Str
  command : Str
  completions : Int
  parallelism : Int
  backoffLimit : Int
  deriving DecidableEq, Repr

def JobSpec.zero : JobSpec := ⟨[], [], [], 0, 0, 0⟩

structure JobState where
  status : Str
  succeededCount : Int
  failedCount : Int
  activeCount : Int
  totalCreated : Int
  deriving DecidableEq, Repr

/-! ## Reading the facts -/

variable (spec : JobSpec)

/-- One field of a job; a corrupt count is what `Atoi` returns with its error. -/
def JobSpec.setField (field value : Str) : JobSpec :=
  if field = lit "image" then { spec with image := value }
  else if field = lit "command" then { spec with command := value }
  else if field = lit "completions" then { spec with completions := (parseInt value).1 }
  else if field = lit "parallelism" then { spec with parallelism := (parseInt value).1 }
  else if field = lit "backoff_limit" then { spec with backoffLimit := (parseInt value).1 }
  else spec

def JobSpec.withDefaults : JobSpec :=
  { spec with
    completions := if spec.completions = 0 then defaultJobCompletions else spec.completions
    parallelism := if spec.parallelism = 0 then defaultJobParallelism else spec.parallelism
    backoffLimit :=
      if spec.backoffLimit = 0 then defaultJobBackoffLimitController else spec.backoffLimit }

/-- One round of the first loop of `extractDesiredJobs`. -/
def addDesiredJobFact (jobs : Map JobSpec) (fact : Fact) : Map JobSpec :=
  match Str.splitN Str.slash 2 (fact.key.trimPrefix scanDesiredJobs) with
  | [jobName, field] =>
    jobs.update jobName .zero (fun spec => ({ spec with name := jobName }).setField field
      fact.value)
  | jobName :: _ => jobs.update jobName .zero (fun spec => { spec with name := jobName })
  | [] => jobs

variable (facts : List Fact)

def extractDesiredJobs : Map JobSpec :=
  let jobs := (factsWithPrefix facts scanDesiredJobs).foldl addDesiredJobFact ∅
  jobs.keys.foldl (fun jobs jobName => jobs.update jobName .zero JobSpec.withDefaults) jobs

def extractDerivedJobFacts : Map (Map Str) :=
  (factsWithPrefix facts scanDerivedJobs).foldl (fun (derivedJobs : Map (Map Str)) fact =>
    match splitFactKeyIntoEntityAndSuffix fact.key scanDerivedJobs with
    | some (jobName, field) =>
      derivedJobs.update jobName ∅ (fun known => known.set field fact.value)
    | none => derivedJobs) ∅

def jobInstancesIn (states : List InstanceState) (jobName : Str)
    (instanceFields : Map InstanceFields) : List Str :=
  instanceFields.keys.filter (fun instanceID =>
    let fields := instanceFields.get instanceID ∅
    decide (fields.field "job_owner" = jobName ∧ effectiveInstanceState fields ∈ states))

def activeInstanceStates : List InstanceState :=
  [instanceRunning, instancePending, instancePulling, instanceStarting, instanceImagePullBackoff,
    instanceWaitingForSecrets]

def computeJobState (jobName : Str) (instanceFields : Map InstanceFields)
    (derivedJobFacts : Map (Map Str)) : JobState :=
  let derived := derivedJobFacts.get jobName ∅
  let counted (start : Int) (states : List InstanceState) : Int :=
    wrap64 (start + (jobInstancesIn states jobName instanceFields).length)
  let succeededCount := counted (parseInt (derived.get (lit "succeeded") [])).1 [instanceStopped]
  let failedCount := counted (parseInt (derived.get (lit "failed") [])).1 [instanceFailed]
  let activeCount := counted 0 activeInstanceStates
  { status := derived.get (lit "status") []
    succeededCount := succeededCount
    failedCount := failedCount
    activeCount := activeCount
    totalCreated := wrap64 (wrap64 (succeededCount + failedCount) + activeCount) }

/-! ## Deciding -/

variable (state : JobState)

def computeInstancesToCreate : Int :=
  let remainingCompletions :=
    wrap64 (wrap64 (spec.completions - state.succeededCount) - state.activeCount)
  let parallelismSlots := wrap64 (spec.parallelism - state.activeCount)
  if remainingCompletions ≤ 0 then 0
  else if parallelismSlots ≤ 0 then 0
  else if remainingCompletions < parallelismSlots then remainingCompletions
  else parallelismSlots

def buildJobInstanceCreationChanges (instanceID : Str) : List Change :=
  [.put (keyObservedInstance instanceID) [], .put (keyObservedInstanceService instanceID) spec.name,
    .put (keyObservedInstanceState instanceID) instancePending,
    .put (keyDerivedJobInstanceOwner instanceID) spec.name]

def jobInstanceID (instanceIndex : Nat) : Str :=
  spec.name ++ lit "-" ++ itoa (wrap64 (state.totalCreated + instanceIndex))

def reconcileSingleJob : List Change :=
  if state.status = jobStatusComplete ∨ state.status = jobStatusFailed then []
  else if state.succeededCount ≥ spec.completions then
    [.put (keyDerivedJobStatus spec.name) jobStatusComplete]
  else if state.failedCount ≥ spec.backoffLimit then
    [.put (keyDerivedJobStatus spec.name) jobStatusFailed]
  else
    let instancesToCreate := computeInstancesToCreate spec state
    (List.range instancesToCreate.toNat).flatMap (fun instanceIndex =>
        buildJobInstanceCreationChanges spec (jobInstanceID spec state instanceIndex)) ++
      if state.status ≠ jobStatusRunning ∧ (state.activeCount > 0 ∨ instancesToCreate > 0) then
        [.put (keyDerivedJobStatus spec.name) jobStatusRunning]
      else []

namespace JobController

def watch : List Str :=
  [scanDesiredJobs, scanDerivedJobs, scanObservedInstances, scanDerivedInstances]

def reconcile : List Change :=
  let desiredJobs := extractDesiredJobs facts
  let instanceFields := parseInstanceFieldsFromFacts facts
  let derivedJobFacts := extractDerivedJobFacts facts
  desiredJobs.sortedKeys.flatMap (fun jobName =>
    reconcileSingleJob (desiredJobs.get jobName .zero)
      (computeJobState jobName instanceFields derivedJobFacts))

end JobController

end CCattler.Controllers
