import CCattler.Controllers.InstanceFacts
import CCattler.Controllers.JobCluster
import CCattler.Store.MemoryContract

/-! # When jobs complete

The success of an instance is read off its effective state, which is `stopped` also for
an instance that a controller has marked.
-/

namespace CCattler.Controllers

open Go Store CCattler.Types List Option
open JobController (watch reconcile)

variable (cluster : JobCluster)

/-- The instance belongs to some job. -/
def JobCluster.Owned (instanceID : Str) : Prop :=
  ∃ jobName, cluster.table.value (keyDerivedJobInstanceOwner instanceID) = some jobName

/-- The facts that a cycle of the job controller reads. -/
def JobCluster.jobFacts : List Fact :=
  visible watch cluster.table.allFacts

/-- A job is completed only by as many successes as declared, and counts no marked
instance. -/
structure CompletesOnlyBySuccess (cluster : JobCluster) : Prop where
  successes : ∀ jobName, jobName ≠ [] →
    Change.put (keyDerivedJobStatus jobName) jobStatusComplete ∈
      reconcile cluster.jobFacts →
    ∃ ended : List Str, ended.Nodup ∧
      (∀ instanceID ∈ ended,
        cluster.table.value (keyDerivedJobInstanceOwner instanceID) = some jobName ∧
          instanceID ∈ cluster.succeeded) ∧
      ((extractDesiredJobs cluster.jobFacts).get jobName .zero).completions ≤ ended.length
  unmarked : ∀ jobName, jobName ≠ [] →
    ∀ instanceID ∈ jobInstancesIn [instanceStopped] jobName
      (parseInstanceFieldsFromFacts cluster.jobFacts),
    cluster.table.value (keyDerivedInstanceControllerStopped instanceID) ≠ some (lit "true")

/-- Nothing in the store is about jobs, and the fields of instances are where the
components put them. -/
structure NoJobsYet (cluster : JobCluster) : Prop where
  owners : ∀ instanceID,
    cluster.table.value (keyDerivedJobInstanceOwner instanceID) = none ∧
      cluster.table.value (fieldKey scanObservedInstances instanceID (lit "job_owner")) = none
  states : ∀ instanceID,
    cluster.table.value (fieldKey scanDerivedInstances instanceID (lit "state")) = none
  markers : ∀ instanceID,
    cluster.table.value (fieldKey scanObservedInstances instanceID (lit "controller_stopped")) =
      none
  counters : ∀ jobName,
    cluster.table.value (fieldKey scanDerivedJobs jobName (lit "succeeded")) = none
  proposals : cluster.proposals = ∅

/-- No marker, report or new ID stops an instance of a job without its success. -/
def StopsOnlySuccesses : JobAction → Prop
  | .commit .job changes =>
    ∀ instanceID ∈ createdInstances (submittedChanges (lit "job") changes),
      cluster.table.value (keyObservedInstanceState instanceID) ≠ some instanceStopped ∧
        cluster.table.value (keyDerivedInstanceControllerStopped instanceID) ≠
          some (lit "true")
  | .commit controller changes =>
    ∀ instanceID, cluster.Owned instanceID →
      Change.put (keyDerivedInstanceControllerStopped instanceID) (lit "true") ∉
        submittedChanges controller.name changes
  | .publish instanceID field value =>
    field = lit "state" → value = some instanceStopped → cluster.Owned instanceID →
      instanceID ∈ cluster.succeeded
  | _ => True

/-- One step after another, each of which stops only successes. -/
def SoundRun : JobCluster → JobCluster → Prop :=
  Relation.ReflTransGen fun before after =>
    ∃ action, JobStep before action after ∧ StopsOnlySuccesses before action

namespace JobCompletion

open JobCluster

/-! ## One step -/

variable (table : ValidTable)

/-- The store after the transaction of a change list. -/
abbrev committed (changes : List Change) : ValidTable :=
  table.after (.transaction [] (changeOperations changes) [])

/-- After a commit a key has its old value or the one a submitted change leaves. -/
theorem value_commit_cases (changes : List Change) (key : Str) :
    (committed table changes).value key = table.value key ∨
      ∃ change ∈ changes, change.key = key ∧ (committed table changes).value key =
        FactTable.outcome ⟨change.type, change.key, change.value⟩ := by
  refine (table.perform_value_cases (.transaction [] (changeOperations changes) []) key).imp id ?_
  rintro ⟨op, hop, hkey, houtcome⟩
  have hmem := FactTable.mem_of_mem_branchOf hop
  rw [append_nil] at hmem
  obtain ⟨change, hchange, rfl⟩ := mem_map.mp hmem
  exact ⟨change, hchange, hkey, houtcome⟩

/-- No instance of a job is stopped or marked without having ended with success. -/
structure Sound (cluster : JobCluster) : Prop where
  owners : ∀ instanceID, Str.slash ∉ instanceID →
    cluster.table.value (fieldKey scanObservedInstances instanceID (lit "job_owner")) = none
  states : ∀ instanceID, Str.slash ∉ instanceID →
    cluster.table.value (fieldKey scanDerivedInstances instanceID (lit "state")) = none
  markers : ∀ instanceID, Str.slash ∉ instanceID →
    cluster.table.value (fieldKey scanObservedInstances instanceID (lit "controller_stopped")) =
      none
  counters : ∀ jobName, Str.slash ∉ jobName →
    cluster.table.value (fieldKey scanDerivedJobs jobName (lit "succeeded")) = none
  owned : ∀ instanceID, Str.slash ∉ instanceID → cluster.Owned instanceID →
    cluster.table.value (keyDerivedInstanceControllerStopped instanceID) ≠ some (lit "true") ∧
      (cluster.table.value (keyObservedInstanceState instanceID) = some instanceStopped →
        instanceID ∈ cluster.succeeded)
  proposals : ∀ controller changes, (controller, changes) ∈ cluster.proposals →
    ∀ change ∈ changes, WrittenBy controller change

theorem NoJobsYet.sound {cluster : JobCluster} (h : NoJobsYet cluster) : Sound cluster where
  owners := fun instanceID _ => (h.owners instanceID).2
  states := fun instanceID _ => h.states instanceID
  markers := fun instanceID _ => h.markers instanceID
  counters := fun jobName _ => h.counters jobName
  owned := by
    intro instanceID _ howned
    obtain ⟨jobName, howner⟩ := howned
    rw [(h.owners instanceID).1] at howner
    cases howner
  proposals := by
    intro controller changes hmem
    rw [h.proposals] at hmem
    cases hmem

theorem value_after_of_notMem (table : ValidTable) {operation : Operation} {key : Str}
    (h : key ∉ operation.writtenKeys) : (table.after operation).value key = table.value key :=
  congrArg (Option.map Fact.value) (FactTable.perform_facts_of_notMem h)

section Commit

variable (table : ValidTable) {controller : ClusterController} {submitted : List Change}
  (hwritten : ∀ change ∈ submitted, WrittenBy controller change) {entity : Str}
  (hslash : Str.slash ∉ entity)

include hwritten hslash

theorem field_after_commit {root field : Str} (hfield : Str.slash ∉ field)
    (hroot : root ∈ jobScans) :
    (committed table submitted).value (fieldKey root entity field) =
        table.value (fieldKey root entity field) ∨
      ∃ change ∈ submitted, WritesField controller change root entity field ∧
        (committed table submitted).value (fieldKey root entity field) =
          FactTable.outcome ⟨change.type, change.key, change.value⟩ := by
  refine (value_commit_cases table submitted _).imp id ?_
  rintro ⟨change, hchange, hkey, hafter⟩
  exact ⟨change, hchange, (hwritten change hchange).field hslash hfield hroot hkey, hafter⟩

theorem state_after_commit :
    (committed table submitted).value (keyObservedInstanceState entity) =
        table.value (keyObservedInstanceState entity) ∨
      (committed table submitted).value (keyObservedInstanceState entity) =
        some instancePending := by
  refine (field_after_commit table hwritten hslash (by decide) (by simp)).imp id ?_
  rintro ⟨change, -, hwrites, hafter⟩
  obtain ⟨htype, hvalue⟩ := hwrites.state rfl
  rw [keyObservedInstanceState, hafter, htype, hvalue]
  rfl

/-- A marker is set by the other controllers only. -/
theorem marker_after_commit :
    (committed table submitted).value (keyDerivedInstanceControllerStopped entity) =
        table.value (keyDerivedInstanceControllerStopped entity) ∨
      (controller ≠ .job ∧
        Change.put (keyDerivedInstanceControllerStopped entity) (lit "true") ∈ submitted) := by
  refine (field_after_commit table hwritten hslash (by decide) (by simp)).imp id ?_
  rintro ⟨change, hchange, hwrites, -⟩
  obtain ⟨hjob, rfl⟩ := hwrites.marker rfl
  exact ⟨hjob, hchange⟩

theorem owner_after_commit :
    (committed table submitted).value (keyDerivedJobInstanceOwner entity) =
        table.value (keyDerivedJobInstanceOwner entity) ∨
      (controller = .job ∧ entity ∈ createdInstances submitted) := by
  refine (field_after_commit table hwritten hslash (by decide) (by simp)).imp id ?_
  rintro ⟨change, hchange, hwrites, -⟩
  obtain ⟨hjob, jobName, rfl⟩ := hwrites.owner rfl
  exact ⟨hjob, jobName, hchange⟩

end Commit

section

variable {cluster : JobCluster} (h : Sound cluster)
include h

/-- Commits keep the invariant. -/
theorem Sound.commit {controller : ClusterController} {changes : List Change}
    (hmem : (controller, changes) ∈ cluster.proposals)
    (hstops : StopsOnlySuccesses cluster (.commit controller changes)) :
    Sound { cluster with
      table := cluster.table.after (.transaction []
        (changeOperations (submittedChanges controller.name changes)) [])
      succeeded := cluster.succeeded \
        createdInstances (submittedChanges controller.name changes) } := by
  set submitted := submittedChanges controller.name changes with hsubmitted
  have hwritten : ∀ change ∈ submitted, WrittenBy controller change := fun change hchange =>
    h.proposals controller changes hmem change ((submittedChanges_spec _ _).1 hchange)
  have hkept : ∀ {root entity field}, Str.slash ∉ entity → Str.slash ∉ field →
      root ∈ jobScans → (root, field) ∉ writtenFields →
      (committed cluster.table submitted).value (fieldKey root entity field) =
        cluster.table.value (fieldKey root entity field) := by
    intro root entity field hslash hfield hroot hnone
    refine (field_after_commit cluster.table hwritten hslash hfield hroot).resolve_right ?_
    rintro ⟨_, -, hwrites, -⟩
    exact hnone hwrites.known
  refine
    { owners := fun instanceID hslash => ?_
      states := fun instanceID hslash => ?_
      markers := fun instanceID hslash => ?_
      counters := fun jobName hslash => ?_
      owned := fun instanceID hslash howned => ?_
      proposals := h.proposals }
  · exact (hkept hslash (by decide) (by simp) (by decide)).trans (h.owners instanceID hslash)
  · exact (hkept hslash (by decide) (by simp) (by decide)).trans (h.states instanceID hslash)
  · exact (hkept hslash (by decide) (by simp) (by decide)).trans (h.markers instanceID hslash)
  · exact (hkept hslash (by decide) (by simp) (by decide)).trans (h.counters jobName hslash)
  · have hstate := state_after_commit cluster.table hwritten hslash
    have hmarker := marker_after_commit cluster.table hwritten hslash
    rcases owner_after_commit cluster.table hwritten hslash with hkeptOwner | ⟨rfl, hcreated⟩
    · -- the instance was owned before, so no marker lands on it
      have hbefore : cluster.Owned instanceID := by
        obtain ⟨jobName, howner⟩ := howned
        exact ⟨jobName, hkeptOwner ▸ howner⟩
      obtain ⟨hunmarked, hstopped⟩ := h.owned instanceID hslash hbefore
      constructor
      · intro hmarked
        rcases hmarker with hsame | ⟨hjob, hput⟩
        · exact hunmarked (hsame ▸ hmarked)
        · cases controller with
          | job => exact hjob rfl
          | eviction => exact hstops instanceID hbefore hput
          | scheduler => exact hstops instanceID hbefore hput
      · intro hafter
        rcases hstate with hsame | hpending
        · have hfact := hsame.symm.trans hafter
          refine ⟨hstopped hfact, fun hcreated => ?_⟩
          obtain ⟨jobName, hput⟩ := id hcreated
          obtain ⟨rfl, -⟩ := ((hwritten _ hput).field hslash (by decide) (by simp) rfl).owner rfl
          exact (hstops instanceID hcreated).1 hfact
        · exact absurd (hpending.symm.trans hafter) (by decide)
    · -- a new instance starts out neither marked nor stopped
      obtain ⟨hfresh, hunmarked⟩ := hstops instanceID hcreated
      constructor
      · intro hmarked
        rcases hmarker with hsame | ⟨hjob, -⟩
        · exact hunmarked (hsame ▸ hmarked)
        · exact hjob rfl
      · intro hafter
        rcases hstate with hsame | hpending
        · exact absurd (hsame.symm.trans hafter) hfresh
        · exact absurd (hpending.symm.trans hafter) (by decide)

theorem Sound.of_values {table : ValidTable}
    (hderived : ∀ key, scanDerivedInstances <+: key ∨ scanDerivedJobs <+: key →
      table.value key = cluster.table.value key) (howner : ∀ instanceID, Str.slash ∉ instanceID →
      table.value (fieldKey scanObservedInstances instanceID (lit "job_owner")) =
        cluster.table.value (fieldKey scanObservedInstances instanceID (lit "job_owner")))
    (hmarker : ∀ instanceID, Str.slash ∉ instanceID →
      table.value (fieldKey scanObservedInstances instanceID (lit "controller_stopped")) =
        cluster.table.value (fieldKey scanObservedInstances instanceID (lit "controller_stopped")))
    (hstate : ∀ instanceID, Str.slash ∉ instanceID → cluster.Owned instanceID →
      table.value (keyObservedInstanceState instanceID) = some instanceStopped →
      cluster.table.value (keyObservedInstanceState instanceID) = some instanceStopped ∨
        instanceID ∈ cluster.succeeded) : Sound { cluster with table := table } := by
  have hinstance : ∀ instanceID field,
      table.value (fieldKey scanDerivedInstances instanceID field) =
        cluster.table.value (fieldKey scanDerivedInstances instanceID field) :=
    fun _ _ => hderived _ (Or.inl (isPrefix_fieldKey _ _ _))
  refine
    { owners := fun instanceID hslash => ?_
      states := fun instanceID hslash => ?_
      markers := fun instanceID hslash => ?_
      counters := fun jobName hslash => ?_
      owned := fun instanceID hslash howned => ?_
      proposals := h.proposals }
  · exact (howner instanceID hslash).trans (h.owners instanceID hslash)
  · exact (hinstance instanceID _).trans (h.states instanceID hslash)
  · exact (hmarker instanceID hslash).trans (h.markers instanceID hslash)
  · exact (hderived _ (Or.inr (isPrefix_fieldKey _ _ _))).trans
      (h.counters jobName hslash)
  · have hbefore : cluster.Owned instanceID := by
      obtain ⟨jobName, hjob⟩ := howned
      exact ⟨jobName, (hinstance instanceID _).symm.trans hjob⟩
    obtain ⟨hunmarked, hstopped⟩ := h.owned instanceID hslash hbefore
    constructor
    · intro hmarked
      exact hunmarked ((hinstance instanceID _).symm.trans hmarked)
    · intro hafter
      exact (hstate instanceID hslash hbefore hafter).elim hstopped id

/-- Reports of the agents keep the invariant. -/
theorem Sound.publish (instanceID : Str) {field : Str} (value : Option Str)
    (howner : field ≠ lit "job_owner") (hmarker : field ≠ lit "controller_stopped")
    (hstops : StopsOnlySuccesses cluster (.publish instanceID field value)) :
    Sound { cluster with
      table := cluster.table.after (publishOperation instanceID field value) } := by
  have hkeys : (publishOperation instanceID field value).writtenKeys =
      [fieldKey scanObservedInstances instanceID field] := by
    cases value <;> rfl
  have hkept : ∀ {key}, key ≠ fieldKey scanObservedInstances instanceID field →
      (cluster.table.after (publishOperation instanceID field value)).value key =
        cluster.table.value key := by
    intro key hne
    apply value_after_of_notMem
    rw [hkeys]
    exact fun hmem => hne (mem_singleton.mp hmem)
  apply h.of_values
  · intro key hbelow
    apply hkept
    rcases hbelow with hpre | hpre
    · exact apart_fieldKey (by decide) hpre _ _
    · exact apart_fieldKey (by decide) hpre _ _
  · intro other hslash
    apply hkept
    intro heq
    exact howner ((fieldKey_eq_iff hslash (by decide)).mp heq.symm).2
  · intro other hslash
    apply hkept
    intro heq
    exact hmarker ((fieldKey_eq_iff hslash (by decide)).mp heq.symm).2
  · intro other hslash howned hafter
    by_cases heq : keyObservedInstanceState other = fieldKey scanObservedInstances instanceID field
    · obtain ⟨rfl, rfl⟩ := (fieldKey_eq_iff hslash (by decide)).mp heq.symm
      refine Or.inr (hstops rfl ?_ howned)
      rw [heq] at hafter
      cases value with
      | none => simp [publishOperation] at hafter
      | some published => simpa [publishOperation] using hafter
    · exact Or.inl ((hkept heq).symm.trans hafter)

/-- Writes elsewhere keep the invariant. -/
theorem Sound.outside {operation : Operation}
    (haway : ∀ key ∈ operation.writtenKeys, ∀ pre ∈ [scanObservedInstances, scanDerivedInstances,
      scanDerivedJobs], ¬ pre <+: key) :
    Sound { cluster with table := cluster.table.after operation } := by
  have hkept : ∀ {key pre}, pre ∈ [scanObservedInstances, scanDerivedInstances, scanDerivedJobs] →
      pre <+: key → (cluster.table.after operation).value key = cluster.table.value key := by
    intro key pre hpre hstarts
    apply value_after_of_notMem
    intro hkey
    exact haway key hkey pre hpre hstarts
  have hobserved : ∀ instanceID field,
      (cluster.table.after operation).value (fieldKey scanObservedInstances instanceID field) =
        cluster.table.value (fieldKey scanObservedInstances instanceID field) :=
    fun _ _ => hkept (by simp) (isPrefix_fieldKey _ _ _)
  apply h.of_values
  · intro key hbelow
    rcases hbelow with hpre | hpre
    · exact hkept (by simp) hpre
    · exact hkept (by simp) hpre
  · exact fun instanceID _ => hobserved instanceID _
  · exact fun instanceID _ => hobserved instanceID _
  · intro instanceID _ _ hafter
    exact Or.inl ((hobserved instanceID _).symm.trans hafter)

end

theorem Sound.step {cluster next : JobCluster} {action : JobAction} (h : Sound cluster)
    (hstep : JobStep cluster action next) (hstops : StopsOnlySuccesses cluster action) :
    Sound next := by
  cases hstep with
  | cycle controller environment state =>
    refine { h with proposals := fun writer changes hmem => ?_ }
    rcases Set.mem_insert_iff.mp hmem with heq | hbefore
    · obtain ⟨rfl, rfl⟩ := Prod.mk.inj heq
      exact fun change hchange => writtenBy_proposes hchange
    · exact h.proposals writer changes hbefore
  | commit hmem => exact h.commit hmem hstops
  | publish instanceID value howner hmarker =>
    exact h.publish instanceID value howner hmarker hstops
  | exit instanceID =>
    refine { h with owned := fun other hslash howned => ?_ }
    obtain ⟨hunmarked, hstopped⟩ := h.owned other hslash howned
    exact ⟨hunmarked, fun hstate => Set.mem_insert_of_mem _ (hstopped hstate)⟩
  | outside haway => exact h.outside haway

theorem Sound.run {start cluster : JobCluster} (h : Sound start) (hrun : SoundRun start cluster) :
    Sound cluster := by
  induction hrun with
  | refl => exact h
  | tail _ hstep ih =>
    obtain ⟨action, hstep, hstops⟩ := hstep
    exact ih.step hstep hstops

/-! ## What the job controller counts -/

section Counting

variable {cluster : JobCluster} (h : Sound cluster) {jobName : Str} (hname : jobName ≠ [])

include h hname

/-- An instance that counts as a success is one, and no controller has marked it. -/
theorem succeeded_of_counted {instanceID : Str}
    (hcounted : instanceID ∈ jobInstancesIn [instanceStopped] jobName
      (parseInstanceFieldsFromFacts cluster.jobFacts)) :
    cluster.table.value (keyDerivedJobInstanceOwner instanceID) = some jobName ∧
      cluster.table.value (keyDerivedInstanceControllerStopped instanceID) ≠ some (lit "true") ∧
      instanceID ∈ cluster.succeeded := by
  have hread := @instanceField_of_field cluster.table.toFactTable watch
    cluster.table.valid (by decide) (by decide) (by decide) instanceID
  obtain ⟨-, hcounted⟩ := mem_filter.mp hcounted
  obtain ⟨howner, hstate⟩ := of_decide_eq_true hcounted
  rw [mem_singleton] at hstate
  obtain ⟨hslash, howner⟩ := hread howner hname
  have hjob : cluster.table.value (keyDerivedJobInstanceOwner instanceID) = some jobName := by
    rw [FactTable.instanceField, h.owners instanceID hslash, or_none] at howner
    exact howner
  obtain ⟨hunmarked, hstopped⟩ := h.owned instanceID hslash ⟨jobName, hjob⟩
  refine ⟨hjob, hunmarked, hstopped ?_⟩
  unfold effectiveInstanceState at hstate
  split at hstate
  next hmarked =>
    -- a marked instance of a job is what the invariant rules out
    obtain ⟨-, hmarked⟩ := hread hmarked (by decide)
    rw [FactTable.instanceField, h.markers instanceID hslash, or_none] at hmarked
    exact absurd hmarked hunmarked
  next =>
    split at hstate
    next => exact absurd hstate (by decide)
    next =>
      obtain ⟨-, hstate⟩ := hread hstate (by decide)
      rw [FactTable.instanceField, h.states instanceID hslash] at hstate
      exact hstate

omit hname in
/-- The count of successes never exceeds the stopped instances. -/
theorem succeededCount_le (hslash : Str.slash ∉ jobName) :
    (computeJobState jobName (parseInstanceFieldsFromFacts cluster.jobFacts)
        (extractDerivedJobFacts cluster.jobFacts)).succeededCount ≤
      (jobInstancesIn [instanceStopped] jobName
        (parseInstanceFieldsFromFacts cluster.jobFacts)).length := by
  have hcounter : ((extractDerivedJobFacts cluster.jobFacts).get jobName ∅).lookup
      (lit "succeeded") = none := by
    have hlookup := lookup_addInstanceFields cluster.table.valid
      (show NonOverlapping watch by decide)
      (show scanDerivedJobs ∈ watch by decide) ∅ hslash (lit "succeeded")
    rw [h.counters jobName hslash] at hlookup
    exact hlookup.trans (by simp [Map.get])
  have hzero : (parseInt (((extractDerivedJobFacts cluster.jobFacts).get jobName ∅).get
      (lit "succeeded") [])).1 = 0 := by
    rw [Map.get, hcounter]
    rfl
  simp only [computeJobState, hzero, zero_add]
  exact wrap64_natCast_le _

/-- A job is completed only by enough stopped instances. -/
theorem completions_le_of_complete
    (hcomplete : Change.put (keyDerivedJobStatus jobName) jobStatusComplete ∈
      reconcile cluster.jobFacts) :
    ((extractDesiredJobs cluster.jobFacts).get jobName .zero).completions ≤
      (jobInstancesIn [instanceStopped] jobName
        (parseInstanceFieldsFromFacts cluster.jobFacts)).length := by
  obtain ⟨other, hother, hchange⟩ := mem_flatMap.mp hcomplete
  obtain ⟨spec, hspec⟩ := isSome_iff_exists.mp
    (AList.lookup_isSome.mpr (Map.mem_sortedKeys.mp hother))
  obtain ⟨hfiled, hslash⟩ := wellFiled_extractDesiredJobs cluster.jobFacts other spec hspec
  rw [Map.get, hspec, getD_some] at hchange
  obtain ⟨hsame, hcount⟩ := complete_of_mem_reconcileSingleJob hchange
  rw [hfiled] at hsame
  subst hsame
  rw [Map.get, hspec]
  exact hcount.trans (succeededCount_le h hslash)

end Counting

theorem Sound.completesOnlyBySuccess {cluster : JobCluster} (h : Sound cluster) :
    CompletesOnlyBySuccess cluster where
  successes := by
    intro jobName hname hcomplete
    refine ⟨jobInstancesIn [instanceStopped] jobName
      (parseInstanceFieldsFromFacts cluster.jobFacts), ?_, ?_,
      completions_le_of_complete h hname hcomplete⟩
    · exact List.Nodup.filter _ (AList.keys_nodup _)
    · intro instanceID hcounted
      obtain ⟨howner, -, hsucceeded⟩ := succeeded_of_counted h hname hcounted
      exact ⟨howner, hsucceeded⟩
  unmarked := by
    intro jobName hname instanceID hcounted
    exact (succeeded_of_counted h hname hcounted).2.1

end JobCompletion

/-- In every run whose steps stop only successes, jobs complete only by success. -/
theorem jobs_complete_only_by_success {start cluster : JobCluster} (hstart : NoJobsYet start)
    (hrun : SoundRun start cluster) : CompletesOnlyBySuccess cluster :=
  ((JobCompletion.NoJobsYet.sound hstart).run hrun).completesOnlyBySuccess

namespace JobCompletion

/-! ## A backup job

One node that is short of memory, and a job of one instance. -/

section

variable (operations : List Operation)

/-- The store after a history. -/
def tableOf : ValidTable :=
  ⟨FactTable.new.run operations, FactTable.valid_new.run operations⟩

theorem tableOf_after (operation : Operation) :
    (tableOf operations).after operation = tableOf (operations ++ [operation]) := by
  simp only [tableOf, ValidTable.after, FactTable.run, foldl_append, foldl_cons,
    foldl_nil]

theorem tableOf_allFacts : (tableOf operations).allFacts = FactTable.factsAfter operations :=
  FactTable.run_allFacts operations

end

def declared : List Operation :=
  [.put (lit "desired/job/backup/image") (lit "backup:1"),
    .put (lit "observed/node/n1/available/memory") (lit "5"),
    .put (lit "observed/node/n1/capacity/memory") (lit "100")]

/-- The first cycle of the job controller creates the instance. -/
def creation : List Change :=
  buildJobInstanceCreationChanges ⟨lit "backup", lit "backup:1", [], 1, 1, 3⟩ (lit "backup-0") ++
    [.put (keyDerivedJobStatus (lit "backup")) jobStatusRunning]

/-- The transaction of that cycle, in the order of its keys. -/
def creationOperations : List Op :=
  [⟨.put, lit "derived/instance/backup-0/job_owner", lit "backup"⟩,
    ⟨.put, lit "derived/job/backup/status", lit "running"⟩,
    ⟨.put, lit "observed/instance/backup-0", []⟩,
    ⟨.put, lit "observed/instance/backup-0/service", lit "backup"⟩,
    ⟨.put, lit "observed/instance/backup-0/state", lit "pending"⟩]

def created : List Operation := declared ++ [.transaction [] creationOperations []]

/-- The process ends by itself, and the agent says so. -/
def finished : List Operation :=
  created ++ [.put (keyObservedInstanceState (lit "backup-0")) instanceStopped]

/-- The agent reports the instance as running on its node. -/
def started : List Operation :=
  created ++ [.put (fieldKey scanObservedInstances (lit "backup-0") (lit "node")) (lit "n1")] ++
    [.put (keyObservedInstanceState (lit "backup-0")) instanceRunning]

/-- What the eviction controller proposes then. -/
def evictions : List Change :=
  [.put (keyDerivedInstanceControllerStopped (lit "backup-0")) (lit "true"),
    .put (keyDerivedNodePressure (lit "n1")) (lit "memory")]

def evictionOperations : List Op :=
  [⟨.put, lit "derived/instance/backup-0/controller_stopped", lit "true"⟩,
    ⟨.put, lit "derived/node/n1/pressure", lit "memory"⟩]

def evictedStore : List Operation := started ++ [.transaction [] evictionOperations []]

-- one evaluation for the whole example: decoding the texts is what takes time
theorem backup_evaluates :
    reconcile (visible watch (FactTable.factsAfter declared)) = creation ∧
      changeOperations (submittedChanges ClusterController.job.name creation) =
        creationOperations ∧
      EvictionController.reconcile (visible EvictionController.watch
        (FactTable.factsAfter started)) = evictions ∧
      changeOperations (submittedChanges ClusterController.eviction.name evictions) =
        evictionOperations ∧
      reconcile (visible watch (FactTable.factsAfter finished)) =
        [.put (keyDerivedJobStatus (lit "backup")) jobStatusComplete] ∧
      reconcile (visible watch (FactTable.factsAfter evictedStore)) =
        [.put (keyDerivedJobStatus (lit "backup")) jobStatusComplete] ∧
      ((extractDesiredJobs (visible watch (FactTable.factsAfter evictedStore))).get (lit "backup")
        .zero).completions = 1 := by
  decide +kernel

theorem declared_value_eq_none {pre : Str} (hpre : ∀ operation ∈ declared,
    ∀ key ∈ operation.writtenKeys, ¬ pre <+: key) (entity field : Str) :
    (tableOf declared).value (fieldKey pre entity field) = none := by
  have hfacts : (FactTable.new.run declared).facts (fieldKey pre entity field) = none := by
    rw [FactTable.run_facts_of_notMem]
    · rfl
    · intro operation hoperation hkey
      exact hpre operation hoperation _ hkey (isPrefix_fieldKey _ _ _)
  exact congrArg (Option.map Fact.value) hfacts

theorem noJobsYet_declared : NoJobsYet ⟨tableOf declared, ∅, ∅⟩ where
  owners := fun instanceID =>
    ⟨declared_value_eq_none (by decide) _ _, declared_value_eq_none (by decide) _ _⟩
  states := fun instanceID => declared_value_eq_none (by decide) _ _
  markers := fun instanceID => declared_value_eq_none (by decide) _ _
  counters := fun jobName => declared_value_eq_none (by decide) _ _
  proposals := rfl

theorem proposes_creation :
    ClusterController.job.proposes Scheduler.plainEnvironment ⟨none⟩
      (tableOf declared).toFactTable = creation := by
  rw [ClusterController.proposes, tableOf_allFacts]
  exact backup_evaluates.1

/-- The proposals so far, when the instance has been created. -/
def creationProposed : Set (ClusterController × List Change) := insert (.job, creation) ∅

theorem creation_run :
    SoundRun ⟨tableOf declared, ∅, ∅⟩ ⟨tableOf created, ∅, creationProposed⟩ := by
  have hcycle := JobStep.cycle ⟨tableOf declared, ∅, ∅⟩ .job Scheduler.plainEnvironment ⟨none⟩
  rw [proposes_creation] at hcycle
  have hcommit := @JobStep.commit ⟨tableOf declared, ∅, creationProposed⟩ .job creation
    (Set.mem_insert _ _)
  simp only [tableOf_after, Set.empty_sdiff] at hcommit
  refine .tail (.single ⟨_, hcycle, trivial⟩) ⟨_, hcommit, ?_⟩
  intro instanceID _
  constructor
  · rw [keyObservedInstanceState, declared_value_eq_none (by decide)]
    simp
  · rw [keyDerivedInstanceControllerStopped, declared_value_eq_none (by decide)]
    simp

theorem proposes_evictions :
    ClusterController.eviction.proposes Scheduler.plainEnvironment ⟨none⟩
      (tableOf started).toFactTable = evictions := by
  rw [ClusterController.proposes, tableOf_allFacts]
  exact backup_evaluates.2.2.1

theorem completes_backup :
    (Change.put (keyDerivedJobStatus (lit "backup")) jobStatusComplete ∈
        reconcile (visible watch (tableOf finished).allFacts)) ∧
      Change.put (keyDerivedJobStatus (lit "backup")) jobStatusComplete ∈
        reconcile (visible watch (tableOf evictedStore).allFacts) ∧
      ((extractDesiredJobs (visible watch (tableOf evictedStore).allFacts)).get
        (lit "backup") .zero).completions = 1 := by
  obtain ⟨-, -, -, -, hdone, hcounted, hdeclared⟩ := backup_evaluates
  rw [tableOf_allFacts, tableOf_allFacts, hdone]
  exact ⟨mem_singleton_self _, mem_singleton_self _, hdeclared⟩

end JobCompletion

open JobCompletion in
/-- A job that ends by itself: the run is sound and the job completes. -/
theorem finished_job_completes :
    ∃ cluster : JobCluster, NoJobsYet ⟨tableOf declared, ∅, ∅⟩ ∧
      SoundRun ⟨tableOf declared, ∅, ∅⟩ cluster ∧
      Change.put (keyDerivedJobStatus (lit "backup")) jobStatusComplete ∈
        reconcile cluster.jobFacts ∧
      CompletesOnlyBySuccess cluster := by
  have hrun : SoundRun ⟨tableOf declared, ∅, ∅⟩
      ⟨tableOf finished, insert (lit "backup-0") ∅, creationProposed⟩ := by
    have hexit := JobStep.exit ⟨tableOf created, ∅, creationProposed⟩ (lit "backup-0")
    have hpublish := @JobStep.publish
      ⟨tableOf created, insert (lit "backup-0") ∅, creationProposed⟩
      (lit "backup-0") (lit "state") (some instanceStopped) (by decide) (by decide)
    simp only [publishOperation, tableOf_after] at hpublish
    refine .tail (.tail creation_run ⟨_, hexit, trivial⟩) ⟨_, hpublish, ?_⟩
    exact fun _ _ _ => Set.mem_insert _ _
  exact ⟨_, noJobsYet_declared, hrun, completes_backup.1,
    jobs_complete_only_by_success noJobsYet_declared hrun⟩

open JobCompletion in
/-- A job whose only instance is evicted while it runs completes without any
success. -/
theorem evicted_job_completes :
    ∃ cluster : JobCluster, NoJobsYet ⟨tableOf declared, ∅, ∅⟩ ∧
      Relation.ReflTransGen (fun before after => ∃ action, JobStep before action after)
        ⟨tableOf declared, ∅, ∅⟩ cluster ∧
      cluster.succeeded = ∅ ∧
      Change.put (keyDerivedJobStatus (lit "backup")) jobStatusComplete ∈
        reconcile cluster.jobFacts ∧
      ¬ CompletesOnlyBySuccess cluster := by
  have hcreated : Relation.ReflTransGen
      (fun before after => ∃ action, JobStep before action after)
      ⟨tableOf declared, ∅, ∅⟩ ⟨tableOf created, ∅, creationProposed⟩ :=
    Relation.ReflTransGen.mono (fun _ _ ⟨action, hstep, _⟩ => ⟨action, hstep⟩) _ _ creation_run
  have hnode := @JobStep.publish ⟨tableOf created, ∅, creationProposed⟩
    (lit "backup-0") (lit "node") (some (lit "n1")) (by decide) (by decide)
  have hstate := @JobStep.publish
    ⟨tableOf (created ++
      [.put (fieldKey scanObservedInstances (lit "backup-0") (lit "node")) (lit "n1")]), ∅,
      creationProposed⟩
    (lit "backup-0") (lit "state") (some instanceRunning) (by decide) (by decide)
  have hcycle := JobStep.cycle ⟨tableOf started, ∅, creationProposed⟩ .eviction
    Scheduler.plainEnvironment ⟨none⟩
  have hcommit := @JobStep.commit
    ⟨tableOf started, ∅, insert (.eviction, evictions) creationProposed⟩ .eviction evictions
    (Set.mem_insert _ _)
  simp only [publishOperation, tableOf_after] at hnode hstate
  rw [proposes_evictions] at hcycle
  simp only [backup_evaluates.2.2.2.1, tableOf_after, Set.empty_sdiff] at hcommit
  refine ⟨⟨tableOf evictedStore, ∅, insert (.eviction, evictions) creationProposed⟩,
    noJobsYet_declared, ?_, rfl, completes_backup.2.1, ?_⟩
  · exact (((hcreated.tail ⟨_, hnode⟩).tail ⟨_, hstate⟩).tail ⟨_, hcycle⟩).tail ⟨_, hcommit⟩
  · intro hcompletes
    obtain ⟨ended, -, hended, hcount⟩ :=
      hcompletes.successes (lit "backup") (by decide) completes_backup.2.1
    cases ended with
    | nil =>
      rw [JobCluster.jobFacts, completes_backup.2.2] at hcount
      exact absurd hcount (by decide)
    | cons instanceID rest => exact (hended instanceID mem_cons_self).2

end CCattler.Controllers
