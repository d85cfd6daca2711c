import CCattler.Controllers.Leader
import CCattler.Store.Revisions

/-! # Agreement of the leader election

A leader measures its leadership from the moment its last write returned, which is later
than the timestamp that a challenger goes by.
-/

namespace CCattler.Controllers

open Go Store Concurrency List ElectionState FactTable

/-! ## Effects of the calls on the shared state -/

variable {election : LeaderElection} {now : Time} {compares : List Compare} {onSuccess : List Op}
  {compare : Compare} {key : Str} {fact : Fact}

namespace ElectionState

variable {Node : Type} {state : ElectionState Node}

theorem withTable_self (state : ElectionState Node) : state.withTable state.table = state := by
  simp [withTable]

section

variable (table : ValidTable)

@[simp] theorem withTable_time : (state.withTable table).time = state.time :=
  rfl

@[simp] theorem withTable_written : (state.withTable table).written = state.written := rfl

@[simp] theorem withTable_table : (state.withTable table).table = table := rfl

theorem withTable_holderSince : (state.withTable table).holderSince =
      if (state.withTable table).holder = state.holder then state.holderSince else state.time := rfl

end

theorem withTable_of_facts_eq (state : ElectionState Node) (table : ValidTable)
    (hlease : table.facts leaderLeaseKey = state.table.facts leaderLeaseKey)
    (hholder : table.facts leaderLeaseHolderKey = state.table.facts leaderLeaseHolderKey) :
    (state.withTable table).holder = state.holder ∧
      (state.withTable table).leaseStamp = state.leaseStamp ∧
      (state.withTable table).holderSince = state.holderSince := by
  have hsame : (state.withTable table).holder = state.holder := by
    simp only [holder, withTable_table, hholder]
  refine ⟨hsame, ?_, ?_⟩
  · simp only [leaseStamp, withTable_table, hlease]
  · rw [withTable_holderSince, if_pos hsame]

theorem leaderLeaseKey_ne : leaderLeaseKey ≠ leaderLeaseHolderKey := by decide

theorem leaseStamp_of_value {value : Str}
    (h : (state.table.facts leaderLeaseKey).map Fact.value = some value) :
    state.leaseStamp = some (parseLeaseTimestamp value) := by
  obtain ⟨_, hfact, rfl⟩ := Option.map_eq_some_iff.mp h
  simp [leaseStamp, hfact]

section

variable (hsize : compares.length + onSuccess.length ≤ memoryStoreTransactionOperationLimit)
include hsize

theorem transaction_result {table : FactTable} : (table.transaction compares onSuccess []).result =
      .ok (table.evaluateTransactionPreconditions compares) := by
  simp only [FactTable.transaction, length_nil, add_zero, if_neg (not_lt.mpr hsize)]

theorem applied_table :
    (state.applied compares onSuccess).table.toFactTable =
      if state.table.evaluateTransactionPreconditions compares then
        (state.table.commitBranch onSuccess).1
      else state.table.toFactTable := by
  simp only [applied, FactTable.perform, FactTable.transaction, length_nil, add_zero, if_neg
    (not_lt.mpr hsize), gt_iff_lt]
  split <;> rfl

theorem applied_of_not_met
    (hmet : state.table.evaluateTransactionPreconditions compares = false) :
    state.applied compares onSuccess = state := by
  have htable := @applied_table _ _ _ state hsize
  rw [if_neg (by simp [hmet])] at htable
  have hvalid : (⟨_, state.table.valid.perform (.transaction compares onSuccess [])⟩ : ValidTable) =
      state.table := by
    apply ValidTable.toFactTable_injective
    exact htable
  rw [applied, hvalid, withTable_self]

/-- A committed transaction leaves the values it wrote. -/
theorem applied_value
    (hmet : state.table.evaluateTransactionPreconditions compares = true)
    (hnodup : (onSuccess.map Op.key).Nodup) (operation : Op) (h : operation ∈ onSuccess) :
    ((state.applied compares onSuccess).table.facts operation.key).map Fact.value =
      FactTable.outcome operation := by
  rw [applied_table hsize, if_pos hmet]
  exact commitBranch_value hnodup h

/-- A transaction has no effect or its compares are met; a success is the second case. -/
theorem perform_transaction_cases [DecidableEq Node] (node : Node) (fault : StoreFault)
    (state : ElectionState Node) :
    let performed := perform node fault (.transaction compares onSuccess) state
    (performed.1 ≠ some true ∧ performed.2 = state) ∨
      (state.table.evaluateTransactionPreconditions compares = true ∧
        ((performed.1 = none ∧ performed.2 = state.applied compares onSuccess) ∨
          (performed.1 = some true ∧
            performed.2 = (state.applied compares onSuccess).acknowledge node))) := by
  have hresult := @transaction_result _ _ hsize state.table.toFactTable
  cases hmet : state.table.evaluateTransactionPreconditions compares with
  | false =>
    have hsame := applied_of_not_met hsize hmet
    left
    cases fault <;> simp [perform, hresult, hmet, hsame]
  | true => cases fault <;> simp [perform, hresult, hmet]

end

section

variable (hmet : state.table.evaluateTransactionPreconditions [compare] = true)
include hmet

theorem applied_acquisition :
    (state.applied [compare] (election.acquisition (itoa now.unixMilli))).holder =
        some election.nodeID ∧
      (state.applied [compare] (election.acquisition (itoa now.unixMilli))).leaseStamp =
        some now.milli := by
  have hsize : [compare].length + (election.acquisition (itoa now.unixMilli)).length ≤
      memoryStoreTransactionOperationLimit := by
    simp [LeaderElection.acquisition, memoryStoreTransactionOperationLimit]
  have hnodup : ((election.acquisition (itoa now.unixMilli)).map Op.key).Nodup := by
    simp [LeaderElection.acquisition, leaderLeaseKey_ne]
  constructor
  · exact applied_value hsize hmet hnodup ⟨.put, leaderLeaseHolderKey, election.nodeID⟩
      (by simp [LeaderElection.acquisition])
  · rw [← parseLeaseTimestamp_itoa]
    apply leaseStamp_of_value
    exact applied_value hsize hmet hnodup ⟨.put, leaderLeaseKey, itoa now.unixMilli⟩
      (by simp [LeaderElection.acquisition])

theorem applied_renewal :
    let next := state.applied [compare] [⟨.put, leaderLeaseKey, itoa now.unixMilli⟩]
    next.holder = state.holder ∧ next.leaseStamp = some now.milli := by
  intro next
  constructor
  · have hother : leaderLeaseHolderKey ∉ Operation.writtenKeys (.transaction [compare]
        [⟨.put, leaderLeaseKey, itoa now.unixMilli⟩] []) := by
      simp only [Operation.writtenKeys, append_nil, map_cons, map_nil]
      decide
    simp only [next, applied, holder, withTable_table, perform_facts_of_notMem hother]
  · rw [← parseLeaseTimestamp_itoa]
    apply leaseStamp_of_value
    exact applied_value (by simp [memoryStoreTransactionOperationLimit]) hmet (by simp)
      ⟨.put, leaderLeaseKey, itoa now.unixMilli⟩ mem_cons_self

theorem applied_release : (state.applied [compare] [⟨.delete, leaderLeaseKey, []⟩,
      ⟨.delete, leaderLeaseHolderKey, []⟩]).holder = none := by
  exact applied_value (by simp [memoryStoreTransactionOperationLimit]) hmet
    (by simp [leaderLeaseKey_ne]) ⟨.delete, leaderLeaseHolderKey, []⟩ (by simp)

end

variable [DecidableEq Node] {node : Node}

@[simp] theorem acknowledge_table : (state.acknowledge node).table = state.table := by
  unfold acknowledge
  split <;> rfl

@[simp] theorem acknowledge_time : (state.acknowledge node).time = state.time := by
  unfold acknowledge
  split <;> rfl

@[simp] theorem acknowledge_holderSince :
    (state.acknowledge node).holderSince = state.holderSince := by
  unfold acknowledge
  split <;> rfl

@[simp] theorem acknowledge_holder : (state.acknowledge node).holder = state.holder := by
  simp [holder]

@[simp] theorem acknowledge_leaseStamp :
    (state.acknowledge node).leaseStamp = state.leaseStamp := by
  simp [leaseStamp]

theorem acknowledge_written_of_ne {other : Node} (h : other ≠ node) :
    (state.acknowledge node).written other = state.written other := by
  unfold acknowledge
  split <;> simp [h]

theorem acknowledge_written_self {stamp : Time} (h : state.leaseStamp = some stamp) :
    (state.acknowledge node).written node = stamp := by
  simp [acknowledge, h]

theorem perform_get_state (node : Node) (fault : StoreFault) (key : Str)
    (state : ElectionState Node) : (perform node fault (.get key) state).2 = state := by
  cases fault <;> rfl

theorem facts_of_perform_get (node : Node) {fault : StoreFault}
    (h : (perform node fault (.get key) state).1 = some fact) :
    state.table.facts key = some fact := by
  cases fault with
  | none =>
    simp only [perform, FactTable.get] at h
    split at h
    next => simp [Except.toOption] at h
    next _ hexisting =>
      rw [hexisting]
      simpa [Except.toOption] using h
  | requestLost => simp [perform] at h
  | replyLost => simp [perform] at h

end ElectionState

/-! ## What a leader knows -/

section Agreement

variable {Node : Type} (cluster : Cluster Node)

/-- A leader's lease is no older than what it last wrote, or was waited out by another. -/
structure Leads (node : Node) (state : ElectionState Node) : Prop where
  written_le : (state.written node).nanos ≤ state.time.milli.nanos
  held : state.holder = some (cluster.nodeID node) →
    ∃ stamp, state.leaseStamp = some stamp ∧ (state.written node).nanos ≤ stamp.nanos
  lost : state.holder ≠ some (cluster.nodeID node) →
    ∃ rival, (state.written node).nanos + cluster.leaseDuration rival < state.time.nanos ∧
      (state.holder.isSome →
        (state.written node).nanos + cluster.leaseDuration rival < state.holderSince.nanos)

/-- What a node relies on between its steps. -/
structure Relies (node : Node) (before after : ElectionState Node) : Prop where
  time_le : before.time.nanos ≤ after.time.nanos
  written_eq : after.written node = before.written node
  revision_le : before.table.currentRevision ≤ after.table.currentRevision
  persisted : ∀ key fact, after.table.facts key = some fact →
    fact.revision ≤ before.table.currentRevision → before.table.facts key = some fact
  leads : Leads cluster node before → Leads cluster node after

/-- Leadership kept after a failed renewal is within every lease duration of the last
write. -/
def RetainsWithinLease (node : Node) : ElectionCall → ElectionState Node → Prop
  | .since earlier, state =>
    state.time.sub earlier ≤ cluster.leaseDuration node →
      ∀ other, state.time.nanos ≤ (state.written node).nanos + cluster.leaseDuration other
  | _, _ => True

variable {cluster} {node : Node} {state : ElectionState Node}

theorem Relies.refl (node : Node) (state : ElectionState Node) : Relies cluster node state state :=
  ⟨le_rfl, rfl, le_rfl, fun _ _ hfact _ => hfact, fun hleads => hleads⟩

theorem Relies.trans {first second third : ElectionState Node}
    (h : Relies cluster node first second) (h' : Relies cluster node second third) :
    Relies cluster node first third where
  time_le := h.time_le.trans h'.time_le
  written_eq := h'.written_eq.trans h.written_eq
  revision_le := h.revision_le.trans h'.revision_le
  persisted key fact hfact hold :=
    h.persisted key fact (h'.persisted key fact hfact (hold.trans h.revision_le)) hold
  leads hleads := h'.leads (h.leads hleads)

variable (cluster) in
/-- The rely-guarantee discipline of the election. -/
def discipline : Discipline Node ElectionCall (ElectionState Node) where
  rely := Relies cluster
  allowed := RetainsWithinLease cluster
  rely_refl := Relies.refl
  rely_trans := Relies.trans

theorem relies_withTable (operation : Operation) (hleads : Leads cluster node state →
      Leads cluster node (state.withTable ⟨_, state.table.valid.perform operation⟩)) :
    Relies cluster node state (state.withTable ⟨_, state.table.valid.perform operation⟩) where
  time_le := le_rfl
  written_eq := rfl
  revision_le := state.table.perform_currentRevision_le operation
  persisted _ _ hfact hold := perform_facts_of_old hfact hold
  leads := hleads

/-- What a node knows of a fact it read: only that fact can have its revision. -/
structure Seen (key : Str) (fact : Fact) (state : ElectionState Node) : Prop where
  revision_pos : 1 ≤ fact.revision
  revision_le : fact.revision ≤ state.table.currentRevision
  unique : ∀ other, state.table.facts key = some other → other.revision = fact.revision →
    other = fact

theorem seen_of_facts (h : state.table.facts key = some fact) : Seen key fact state where
  revision_pos :=
    (state.table.valid.stamped.create_pos h).trans (state.table.valid.stamped.create_le h)
  revision_le := state.table.valid.stamped.revision_le h
  unique other hother _ := by
    rw [h] at hother
    exact (Option.some.inj hother).symm

variable {later : ElectionState Node}

theorem Seen.stable (h : Seen key fact state)
    (hrely : Relies cluster node state later) : Seen key fact later where
  revision_pos := h.revision_pos
  revision_le := h.revision_le.trans hrely.revision_le
  unique other hother hrevision := by
    have hold : other.revision ≤ state.table.currentRevision := hrevision ▸ h.revision_le
    exact h.unique other (hrely.persisted key other hother hold) hrevision

/-- A compare with a revision that was read holds of nothing but the fact read. -/
theorem Seen.facts_of_met (h : Seen key fact state)
    (hmet : state.table.evaluateTransactionPreconditions [⟨key, fact.revision⟩] = true) :
    state.table.facts key = some fact := by
  have hpos := h.revision_pos
  simp only [FactTable.evaluateTransactionPreconditions, all_cons, all_nil,
    Bool.and_true, FactTable.meets] at hmet
  rw [if_neg (by omega), Option.any_eq_true] at hmet
  obtain ⟨other, hother, hrevision⟩ := hmet
  rw [hother, h.unique other hother (by simpa using hrevision)]

/-! ## What a commit leaves to the others -/

theorem leads_of_held {stamp : Time} (hholder : state.holder = some (cluster.nodeID node))
    (hstamp : state.leaseStamp = some stamp) (hwritten : (state.written node).nanos ≤ stamp.nanos)
    (htime : (state.written node).nanos ≤ state.time.milli.nanos) : Leads cluster node state :=
  ⟨htime, fun _ => ⟨stamp, hstamp, hwritten⟩, fun hother => absurd hholder hother⟩

section

variable {other : Node} (hne : other ≠ node) (h : Leads cluster other state)
include hne h

omit h in
theorem nodeID_ne : cluster.nodeID node ≠ cluster.nodeID other :=
  fun heq => hne (cluster.distinct heq).symm

/-- A takeover of an expired lease keeps what the others rely on. -/
theorem Leads.takeover (hexpired : ∀ stamp, state.leaseStamp = some stamp →
      stamp.nanos + cluster.leaseDuration node < state.time.nanos) {table : ValidTable}
    (hholder : (state.withTable table).holder = some (cluster.nodeID node)) :
    Leads cluster other (state.withTable table) := by
  refine ⟨h.written_le, fun hheld => ?_, fun _ => ?_⟩
  · rw [hholder] at hheld
    exact absurd (Option.some.inj hheld) (nodeID_ne hne)
  · rw [withTable_holderSince]
    by_cases hheld : state.holder = some (cluster.nodeID other)
    · -- the lease taken over was the other's, and its holder changes now
      obtain ⟨stamp, hstamp, _⟩ := h.held hheld
      have hold := hexpired stamp hstamp
      rw [if_neg (by rw [hholder, hheld]; simpa using nodeID_ne hne)]
      refine ⟨node, ?_, fun _ => ?_⟩ <;> simp only [withTable_written,
        withTable_time] <;> omega
    · obtain ⟨rival, htime, hsince⟩ := h.lost hheld
      refine ⟨rival, htime, fun _ => ?_⟩
      split
      next hsame => exact hsince (by rw [← hsame, hholder]; rfl)
      next => exact htime

theorem Leads.of_other_holder (hnode : state.holder = some (cluster.nodeID node))
    {table : ValidTable} (hholder : (state.withTable table).holder = state.holder ∨
      (state.withTable table).holder = none) : Leads cluster other (state.withTable table) := by
  obtain ⟨rival, htime, hsince⟩ := h.lost (by rw [hnode]; simpa using nodeID_ne hne)
  refine ⟨h.written_le, fun hheld => ?_, fun _ => ⟨rival, htime, fun hsome => ?_⟩⟩
  · rcases hholder with hsame | hnone
    · rw [hsame, hnode] at hheld
      exact absurd (Option.some.inj hheld) (nodeID_ne hne)
    · rw [hnone] at hheld
      simp at hheld
  · rcases hholder with hsame | hnone
    · rw [withTable_holderSince, if_pos hsame]
      exact hsince (by rw [hnode]; rfl)
    · rw [hnone] at hsome
      simp at hsome

end

/-! ## Assertions between the steps of a program -/

variable (cluster) in
/-- The election record of a node between calls. -/
structure Rests (node : Node) (election : LeaderElection) (state : ElectionState Node) : Prop where
  nodeID_eq : election.nodeID = cluster.nodeID node
  duration_eq : election.leaseDuration = cluster.leaseDuration node
  leads : election.isLeader = true → Leads cluster node state

variable (cluster) in
/-- The outcome of a call that read the clock at `now`. -/
structure Settled (node : Node) (now : Time) (election : LeaderElection)
    (state : ElectionState Node) : Prop where
  rests : Rests cluster node election state
  within : election.isLeader = true →
    ∀ other, now.nanos ≤ (state.written node).nanos + cluster.leaseDuration other

variable (cluster) in
/-- A leader's call under way, with the clock read at `now`. -/
structure Renewing (node : Node) (now : Time) (state : ElectionState Node) : Prop where
  leads : Leads cluster node state
  now_le : now.nanos ≤ state.time.nanos
  written_le : (state.written node).nanos ≤ now.milli.nanos

variable (cluster) in
/-- The node knows that the timestamp of `now` was written. -/
structure Confirmed (node : Node) (now : Time) (state : ElectionState Node) : Prop where
  leads : Leads cluster node state
  written_eq : state.written node = now.milli

section

variable (hrely : Relies cluster node state later)
include hrely

theorem Rests.stable (h : Rests cluster node election state) : Rests cluster node election later :=
  ⟨h.nodeID_eq, h.duration_eq, fun hleader => hrely.leads (h.leads hleader)⟩

theorem Settled.stable (h : Settled cluster node now election state) :
    Settled cluster node now election later :=
  ⟨h.rests.stable hrely, fun hleader => by rw [hrely.written_eq]; exact h.within hleader⟩

theorem Renewing.stable (h : Renewing cluster node now state) : Renewing cluster node now later :=
  ⟨hrely.leads h.leads, h.now_le.trans hrely.time_le, by rw [hrely.written_eq]; exact h.written_le⟩

theorem Confirmed.stable (h : Confirmed cluster node now state) :
    Confirmed cluster node now later :=
  ⟨hrely.leads h.leads, hrely.written_eq.trans h.written_eq⟩

end

section

variable (h : Rests cluster node election state)
include h

theorem Rests.of_leads (hleads : Leads cluster node later) : Rests cluster node election later :=
  ⟨h.nodeID_eq, h.duration_eq, fun _ => hleads⟩

theorem Rests.follows (hnot : election.isLeader = false) :
    Settled cluster node now election later := by
  refine ⟨⟨h.nodeID_eq, h.duration_eq, fun hleader => ?_⟩, fun hleader => ?_⟩ <;>
    simp [hnot] at hleader

theorem Rests.relinquish : Rests cluster node election.relinquishLeadership later :=
  ⟨h.nodeID_eq, h.duration_eq, fun hleader => nomatch hleader⟩

theorem settled_relinquish : Settled cluster node now election.relinquishLeadership state :=
  (@Rests.relinquish _ _ _ _ _ state h).follows rfl

end

/-- A confirmed round settles the election. -/
theorem Confirmed.settled (hlong : ∀ other, 999999 ≤ cluster.leaseDuration other)
    (h : Confirmed cluster node now state) (hnode : election.nodeID = cluster.nodeID node)
    (hduration : election.leaseDuration = cluster.leaseDuration node) :
    Settled cluster node now election state := by
  refine ⟨⟨hnode, hduration, fun _ => h.leads⟩, fun _ other => ?_⟩
  have hcut := now.nanos_lt_milli
  have hother := hlong other
  rw [h.written_eq]
  omega

theorem Leads.of_unchanged {next : ElectionState Node} (h : Leads cluster node state)
    (htime : state.time.nanos ≤ next.time.nanos) (hwritten : next.written = state.written)
    (hholder : next.holder = state.holder) (hstamp : next.leaseStamp = state.leaseStamp)
    (hsince : next.holderSince = state.holderSince) : Leads cluster node next := by
  refine ⟨?_, ?_, ?_⟩
  · rw [hwritten]
    exact h.written_le.trans (Time.milli_mono htime)
  · rw [hholder, hstamp, hwritten]
    exact h.held
  · rw [hholder, hsince, hwritten]
    intro hlost
    obtain ⟨rival, hover, hbefore⟩ := h.lost hlost
    exact ⟨rival, hover.trans_le htime, hbefore⟩

theorem relies_disturb (node : Node) (change : Surroundings) (state : ElectionState Node) :
    Relies cluster node state (Cluster.disturb change state) := by
  cases change with
  | tick target =>
    have htime := state.time.le_later target
    exact ⟨htime, rfl, le_rfl, fun _ _ hfact _ => hfact,
      fun hleads => hleads.of_unchanged htime rfl rfl rfl rfl⟩
  | write operation =>
    simp only [Cluster.disturb]
    split
    next => exact Relies.refl node state
    next hkeys =>
      rw [not_or] at hkeys
      apply relies_withTable
      intro hleads
      obtain ⟨hholder, hstamp, hsince⟩ := state.withTable_of_facts_eq
        (⟨_, state.table.valid.perform operation⟩ : ValidTable)
        (perform_facts_of_notMem hkeys.1) (perform_facts_of_notMem hkeys.2)
      exact hleads.of_unchanged le_rfl rfl hholder hstamp hsince

/-! ## Commits and acknowledgements -/

variable [DecidableEq Node]

theorem relies_acknowledge {other : Node} (hne : other ≠ node) (state : ElectionState Node) :
    Relies cluster other state (state.acknowledge node) where
  time_le := by simp
  written_eq := acknowledge_written_of_ne hne
  revision_le := by simp
  persisted _ _ hfact _ := by simpa using hfact
  leads h := by
    have hwritten : (state.acknowledge node).written other = state.written other :=
      acknowledge_written_of_ne hne
    refine ⟨?_, ?_, ?_⟩
    · simpa [hwritten] using h.written_le
    · simpa [hwritten] using h.held
    · simpa [hwritten] using h.lost

theorem confirmed_acknowledge (hholder : state.holder = some (cluster.nodeID node))
    (hstamp : state.leaseStamp = some now.milli) (hnow : now.nanos ≤ state.time.nanos) :
    Confirmed cluster node now (state.acknowledge node) := by
  have hwritten : (state.acknowledge node).written node = now.milli :=
    acknowledge_written_self hstamp
  refine ⟨leads_of_held (by simpa using hholder) (by simpa using hstamp) ?_ ?_, hwritten⟩
  · rw [hwritten]
  · rw [hwritten, acknowledge_time]
    exact Time.milli_mono hnow

/-! ## Rules for the calls -/

variable (cluster) in
/-- Safety of an election program. -/
abbrev ElectionSafe (node : Node) {Answer : Type} (program : ElectionProc Answer)
    (post : Answer → ElectionState Node → Prop) (state : ElectionState Node) : Prop :=
  Safe Cluster.machine (discipline cluster) node program post state

theorem safe_now {post : Time → ElectionState Node → Prop}
    (h : ∀ later, Relies cluster node state later → ∀ last, Relies cluster node later last →
      post later.time last) :
    ElectionSafe cluster node ElectionProc.now post state := by
  apply safe_request
  intro later hlater _ _
  exact ⟨fun other _ => Relies.refl other later, h later hlater⟩

/-- The rule for reading the clock. -/
theorem safe_since {earlier : Time} {post : Int → ElectionState Node → Prop}
    (h : ∀ later, Relies cluster node state later →
      RetainsWithinLease cluster node (.since earlier) later →
      ∀ last, Relies cluster node later last → post (later.time.sub earlier) last) :
    ElectionSafe cluster node (ElectionProc.since earlier) post state := by
  apply safe_request
  intro later hlater hallowed _
  exact ⟨fun other _ => Relies.refl other later, h later hlater hallowed⟩

/-- The rule for reading a fact. -/
theorem safe_get {post : Option Fact → ElectionState Node → Prop}
    (h : ∀ later, Relies cluster node state later →
      ∀ reply, (∀ fact, reply = some fact → later.table.facts key = some fact) →
      ∀ last, Relies cluster node later last → post reply last) :
    ElectionSafe cluster node (ElectionProc.get key) post state := by
  apply safe_request
  intro later hlater _ fault
  have hsame : (Cluster.machine.perform node fault (.get key) later).2 = later :=
    perform_get_state node fault key later
  rw [hsame]
  refine ⟨fun other _ => Relies.refl other later, h later hlater _ ?_⟩
  intro fact hfact
  exact facts_of_perform_get node hfact

section

variable (hsize : compares.length + onSuccess.length ≤ memoryStoreTransactionOperationLimit)
include hsize

theorem guarantees_transaction (fault : StoreFault)
    (hkeeps : state.table.evaluateTransactionPreconditions compares = true →
      ∀ other, other ≠ node → Leads cluster other state →
        Leads cluster other (state.applied compares onSuccess)) :
    Guarantees (discipline cluster) node state
      (ElectionState.perform node fault (.transaction compares onSuccess) state).2 := by
  intro other hne
  obtain ⟨-, hsame⟩ | ⟨hmet, ⟨-, hnext⟩ | ⟨-, hnext⟩⟩ :=
    perform_transaction_cases hsize node fault state
  · rw [hsame]
    exact Relies.refl other state
  · rw [hnext]
    exact relies_withTable _ (hkeeps hmet other hne)
  · rw [hnext]
    exact (relies_withTable _ (hkeeps hmet other hne)).trans (relies_acknowledge hne _)

/-- A transaction: without effect and not known to have succeeded, or applied
with its compares met. -/
theorem safe_transaction {post : Option Bool → ElectionState Node → Prop}
    (hstable : ∀ reply earlier later, post reply earlier → Relies cluster node earlier later →
      post reply later)
    (hfailed : ∀ later, Relies cluster node state later → ∀ reply, reply ≠ some true →
      post reply later) (happlied : ∀ later, Relies cluster node state later →
      later.table.evaluateTransactionPreconditions compares = true →
      (∀ other, other ≠ node → Leads cluster other later →
        Leads cluster other (later.applied compares onSuccess)) ∧
      post none (later.applied compares onSuccess) ∧
      post (some true) ((later.applied compares onSuccess).acknowledge node)) :
    ElectionSafe cluster node (ElectionProc.transaction compares onSuccess) post state := by
  apply safe_request
  intro later hlater _ fault
  refine ⟨guarantees_transaction hsize fault fun hmet => (happlied later hlater hmet).1, ?_⟩
  intro _ hlast
  refine hstable _ _ _ ?_ hlast
  change post (ElectionState.perform node fault (.transaction compares onSuccess) later).1
    (ElectionState.perform node fault (.transaction compares onSuccess) later).2
  obtain ⟨hreply, hsame⟩ | ⟨hmet, ⟨hreply, hnext⟩ | ⟨hreply, hnext⟩⟩ :=
    perform_transaction_cases hsize node fault later
  · rw [hsame]
    exact hfailed later hlater _ hreply
  · rw [hreply, hnext]
    exact (happlied later hlater hmet).2.1
  · rw [hreply, hnext]
    exact (happlied later hlater hmet).2.2

end

/-! ## The programs -/

theorem safe_settled (h : Settled cluster node now election state) :
    ElectionSafe cluster node (pure election) (Settled cluster node now) state :=
  safe_pure fun _ hlater => h.stable hlater

theorem handleTransientRenewalFailure_safe (hrests : Rests cluster node election state)
    (h : Renewing cluster node now state) :
    ElectionSafe cluster node election.handleTransientRenewalFailure
      (Settled cluster node now) state := by
  apply Safe.bind
  apply safe_since
  intro _ hlater hretains _ hlast
  have hrests' := (hrests.stable hlater).stable hlast
  split
  next => exact safe_settled (settled_relinquish hrests')
  next hkept =>
    refine safe_settled ⟨hrests', fun _ other => ?_⟩
    -- the branch that keeps the leadership: the step's condition applies
    rw [hrests.duration_eq] at hkept
    have hwithin := hretains (by omega) other
    have hnow := (h.stable hlater).now_le
    rw [hlast.written_eq]
    omega

theorem renewed_safe (hlong : ∀ other, 999999 ≤ cluster.leaseDuration other)
    (hrests : Rests cluster node election state) {reply : Option Bool}
    (hfailed : reply ≠ some true → Renewing cluster node now state)
    (hdone : reply = some true → Confirmed cluster node now state) :
    ElectionSafe cluster node (election.renewed reply) (Settled cluster node now) state := by
  match reply with
  | none => exact handleTransientRenewalFailure_safe hrests (hfailed (by simp))
  | some false => exact safe_settled (settled_relinquish hrests)
  | some true =>
    apply Safe.bind
    apply safe_now
    intro _ hlater _ hlast
    have hconfirmed := ((hdone rfl).stable hlater).stable hlast
    exact safe_settled (hconfirmed.settled hlong hrests.nodeID_eq hrests.duration_eq)

/-- The renewal's transaction is safe. -/
theorem renewal_safe {holderFact : Fact} (hrests : Rests cluster node election state)
    (h : Renewing cluster node now state) (hseen : Seen leaderLeaseHolderKey holderFact state)
    (hvalue : holderFact.value = cluster.nodeID node) :
    ElectionSafe cluster node
      (ElectionProc.transaction [⟨leaderLeaseHolderKey, holderFact.revision⟩]
        [⟨.put, leaderLeaseKey, itoa now.unixMilli⟩])
      (fun reply later => Rests cluster node election later ∧
        (reply ≠ some true → Renewing cluster node now later) ∧
        (reply = some true → Confirmed cluster node now later)) state := by
  apply safe_transaction (by simp [memoryStoreTransactionOperationLimit])
  · intro reply _ later hpost hrely
    exact ⟨hpost.1.stable hrely, fun hne => (hpost.2.1 hne).stable hrely,
      fun heq => (hpost.2.2 heq).stable hrely⟩
  · intro later hlater reply hne
    exact ⟨hrests.stable hlater, fun _ => h.stable hlater, fun heq => absurd heq hne⟩
  · intro later hlater hmet
    have hfact := (hseen.stable hlater).facts_of_met hmet
    have hholder : later.holder = some (cluster.nodeID node) := by
      simp [ElectionState.holder, hfact, hvalue]
    have hlast := h.stable hlater
    obtain ⟨hsame, hstamp⟩ := @ElectionState.applied_renewal now _ Node later hmet
    have hleads := leads_of_held (hsame.trans hholder) hstamp hlast.written_le
      hlast.leads.written_le
    have hconfirmed := confirmed_acknowledge (hsame.trans hholder) hstamp hlast.now_le
    refine ⟨fun other hne hother => hother.of_other_holder hne hholder (Or.inl hsame),
      ⟨hrests.of_leads hleads, fun _ => ⟨hleads, hlast.now_le, hlast.written_le⟩, by simp⟩,
      ⟨hrests.of_leads hconfirmed.leads, by simp, fun _ => hconfirmed⟩⟩

section

variable (hlong : ∀ other, 999999 ≤ cluster.leaseDuration other)
  (hrests : Rests cluster node election state)
include hlong hrests

theorem renewLeaseWithCAS_safe (h : Renewing cluster node now state) :
    ElectionSafe cluster node (election.renewLeaseWithCAS (itoa now.unixMilli))
      (Settled cluster node now) state := by
  apply Safe.bind
  apply safe_get
  intro _ hread reply hreply _ hcurrent
  have hrests := (hrests.stable hread).stable hcurrent
  have h := (h.stable hread).stable hcurrent
  match reply with
  | none => exact handleTransientRenewalFailure_safe hrests h
  | some holderFact =>
    have hseen := (seen_of_facts (hreply holderFact rfl)).stable hcurrent
    simp only
    split
    next => exact safe_settled (settled_relinquish hrests)
    next hvalue =>
      apply Safe.bind
      refine (renewal_safe hrests h hseen ?_).imp ?_
      · exact (not_not.mp hvalue).trans hrests.nodeID_eq
      · intro reply _ hpost
        exact renewed_safe hlong hpost.1 hpost.2.1 hpost.2.2

theorem acquired_safe (hnot : election.isLeader = false) {reply : Option Bool}
    (hdone : reply = some true → Confirmed cluster node now state) :
    ElectionSafe cluster node (election.acquired reply) (Settled cluster node now) state := by
  match reply with
  | none | some false => exact safe_settled (hrests.follows hnot)
  | some true =>
    apply Safe.bind
    apply safe_now
    intro _ hlater _ hlast
    have hconfirmed := ((hdone rfl).stable hlater).stable hlast
    exact safe_settled (hconfirmed.settled hlong hrests.nodeID_eq hrests.duration_eq)

/-- The transaction of an acquisition: its compare holds only of a lease that has
run out, or of none. -/
theorem acquisition_safe (hnot : election.isLeader = false) (hnow : now.nanos ≤ state.time.nanos)
    (hexpired : ∀ later, Relies cluster node state later →
      later.table.evaluateTransactionPreconditions [compare] = true →
      ∀ stamp, later.leaseStamp = some stamp →
        stamp.nanos + cluster.leaseDuration node < later.time.nanos) :
    ElectionSafe cluster node
      (ElectionProc.transaction [compare] (election.acquisition (itoa now.unixMilli)) >>=
        election.acquired) (Settled cluster node now) state := by
  apply Safe.bind
  refine Safe.imp (?_ : ElectionSafe cluster node _ (fun reply later =>
    Rests cluster node election later ∧ (reply = some true → Confirmed cluster node now later))
    state) (fun reply later hpost => acquired_safe hlong hpost.1 hnot hpost.2)
  have hnotLeads : ∀ later, Rests cluster node election later := fun _ =>
    (@Rests.follows _ now _ _ _ _ _ hrests hnot).rests
  apply safe_transaction
  · simp [LeaderElection.acquisition, memoryStoreTransactionOperationLimit]
  · intro reply _ later hpost hrely
    exact ⟨hnotLeads later, fun heq => (hpost.2 heq).stable hrely⟩
  · intro later _ reply hne
    exact ⟨hnotLeads later, fun heq => absurd heq hne⟩
  · intro later hlater hmet
    obtain ⟨hholder, hstamp⟩ := @ElectionState.applied_acquisition election now _ Node later hmet
    rw [hrests.nodeID_eq] at hholder
    refine ⟨fun other hne hother => ?_, ⟨hnotLeads _, by simp⟩, ⟨hnotLeads _, fun _ => ?_⟩⟩
    · exact hother.takeover hne (hexpired later hlater hmet) hholder
    · exact confirmed_acknowledge hholder hstamp (hnow.trans hlater.time_le)

/-- A round of the election is safe. -/
theorem acquireOrRenewAt_safe (hnow : now.nanos ≤ state.time.nanos)
    (hwritten : election.isLeader = true → (state.written node).nanos ≤ now.milli.nanos) :
    ElectionSafe cluster node (election.acquireOrRenewAt now) (Settled cluster node now) state := by
  unfold LeaderElection.acquireOrRenewAt
  split
  next hleader =>
    exact renewLeaseWithCAS_safe hlong hrests ⟨hrests.leads hleader, hnow, hwritten hleader⟩
  next hnot =>
    have hnot : election.isLeader = false := by simpa using hnot
    apply Safe.bind
    apply safe_get
    intro _ hread reply hreply _ hcurrent
    have hrests := (hrests.stable hread).stable hcurrent
    have hnow := hnow.trans (hread.time_le.trans hcurrent.time_le)
    match reply with
    | none =>
      refine acquisition_safe hlong hrests hnot hnow ?_
      -- the compare with revision zero holds only if there is no lease
      intro later _ hmet stamp hstamp
      obtain ⟨_, hfact, -⟩ := Option.map_eq_some_iff.mp hstamp
      simp [FactTable.evaluateTransactionPreconditions, FactTable.meets, hfact] at hmet
    | some leaseFact =>
      have hseen := (seen_of_facts (hreply leaseFact rfl)).stable hcurrent
      simp only
      split
      next hage =>
        refine acquisition_safe hlong hrests hnot hnow ?_
        intro later hlater hmet stamp hstamp
        have hfact := (hseen.stable hlater).facts_of_met hmet
        have hstamp : parseLeaseTimestamp leaseFact.value = stamp := by
          simpa [ElectionState.leaseStamp, hfact] using hstamp
        rw [hstamp, hrests.duration_eq] at hage
        have hage := Time.lt_of_lt_sub (by have := hlong node; unfold minInt64; omega) hage
        have htime := hlater.time_le
        omega
      next => exact safe_settled (hrests.follows hnot)

end

theorem release_safe (hrests : Rests cluster node election state) :
    ElectionSafe cluster node election.release (Rests cluster node) state := by
  have hgives : ∀ {current}, Rests cluster node election current →
      ElectionSafe cluster node (pure election.relinquishLeadership) (Rests cluster node)
        current := fun hcurrent => safe_pure fun _ _ => hcurrent.relinquish
  unfold LeaderElection.release
  split
  next => exact safe_pure fun _ hlater => hrests.stable hlater
  next =>
    apply Safe.bind
    apply safe_get
    intro _ hread reply hreply current hcurrent
    have hrests := (hrests.stable hread).stable hcurrent
    match reply with
    | none => exact hgives hrests
    | some holderFact =>
      have hseen := (seen_of_facts (hreply holderFact rfl)).stable hcurrent
      simp only
      split
      next => exact hgives hrests
      next hvalue =>
        have hvalue := (not_not.mp hvalue).trans hrests.nodeID_eq
        apply Safe.bind
        -- whatever the transaction did, the node gives up
        refine Safe.imp (?_ : ElectionSafe cluster node _
          (fun _ later => Rests cluster node election.relinquishLeadership later) current)
          (fun _ later hpost => safe_pure fun _ hlater => hpost.stable hlater)
        apply safe_transaction (by simp [memoryStoreTransactionOperationLimit])
        · exact fun _ _ _ _ _ => hrests.relinquish
        · exact fun _ _ _ _ => hrests.relinquish
        · intro later hlater hmet
          refine ⟨fun other hne hother => ?_, hrests.relinquish, hrests.relinquish⟩
          have hfact := (hseen.stable hlater).facts_of_met hmet
          refine hother.of_other_holder hne ?_ (Or.inr (applied_release hmet))
          simp [ElectionState.holder, hfact, hvalue]

/-! ## Agreement in whole runs -/

variable (cluster) in
/-- What a finished call leaves: a settled election, or a record at rest. -/
def Finished (node : Node) (returned : Returned) (state : ElectionState Node) : Prop :=
  Rests cluster node returned.election state ∧
    ∀ now, returned.readClock = some now → Settled cluster node now returned.election state

section

variable (hlong : ∀ other, 999999 ≤ cluster.leaseDuration other)
include hlong

theorem tryAcquireOrRenew_safe (hrests : Rests cluster node election state) :
    ElectionSafe cluster node (tryAcquireOrRenew election) (Finished cluster node) state := by
  apply Safe.bind
  apply safe_now
  intro _ hread _ hcurrent
  have hread' := hrests.stable hread
  apply Safe.bind
  refine (acquireOrRenewAt_safe hlong (hread'.stable hcurrent) hcurrent.time_le ?_).imp ?_
  · intro hleader
    rw [hcurrent.written_eq]
    exact (hread'.leads hleader).written_le
  · intro _ _ hsettled
    refine safe_pure fun last hlast => ?_
    have hlast := hsettled.stable hlast
    refine ⟨hlast.rests, fun now hnow => ?_⟩
    obtain rfl := Option.some.inj hnow
    exact hlast

theorem election_obligations :
    Obligations Cluster.machine (discipline cluster) (Rests cluster) (Finished cluster) where
  stable hrests hrely := hrests.stable hrely
  disturb := relies_disturb
  leave hfinished := hfinished.1
  enter entry hrests := by
    cases entry with
    | tryAcquireOrRenew => exact tryAcquireOrRenew_safe hlong hrests
    | release =>
      refine Safe.bind ((release_safe hrests).imp fun after later hafter => ?_)
      exact safe_pure fun last hlast => ⟨hafter.stable hlast, by simp⟩

end

theorem sound_start (cluster : Cluster Node) (table : ValidTable) (time : Time) :
    Sound Cluster.machine (discipline cluster) (Rests cluster) (Finished cluster)
      (cluster.start table time) :=
  fun _ => ⟨rfl, rfl, fun hleader => by simp [LeaderElection.new] at hleader⟩

/-- A leader's call that began at `now` finds no other holder since `now` or earlier. -/
def Agreement (cluster : Cluster Node) (world : Cluster.ElectionWorld Node) : Prop :=
  ∀ node election now, world.threads node = .running (.ret ⟨election, some now⟩) →
    election.isLeader = true → ∀ name, world.shared.holder = some name →
      name ≠ cluster.nodeID node → ¬ world.shared.holderSince.nanos ≤ now.nanos

/-- Agreement holds in every run whose lease durations are at least a millisecond and in
which leadership is kept only within every lease duration of the last write. -/
theorem election_agreement (cluster : Cluster Node) (table : ValidTable) (time : Time)
    (actions : List (Cluster.ElectionAction Node))
    (hlong : ∀ node, 999999 ≤ cluster.leaseDuration node)
    (hretains : Cluster.machine.AllowsAll (RetainsWithinLease cluster)
      (cluster.start table time) actions) :
    Agreement cluster (Cluster.machine.run (cluster.start table time) actions) := by
  have hsound := (sound_start cluster table time).run (election_obligations hlong) hretains
  intro node _ now hreturns hleader _ hname hother _
  have hnode := hsound node
  rw [hreturns] at hnode
  obtain ⟨-, hsettled⟩ := hnode _ (Relies.refl node _)
  have hlost : (Cluster.machine.run (cluster.start table time) actions).shared.holder ≠
      some (cluster.nodeID node) := by
    rw [hname]
    simpa using hother
  obtain ⟨rival, -, hbefore⟩ := ((hsettled now rfl).rests.leads hleader).lost hlost
  have hbefore := hbefore (by rw [hname]; rfl)
  have hwithin := (hsettled now rfl).within hleader rival
  omega

end Agreement

/-- Two nodes with the default lease duration. -/
def twoNodes : Cluster Bool where
  nodeID := fun node => if node then lit "b" else lit "a"
  distinct := by decide
  configured := fun _ => 0

/-- A time given in milliseconds. -/
def atMilli (millis : Int) : Time := parseLeaseTimestamp (itoa millis)

/-- A call of `tryAcquireOrRenew` and the first of its steps. -/
def attempt (node : Bool) (faults : List StoreFault) : List (Cluster.ElectionAction Bool) :=
  .enter node .tryAcquireOrRenew :: faults.map (Action.run node)

/-- The nodes on an empty store, before anything happened. -/
def twoNodesStart : Cluster.ElectionWorld Bool :=
  twoNodes.start ⟨FactTable.new, valid_new⟩ (atMilli 0)

/-- The first node acquires the lease, and cannot read the holder a little later. -/
def briefOutage : List (Cluster.ElectionAction Bool) :=
  attempt false [.none, .none, .none, .none, .none] ++
    [.disturb (.tick (atMilli 10))] ++ attempt false [.none, .requestLost, .none]

/-- It keeps its leadership in time. -/
theorem briefOutage_agreement :
    Agreement twoNodes (Cluster.machine.run twoNodesStart briefOutage) := by
  refine election_agreement twoNodes ⟨FactTable.new, valid_new⟩ (atMilli 0) briefOutage
    (by decide) ?_
  -- the acquisition, with its return, and then the call that fails
  refine ⟨trivial, allows_run rfl trivial _, allows_run rfl trivial _, allows_run rfl trivial _,
    allows_run rfl trivial _, allows_return rfl _, trivial, ?_⟩
  refine ⟨trivial, allows_run rfl trivial _, allows_run rfl trivial _, allows_run rfl ?_ _, trivial⟩
  intro _
  decide

/-- The first node's acquisition returns late, the second takes the lease over, and the
first fails to read the holder. -/
def lateRetention : List (Cluster.ElectionAction Bool) :=
  attempt false [.none, .none, .none] ++
    [.disturb (.tick (atMilli 5)), .run false .none, .run false .none,
      .disturb (.tick (atMilli 15001))] ++
    attempt true [.none, .none, .none, .none, .none] ++
    [.disturb (.tick (atMilli 15003))] ++ attempt false [.none, .requestLost, .none]

/-- The first node returns as leader while the second has held the lease for long. -/
theorem lateRetention_overlap :
    ¬ Agreement twoNodes (Cluster.machine.run twoNodesStart lateRetention) := by
  intro hagreement
  exact hagreement false ⟨lit "a", defaultLeaderLeaseDuration, true, atMilli 5⟩ (atMilli 15003)
    rfl rfl (lit "b") (by decide) (by decide) (by decide)

end CCattler.Controllers
