import CCattler.Scheduler.Reconcile

/-! # Preemption

A victim is chosen by its own service's rules. The rules of the requester are not
looked at, so its node may be one that the requester cannot use.
-/

namespace CCattler.Scheduler

open Go Store CCattler.Types List

section

variable (view : ClusterView)

/-- The node keeps the service's rules on hardware, zones, labels and volumes. -/
def meetsHardConstraints (serviceName : Str) (node : NodeInfo) : Bool :=
  let constraint := view.placementConstraints.get serviceName .zero
  satisfiesConstraint constraint ⟨node.id, node.availCPU, node.availMemory, node.architecture,
      node.zone, node.labels, node.restrictions⟩ &&
    (decide (constraint.volumeHomeNodes.len = 0) ||
      isHomeOfAllVolumes node.id constraint.volumeHomeNodes)

def serviceOf (instanceID : Str) : Str := (view.instances.get instanceID .zero).service

/-- The instance may be stopped for the requester. -/
structure IsVictimFor (requester victimID : Str) : Prop where
  priority : view.priorityOf victimID < view.priorityOf requester
  stateless : view.statefulServices.get (serviceOf view victimID) false = false
  notPerNode : (view.placementConstraints.get (serviceOf view victimID) .zero).mode ≠ lit "per-node"
  running : (view.instances.get victimID .zero).state = instanceRunning
  onNode : ∃ node, view.nodes.lookup (view.placements.get victimID []) = some node ∧
    node.state = nodeAlive ∧ meetsHardConstraints view (serviceOf view requester) node = true

variable (unplaced : List Str) (placedInThisCycle : Map Bool)

def stillUnplaced : List Str :=
  unplaced.filter (fun instanceID => !(placedInThisCycle.get instanceID false))

/-- Every victim is one for some requester, and none is chosen twice. -/
structure PreemptionSound (victims : List Str) : Prop where
  victim : ∀ victimID ∈ victims, ∃ requester ∈ stillUnplaced unplaced placedInThisCycle,
    IsVictimFor view requester victimID
  nodup : victims.Nodup
  count : victims.length ≤ 3

/-- The instance runs on an alive node and belongs to a service that may be preempted. -/
def isReplaceable (instanceID : Str) : Bool :=
  match view.instances.lookup instanceID, view.nodes.lookup (view.placements.get instanceID []) with
  | some info, some node =>
    decide (info.state = instanceRunning ∧ node.state = nodeAlive ∧
      (view.placementConstraints.get info.service .zero).mode ≠ lit "per-node" ∧
      view.statefulServices.get info.service false = false)
  | _, _ => false

/-- Lower priorities come first, and then lower IDs. -/
def lowerPriority (first second : Str) : Bool :=
  if view.priorityOf first ≠ view.priorityOf second then
    decide (view.priorityOf first < view.priorityOf second)
  else decide (first < second)

/-- Whatever may be preempted, in the order in which it is. -/
def replaceable : List Str :=
  sliceStable (lowerPriority view) (view.placements.keys.filter (isReplaceable view))

/-- The unplaced instances of a priority, in the order in which they ask. -/
def requesters : List Str :=
  (sliceStable (fun first second =>
    if view.priorityOf first ≠ view.priorityOf second then
      decide (view.priorityOf first > view.priorityOf second)
    else decide (first < second)) (stillUnplaced unplaced placedInThisCycle)).filter
      (fun instanceID => view.priorityOf instanceID ≠ 0)

/-- The first three requesters, each with the replaceable instance of its rank. -/
def ranked : List (Str × Str) :=
  ((requesters view unplaced placedInThisCycle).zip (replaceable view)).take maxPreemptionsPerCycle

/-- An instance that a requester outranks runs on a node that some unplaced instance of
higher priority can use. -/
def VictimsOnUsableNodes : Prop :=
  ∀ pair ∈ ranked view unplaced placedInThisCycle,
    view.priorityOf pair.2 < view.priorityOf pair.1 →
    ∃ requester ∈ stillUnplaced unplaced placedInThisCycle,
      view.priorityOf pair.2 < view.priorityOf requester ∧
      ∀ node, view.nodes.lookup (view.placements.get pair.2 []) = some node →
        meetsHardConstraints view (serviceOf view requester) node = true

end

variable {view : ClusterView} {requester victimID service : Str} {priority : Int}
  {preempted : List Str}

/-- A victim is replaceable, untaken and of lower priority. -/
theorem isPreemptable_iff : isPreemptable view (serviceOf view requester)
      (view.priorityOf requester) preempted victimID = true ↔
    isReplaceable view victimID = true ∧ victimID ∉ preempted ∧
      view.priorityOf victimID < view.priorityOf requester := by
  unfold isPreemptable isReplaceable
  cases hinfo : view.instances.lookup victimID with
  | none => simp
  | some info =>
    have hget : view.instances.get victimID .zero = info := by rw [Map.get, hinfo]; rfl
    have hpriority : view.priorityOf victimID = view.servicePriorities.get info.service 0 := by
      rw [ClusterView.priorityOf, hget]
    -- a service does not outrank itself
    have hservice : view.priorityOf victimID < view.priorityOf requester →
        info.service ≠ serviceOf view requester := by
      rintro hlower hsame
      rw [hpriority, hsame] at hlower
      exact lt_irrefl _ hlower
    rw [hpriority] at hservice ⊢
    cases view.nodes.lookup (view.placements.get victimID []) with
    | none => simp
    | some node =>
      simp only [decide_eq_true_eq]
      tauto

/-! ## The order of preemption -/

theorem sorted_lowerPriority (items : List Str) : (sliceStable (lowerPriority view) items).Pairwise
    (ThenBy view.priorityOf (· ≤ ·)) := sliceStable_byKey view.priorityOf items

/-- The instances that are still replaceable, in order. -/
abbrev remaining (view : ClusterView) (preempted : List Str) : List Str :=
  (replaceable view).filter fun instanceID => instanceID ∉ preempted

/-- The victim is the first remaining of lower priority. -/
theorem findPreemptionVictim_eq : findPreemptionVictim view (serviceOf view requester)
      (view.priorityOf requester) preempted =
    ((remaining view preempted).filter fun instanceID =>
      view.priorityOf instanceID < view.priorityOf requester).head? := by
  rw [filter_filter]
  refine congrArg head? (Perm.eq_of_pairwise ?_ (sorted_lowerPriority _)
    ((sorted_lowerPriority _).filter _) ?_)
  · rintro first second - - (hlt | ⟨heq, hle⟩) (hgt | ⟨heq', hge⟩)
    any_goals omega
    · exact List.le_antisymm hle hge
  · refine (sliceStable_perm _ _).trans (Perm.trans ?_ ((sliceStable_perm _ _).filter _).symm)
    rw [filter_filter]
    refine .of_eq (filter_congr fun instanceID _ => Bool.eq_iff_iff.mpr ?_)
    refine isPreemptable_iff.trans ?_
    simp only [Bool.and_eq_true, decide_eq_true_eq]
    tauto

theorem replaceable_nodup : (replaceable view).Nodup :=
  (sliceStable_perm _ _).nodup_iff.mpr (view.placements.nodupKeys.filter _)

/-- Only the first of the remaining instances can be chosen. -/
theorem remaining_of_found (h : findPreemptionVictim view (serviceOf view requester)
      (view.priorityOf requester) preempted = some victimID) :
    remaining view preempted = victimID :: remaining view (victimID :: preempted) ∧
      view.priorityOf victimID < view.priorityOf requester := by
  rw [findPreemptionVictim_eq, head?_filter] at h
  have hlower : view.priorityOf victimID < view.priorityOf requester := by
    simpa using find?_some h
  refine ⟨?_, hlower⟩
  have hrest : remaining view (victimID :: preempted) =
      (remaining view preempted).filter fun instanceID => instanceID ≠ victimID := by
    rw [filter_filter]
    exact filter_congr fun instanceID _ => by simp
  have hnodup : (remaining view preempted).Nodup := replaceable_nodup.filter _
  have hsorted : (remaining view preempted).Pairwise (ThenBy view.priorityOf (· ≤ ·)) :=
    (sorted_lowerPriority _).filter _
  rw [hrest]
  generalize remaining view preempted = left at h hnodup hsorted
  cases left with
  | nil => cases h
  | cons first rest =>
    rw [find?_cons] at h
    split at h
    next =>
      obtain rfl := Option.some.inj h
      rw [filter_cons_of_neg (by simp), filter_eq_self.mpr]
      rintro other hother
      exact decide_eq_true fun heq => (nodup_cons.mp hnodup).1 (heq ▸ hother)
    next hfirst =>
      have hle := (pairwise_cons.mp hsorted).1 victimID (mem_of_find?_eq_some h)
      simp at hfirst
      rcases hle with hlt | ⟨heq, -⟩ <;> omega

/-- The requesters get the replaceable instances by rank, as far as they outrank them. -/
theorem preemptFor_eq (room : Nat) (preempted requesters : List Str)
    (hsorted : requesters.Pairwise fun first second =>
      view.priorityOf second ≤ view.priorityOf first) :
    preemptFor view room preempted requesters =
      ((((requesters.filter fun instanceID => view.priorityOf instanceID ≠ 0).zip
        (remaining view preempted)).take room).filter
          fun pair => view.priorityOf pair.2 < view.priorityOf pair.1).map Prod.snd := by
  fun_induction preemptFor view room preempted requesters with
  | case1 | case2 => simp
  | case3 room preempted requester rest _ hzero ih =>
    rw [ih hsorted.of_cons, filter_cons_of_neg (by simpa using hzero)]
  | case4 room preempted requester rest _ hne hnone ih =>
    -- the later requesters do not outrank what this one does not
    have hlow := head?_eq_none_iff.mp (findPreemptionVictim_eq.symm.trans hnone)
    rw [filter_eq_nil_iff] at hlow
    have hnil : ∀ asking : List Str, (∀ other ∈ asking, other ∈ requester :: rest) → ∀ room,
        ((asking.zip (remaining view preempted)).take room).filter
          (fun pair => view.priorityOf pair.2 < view.priorityOf pair.1) = [] := by
      intro asking hasking room
      refine filter_eq_nil_iff.mpr fun pair hpair => ?_
      obtain ⟨hasks, hleft⟩ := of_mem_zip (mem_of_mem_take hpair)
      have hrank := hlow pair.2 hleft
      have hle : view.priorityOf pair.1 ≤ view.priorityOf requester := by
        rcases mem_cons.mp (hasking pair.1 hasks) with heq | hlater
        · rw [heq]
        · exact (pairwise_cons.mp hsorted).1 pair.1 hlater
      simp only [decide_eq_true_eq] at hrank ⊢
      omega
    rw [ih hsorted.of_cons, hnil _ fun other hother =>
        mem_cons_of_mem requester (mem_of_mem_filter hother),
      hnil _ fun other hother => mem_of_mem_filter hother]
  | case5 room preempted requester rest _ hne victimID hfound ih =>
    obtain ⟨hleft, hlower⟩ := remaining_of_found hfound
    rw [ih hsorted.of_cons, hleft, filter_cons_of_pos (by simpa using hne), zip_cons_cons,
      take_succ_cons, filter_cons_of_pos (by simpa using hlower), map_cons]

/-- Only the node is left to check when an instance is replaceable. -/
theorem isVictimFor_of_isReplaceable (h : isReplaceable view victimID = true)
    (hlower : view.priorityOf victimID < view.priorityOf requester)
    (hnode : ∀ node, view.nodes.lookup (view.placements.get victimID []) = some node →
      meetsHardConstraints view (serviceOf view requester) node = true) :
    IsVictimFor view requester victimID := by
  unfold isReplaceable at h
  split at h
  next info node hinfo hlookup =>
    obtain ⟨hrunning, halive, hmode, hstateless⟩ := of_decide_eq_true h
    have hget : view.instances.get victimID .zero = info := by rw [Map.get, hinfo]; rfl
    have hservice : serviceOf view victimID = info.service := by rw [serviceOf, hget]
    exact ⟨hlower, hservice ▸ hstateless, hservice ▸ hmode, hget ▸ hrunning, node, hlookup, halive,
      hnode node hlookup⟩
  next => cases h

/-- Requesters and victims are paired by rank. -/
theorem attemptPreemptions_eq (unplaced : List Str) (placedInThisCycle : Map Bool) :
    attemptPreemptions view unplaced placedInThisCycle =
      ((ranked view unplaced placedInThisCycle).filter
        fun pair => view.priorityOf pair.2 < view.priorityOf pair.1).map Prod.snd := by
  have hsorted := sliceStable_byKey
    (fun instanceID => OrderDual.toDual (view.priorityOf instanceID))
    (stillUnplaced unplaced placedInThisCycle)
  have hall : remaining view [] = replaceable view := filter_eq_self.mpr fun _ _ => by simp
  refine (preemptFor_eq _ _ _ (hsorted.imp fun hle => ?_)).trans (by rw [hall]; rfl)
  rcases hle with hlt | ⟨heq, -⟩
  · exact Int.le_of_lt hlt
  · exact (congrArg OrderDual.ofDual heq).ge

variable {unplaced : List Str} {placedInThisCycle : Map Bool}

theorem mem_attemptPreemptions : victimID ∈ attemptPreemptions view unplaced placedInThisCycle ↔
      ∃ requester, (requester, victimID) ∈ ranked view unplaced placedInThisCycle ∧
        view.priorityOf victimID < view.priorityOf requester := by
  simp [attemptPreemptions_eq]

theorem isReplaceable_of_mem_ranked
    (h : (requester, victimID) ∈ ranked view unplaced placedInThisCycle) :
    isReplaceable view victimID = true :=
  (mem_filter.mp ((sliceStable_perm _ _).mem_iff.mp (of_mem_zip (mem_of_mem_take h)).2)).2

theorem running_of_mem_attemptPreemptions
    (h : victimID ∈ attemptPreemptions view unplaced placedInThisCycle) :
    (view.instances.get victimID .zero).state = instanceRunning := by
  obtain ⟨_, hpair, -⟩ := mem_attemptPreemptions.mp h
  have hreplaceable := isReplaceable_of_mem_ranked hpair
  unfold isReplaceable at hreplaceable
  split at hreplaceable
  next _ _ hinfo _ =>
    rw [Map.get, hinfo]
    exact (of_decide_eq_true hreplaceable).1
  next => cases hreplaceable

/-- All but the nodes is right; these are exactly if the nodes of the victims by rank are
usable. -/
theorem preemption_sound_iff (view : ClusterView) (unplaced : List Str)
    (placedInThisCycle : Map Bool) : PreemptionSound view unplaced placedInThisCycle
      (attemptPreemptions view unplaced placedInThisCycle) ↔
    VictimsOnUsableNodes view unplaced placedInThisCycle := by
  constructor
  · intro hsound pair hpair hlower
    obtain ⟨requester, hrequester, hvictim⟩ :=
      hsound.victim pair.2 (mem_attemptPreemptions.mpr ⟨pair.1, hpair, hlower⟩)
    obtain ⟨node, hlookup, -, hmeets⟩ := hvictim.onNode
    refine ⟨requester, hrequester, hvictim.priority, fun other hother => ?_⟩
    rwa [Option.some.inj (hother.symm.trans hlookup)]
  · intro husable
    refine ⟨fun victimID hmem => ?_, ?_, ?_⟩
    · obtain ⟨_, hpair, hlower⟩ := mem_attemptPreemptions.mp hmem
      obtain ⟨requester, hrequester, hhigher, hmeets⟩ := husable _ hpair hlower
      exact ⟨requester, hrequester,
        isVictimFor_of_isReplaceable (isReplaceable_of_mem_ranked hpair) hhigher hmeets⟩
    · have hsnd : ((requesters view unplaced placedInThisCycle).zip (replaceable view)).map Prod.snd
          <+ replaceable view := by
        rw [zip_eq_zip_take_min, map_snd_zip (by simp)]
        exact take_sublist _ _
      rw [attemptPreemptions_eq]
      exact replaceable_nodup.sublist (((filter_sublist.trans (take_sublist _ _)).map _).trans hsnd)
    · rw [attemptPreemptions_eq, length_map]
      exact (length_filter_le _ _).trans (length_take_le _ _)

/-- `web-0` needs a node with an `ssd`, and `db-0` runs on a node with an `hdd`. -/
def diskView : ClusterView := clusterView
  ([(lit "desired/service/web/placement/require/disk", lit "ssd"),
    (lit "desired/service/web/priority", lit "5"),
    (lit "desired/service/web/resources/cpu", lit "2"),
    (lit "observed/instance/db-0/service", lit "db"),
    (lit "observed/instance/db-0/state", instanceRunning),
    (lit "observed/instance/web-0/service", lit "web"),
    (lit "observed/instance/web-0/state", instancePending),
    (lit "observed/node/n/available/cpu", lit "1"),
    (lit "observed/node/n/label/disk", lit "hdd"),
    (lit "observed/node/n/state", nodeAlive),
    (lit "placement/instance/db-0", lit "n")].map fun entry => ⟨entry.1, entry.2, 1, 1, 0⟩)

/-- `db-0` is stopped for `web-0`, which cannot run on its node. -/
theorem victim_on_unusable_node :
    attemptPreemptions diskView [lit "web-0"] ∅ = [lit "db-0"] ∧
      ¬ PreemptionSound diskView [lit "web-0"] ∅
        (attemptPreemptions diskView [lit "web-0"] ∅) := by
  have hvictims : attemptPreemptions diskView [lit "web-0"] ∅ = [lit "db-0"] := by
    decide +kernel
  refine ⟨hvictims, fun hsound => ?_⟩
  obtain ⟨requester, hrequester, hvictim⟩ := hsound.victim _ (hvictims ▸ mem_singleton_self _)
  obtain rfl : requester = lit "web-0" := mem_singleton.mp (mem_of_mem_filter hrequester)
  obtain ⟨node, hlookup, -, hmeets⟩ := hvictim.onNode
  have hnodes : ∀ node, diskView.nodes.lookup
      (diskView.placements.get (lit "db-0") []) = some node → meetsHardConstraints
        diskView (serviceOf diskView (lit "web-0")) node = false := by
    decide +kernel
  rw [hnodes node hlookup] at hmeets
  cases hmeets

end CCattler.Scheduler
