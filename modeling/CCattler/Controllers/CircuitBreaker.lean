import CCattler.Controllers.SelfConflict

/-! # The circuit breaker

After the cooldown the breaker of a service delays none of its failed instances, so
it is half-open for all of them. Which of them a cycle replaces is a matter of its limits.
-/

namespace CCattler.Controllers

open Go Store CCattler.Types List

namespace FailureController

/-- What one cycle works on. -/
structure Round (Source : Type) where
  settings : FailureSettings
  environment : FailureEnvironment Source
  facts : List Fact

/-- The changes stop an instance in order to replace it. -/
def Replaces (changes : List Change) (instanceID : Str) : Prop :=
  { Change.put (keyDerivedInstanceControllerStopped instanceID) (lit "true") with
    group := lit "replace/" ++ instanceID } ∈ changes

/-- What the loop has in store for an instance. -/
inductive Need where
  | nothing
  | drain
  | recovery
  | replacement
  deriving DecidableEq, Repr

namespace Round

variable {Source : Type} (round : Round Source)

def counters : Map CrashLoopCounter :=
  parseCrashLoopCounters round.environment.codec round.facts

def instances : Map InstanceFields := parseInstanceFieldsFromFacts round.facts

section

variable (instanceID : Str)

def fields : InstanceFields := round.instances.get instanceID ∅

/-- What an instance with failing liveness probes needs. -/
def livenessNeed (drainSince : Str) : Need :=
  if drainSince = [] then .drain
  else
    match atoi? drainSince with
    | none => .replacement
    | some drainStartMillis =>
      if round.environment.now.subMilli drainStartMillis ≥ round.settings.drainGracePeriod then
        .replacement
      else .nothing

/-- What an instance needs by its facts, whatever else happens in the cycle. -/
def need : Need :=
  let fields := round.fields instanceID
  let drainSince := fields.field "drain_since"
  if fields.field "job_owner" ≠ [] ∨ fields.field "service" = [] then .nothing
  else if effectiveInstanceState fields = instanceFailed then
    if replacementDelayed round.settings round.environment round.counters
        (fields.field "service") then .nothing
    else .replacement
  else if effectiveInstanceState fields ≠ instanceRunning then .nothing
  else if fields.field "probe/startup" = startupProbeFailed then .replacement
  else if drainSince ≠ [] ∧ fields.field "probe/liveness" ≠ livenessProbeUnhealthy then .recovery
  else if fields.field "probe/liveness" = livenessProbeUnhealthy then
    round.livenessNeed drainSince
  else .nothing

/-- How many instances before one, in the order of the IDs, need something. -/
def before (kind : Need) : Nat :=
  round.instances.keys.countP (fun other => other < instanceID ∧ round.need other = kind)

/-- An instance of no job comes before the limits of a cycle are met: that of the
replacements, and that of the changes. -/
def WithinLimits : Prop :=
  (round.fields instanceID).field "job_owner" = [] ∧
    round.before instanceID .replacement < round.settings.maxReplacementsPerCycle ∧
    4 * round.before instanceID .replacement +
      2 * min round.settings.maxDrainsPerCycle.toNat (round.before instanceID .drain) +
      2 * min round.settings.maxRecoveriesPerCycle.toNat (round.before instanceID .recovery) + 4 ≤
        maxFailureControllerChangesPerCycle

end

section

variable (service : Str)

/-- The breaker is open and its cooldown is over. -/
def HalfOpen : Prop :=
  ∃ counter, round.counters.lookup service = some counter ∧
    round.settings.circuitBreakerThreshold ≤ counter.count ∧
    round.environment.now.beforeMilli counter.since round.settings.circuitBreakerCooldown = false

def FailedInstance (instanceID : Str) : Prop :=
  service ≠ [] ∧ (round.fields instanceID).field "service" = service ∧
    effectiveInstanceState (round.fields instanceID) = instanceFailed

/-- At most one failed instance of the service has a property. -/
def OneFailed (property : Str → Prop) : Prop :=
  ∀ first second, round.FailedInstance service first → round.FailedInstance service second →
    property first → property second → first = second

/-- At most one failed instance of the service is replaced. -/
def SingleProbe (source : Source) : Prop :=
  ∀ changes, (reconcile round.settings round.environment source round.facts).1 = .ok changes →
    round.OneFailed service (Replaces changes)

end

end Round

/-! ## One instance -/

/-- The text before the instance in the group of its changes. -/
def Need.text : Need → Str
  | .nothing => []
  | .drain => lit "drain/"
  | .recovery => lit "drain-clear/"
  | .replacement => lit "replace/"

/-- The number of changes. -/
def Need.size : Need → Nat
  | .nothing => 0
  | .drain | .recovery => 2
  | .replacement => 4

theorem text_ne_nil {kind : Need} (h : kind ≠ .nothing) : kind.text ≠ [] := by
  cases kind <;> first | contradiction | decide

theorem text_inj {instanceID other : Str} {kind first : Need} (hkind : kind ≠ .nothing)
    (hfirst : first ≠ .nothing) (h : kind.text ++ instanceID = first.text ++ other) :
    instanceID = other := by
  by_cases hsame : kind = first
  · subst hsame
    exact append_cancel_left h
  · have hapart : Apart kind.text first.text := by
      cases kind <;> cases first <;> first | contradiction | decide
    exact absurd (prefix_append _ _) (hapart.not_isPrefix (h ▸ prefix_append _ instanceID))

variable {Source : Type}

/-- How often a need may be met in a cycle. -/
def limit (settings : FailureSettings) : Need → Int
  | .nothing => 0
  | .drain => settings.maxDrainsPerCycle
  | .recovery => settings.maxRecoveriesPerCycle
  | .replacement => settings.maxReplacementsPerCycle

/-- How often a need has been met in the cycle. -/
def met (cycle : FailureCycle Source) : Need → Int
  | .nothing => 0
  | .drain => cycle.drains
  | .recovery => cycle.recoveries
  | .replacement => cycle.replacements

namespace Round

variable (round : Round Source) (instanceID : Str) (cycle : FailureCycle Source)

/-- A need is met as long as the limit allows it, by one group of changes. -/
def Meets (kind : Need) (after : List Change × FailureCycle Source) : Prop :=
  limit round.settings kind ≤ met cycle kind ∧ after = ([], cycle) ∨
    met cycle kind < limit round.settings kind ∧ after.1.length = kind.size ∧
      (∀ change ∈ after.1, change.group = kind.text ++ instanceID) ∧
      (kind = .replacement → Replaces after.1 instanceID) ∧
      ∀ other, met after.2 other = met cycle other + if other = kind then 1 else 0

variable {round instanceID cycle}

theorem nothing_meets : round.Meets instanceID cycle .nothing ([], cycle) :=
  Or.inl ⟨le_rfl, rfl⟩

/-- Grouped changes meet a need while its limit has room. -/
theorem grouped_meets {kind : Need} {changes : List Change} {after : FailureCycle Source}
    (hroom : met cycle kind < limit round.settings kind) (hsize : changes.length = kind.size)
    (hstop : kind = .replacement →
      .put (keyDerivedInstanceControllerStopped instanceID) (lit "true") ∈ changes)
    (hafter : ∀ other, met after other = met cycle other + if other = kind then 1 else 0) :
    round.Meets instanceID cycle kind
      (groupedChanges (kind.text ++ instanceID) changes, after) := by
  refine Or.inr ⟨hroom, by simpa [groupedChanges], by simp [groupedChanges], ?_, hafter⟩
  rintro rfl
  exact mem_map.mpr ⟨_, hstop rfl, rfl⟩

theorem stopAndReplace_meets (countsAsCrash : Bool) (serviceName : Str) :
    round.Meets instanceID cycle .replacement
      (stopAndReplace round.settings round.environment countsAsCrash instanceID serviceName
        cycle) := by
  unfold stopAndReplace
  split
  next hspent => exact Or.inl ⟨hspent, rfl⟩
  next hroom =>
    refine grouped_meets (not_le.mp hroom) rfl (fun _ => mem_cons_self) fun other => ?_
    cases other <;> simp [met]

theorem handleUnhealthyLiveness_meets (serviceName drainSince : Str) :
    round.Meets instanceID cycle (round.livenessNeed drainSince)
      (handleUnhealthyLiveness round.settings round.environment instanceID serviceName drainSince
        cycle) := by
  unfold handleUnhealthyLiveness livenessNeed
  split
  next =>
    split
    next hspent => exact Or.inl ⟨hspent, rfl⟩
    next hroom =>
      exact grouped_meets (not_le.mp hroom) rfl (by simp) fun other => by cases other <;> simp [met]
  next =>
    cases atoi? drainSince with
    | none => exact stopAndReplace_meets _ _
    | some drainStartMillis =>
      dsimp only
      split
      · exact stopAndReplace_meets _ _
      · exact nothing_meets

/-- One turn of the loop. -/
def turn (round : Round Source) (instanceID : Str) (cycle : FailureCycle Source) :
    List Change × FailureCycle Source :=
  if (round.fields instanceID).field "job_owner" ≠ [] then ([], cycle)
  else processInstanceForRecovery round.settings round.environment round.counters instanceID
    (round.fields instanceID) cycle

theorem turn_meets :
    round.Meets instanceID cycle (round.need instanceID) (round.turn instanceID cycle) := by
  unfold turn need
  by_cases hjob : (round.fields instanceID).field "job_owner" = []
  swap
  · simpa [hjob] using nothing_meets
  simp only [hjob, processInstanceForRecovery, ne_eq, not_true_eq_false, false_or, if_false]
  split_ifs with hservice hfailed hdelayed hrunning hstartup hrecovered hspent
  any_goals first
    | exact nothing_meets
    | exact stopAndReplace_meets _ _
    | exact handleUnhealthyLiveness_meets _ _
  · exact Or.inl ⟨hspent, rfl⟩
  · exact grouped_meets (not_le.mp hspent) rfl (by simp) fun other => by cases other <;> simp [met]

theorem replaces_turn_iff : Replaces (round.turn instanceID cycle).1 instanceID ↔
    round.need instanceID = .replacement ∧
      met cycle .replacement < limit round.settings .replacement := by
  rcases @turn_meets Source round instanceID cycle with
    ⟨hspent, hnone⟩ | ⟨hroom, -, hgroup, hstop, -⟩
  · rw [hnone]
    exact iff_of_false not_mem_nil fun h => absurd (h.1 ▸ hspent) (not_le.mpr h.2)
  · refine ⟨fun h => ?_, fun h => hstop h.1⟩
    have htext : lit "replace/" = (round.need instanceID).text := append_cancel_right (hgroup _ h)
    cases hneed : round.need instanceID with
    | replacement =>
      rw [hneed] at hroom
      exact ⟨rfl, hroom⟩
    | nothing | drain | recovery => exact absurd (hneed ▸ htext) (by decide)

/-! ## The whole loop -/

/-- The loop of the controller. -/
def loop (round : Round Source) (instanceIDs : List Str) (cycle : FailureCycle Source) :
    List Change × FailureCycle Source :=
  processInstances round.settings round.environment round.counters round.instances instanceIDs
    cycle

/-- The changes of the loop, one block for each need that is met. -/
def blocks (round : Round Source) : List Str → FailureCycle Source → List (List Change)
  | [], _ => []
  | instanceID :: rest, cycle =>
    let after := round.turn instanceID cycle
    if after.1 = [] then round.blocks rest after.2 else after.1 :: round.blocks rest after.2

variable {front rest instanceIDs : List Str}

theorem loop_cons : round.loop (instanceID :: rest) cycle =
    let first := round.turn instanceID cycle
    (first.1 ++ (round.loop rest first.2).1, (round.loop rest first.2).2) := by
  by_cases hjob : (round.instances.get instanceID ∅).field "job_owner" = [] <;>
    simp [loop, turn, processInstances, fields, hjob]

theorem loop_append : round.loop (front ++ rest) cycle =
    let first := round.loop front cycle
    (first.1 ++ (round.loop rest first.2).1, (round.loop rest first.2).2) := by
  induction front generalizing cycle with
  | nil => rfl
  | cons instanceID front ih => simp [loop_cons, ih]

theorem flatten_blocks : (round.blocks instanceIDs cycle).flatten =
    (round.loop instanceIDs cycle).1 := by
  induction instanceIDs generalizing cycle with
  | nil => rfl
  | cons instanceID rest ih =>
    simp only [blocks, loop_cons, ← ih]
    split_ifs with hnone <;> simp [hnone]

theorem blocks_append : round.blocks (front ++ rest) cycle =
    round.blocks front cycle ++ round.blocks rest (round.loop front cycle).2 := by
  induction front generalizing cycle with
  | nil => rfl
  | cons instanceID front ih =>
    simp only [cons_append, blocks, loop_cons, ih]
    split_ifs <;> simp

/-- A block is of one group, which names the instance. -/
theorem of_mem_blocks {block : List Change} (h : block ∈ round.blocks instanceIDs cycle) :
    ∃ instanceID ∈ instanceIDs, ∃ kind : Need, kind ≠ .nothing ∧ block.length = kind.size ∧
      ∀ change ∈ block, change.group = kind.text ++ instanceID := by
  induction instanceIDs generalizing cycle with
  | nil => cases h
  | cons instanceID rest ih =>
    simp only [blocks] at h
    rcases @turn_meets Source round instanceID cycle with
      ⟨-, hnone⟩ | ⟨hroom, hsize, hgroup, -⟩
    · rw [hnone, if_pos rfl] at h
      exact (ih h).imp fun _ => And.imp_left (mem_cons_of_mem _)
    · split_ifs at h
      · exact (ih h).imp fun _ => And.imp_left (mem_cons_of_mem _)
      · rcases mem_cons.mp h with rfl | hmem
        · refine ⟨instanceID, mem_cons_self, round.need instanceID, fun hneed => ?_, hsize, hgroup⟩
          exact lt_irrefl (0 : Int) (hneed ▸ hroom :)
        · exact (ih hmem).imp fun _ => And.imp_left (mem_cons_of_mem _)

/-- The blocks are the groups of the changes. -/
theorem changeGroups_loop (hnodup : instanceIDs.Nodup) {others : List Change}
    (hothers : ∀ change ∈ others, change.group = []) :
    changeGroups ((round.loop instanceIDs cycle).1 ++ others) =
      round.blocks instanceIDs cycle ++ changeGroups others := by
  rw [← flatten_blocks]
  induction instanceIDs generalizing cycle with
  | nil => rfl
  | cons instanceID rest ih =>
    obtain ⟨hout, hrest⟩ := nodup_cons.mp hnodup
    have hfirst := @of_mem_blocks Source round cycle [instanceID]
    simp only [blocks] at hfirst ⊢
    split_ifs with hnone
    · exact ih hrest
    rw [if_neg hnone] at hfirst
    obtain ⟨_, hid, kind, hkind, -, hsame⟩ := hfirst mem_cons_self
    obtain rfl := mem_singleton.mp hid
    rw [flatten_cons, append_assoc, cons_append, ← ih hrest]
    refine changeGroups_block (by simp [text_ne_nil hkind]) hnone hsame fun change hchange => ?_
    rcases mem_append.mp hchange with hlater | hmem
    · obtain ⟨block, hblock, hmem⟩ := mem_flatten.mp hlater
      obtain ⟨other, hother, first, hfirst, -, hgroup⟩ := of_mem_blocks hblock
      rw [hgroup change hmem]
      exact fun heq => hout (text_inj hfirst hkind heq ▸ hother)
    · simp [hothers change hmem, text_ne_nil hkind]

theorem mem_of_replaces_loop (h : Replaces (round.loop instanceIDs cycle).1 instanceID) :
    instanceID ∈ instanceIDs := by
  rw [Replaces, ← flatten_blocks] at h
  obtain ⟨block, hblock, hmem⟩ := mem_flatten.mp h
  obtain ⟨other, hother, kind, hkind, -, hgroup⟩ := of_mem_blocks hblock
  have hsame : Need.replacement.text ++ instanceID = kind.text ++ other := hgroup _ hmem
  exact text_inj (by decide) hkind hsame ▸ hother

/-- The cycle before the loop. -/
def start (source : Source) : FailureCycle Source := ⟨0, 0, 0, ∅, source⟩

/-- Needs are met in the order of the instances, up to their limits, and every one met takes
its number of changes. -/
theorem loop_counts (source : Source) (instanceIDs : List Str) :
    let after := round.loop instanceIDs (start source)
    (∀ kind, met after.2 kind = min (limit round.settings kind).toNat
      (instanceIDs.countP fun instanceID => round.need instanceID = kind)) ∧
    after.1.length = 4 * met after.2 .replacement + 2 * met after.2 .drain +
      2 * met after.2 .recovery := by
  induction instanceIDs using reverseRecOn with
  | nil => exact ⟨fun kind => by cases kind <;> simp [loop, processInstances, start, met], rfl⟩
  | append_singleton front instanceID ih =>
    obtain ⟨hmet, hlength⟩ := ih
    simp only [loop_append, loop_cons, countP_append, countP_singleton, decide_eq_true_eq]
    generalize round.loop front (start source) = before at *
    have hnil : ∀ cycle, round.loop [] cycle = ([], cycle) := fun _ => rfl
    rcases @turn_meets Source round instanceID before.2 with
      ⟨hspent, hnone⟩ | ⟨hroom, hsize, -, -, hafter⟩
    · simp only [hnone, hnil, append_nil]
      refine ⟨fun kind => ?_, hlength⟩
      have hkind := hmet kind
      split_ifs with heq
      · subst heq
        omega
      · exact hkind
    · simp only [hnil, append_nil, length_append, hsize, hafter]
      generalize round.need instanceID = kind at *
      refine ⟨fun other => ?_, ?_⟩
      · have hother := hmet other
        by_cases heq : kind = other
        · subst heq
          simp only [if_true]
          omega
        · simpa [heq, Ne.symm heq] using hother
      · cases kind <;> simp [Need.size] at * <;> omega

/-- The instances before one in the loop are those with smaller IDs. -/
theorem before_eq (hkeys : round.instances.sortedKeys = front ++ instanceID :: rest)
    (kind : Need) : round.before instanceID kind =
      front.countP (fun other => round.need other = kind) := by
  have hsorted := round.instances.sortedKeys_pairwise
  rw [hkeys, pairwise_append, pairwise_cons] at hsorted
  obtain ⟨-, ⟨hrest, -⟩, hfront⟩ := hsorted
  have hlater : (instanceID :: rest).countP
      (fun other => other < instanceID ∧ round.need other = kind) = 0 := by
    refine countP_eq_zero.mpr (forall_mem_cons.mpr ⟨by simp [List.lt_irrefl], ?_⟩)
    intro other hother
    simp [List.lt_asymm (hrest other hother)]
  have hperm : round.instances.sortedKeys.Perm round.instances.keys := perm_insertionSort _ _
  rw [before, ← hperm.countP_eq, hkeys, countP_append, hlater, Nat.add_zero]
  refine countP_congr fun other hother => ?_
  simp [hfront other hother instanceID mem_cons_self]

/-! ## The whole cycle -/

theorem exists_ungrouped (round : Round Source) (source : Source) :
    ∃ others : List Change, (∀ change ∈ others, change.group = []) ∧
      (proposedChanges round.settings round.environment source round.facts).1 =
        (round.loop round.instances.sortedKeys (start source)).1 ++ others := by
  refine ⟨_, fun change hchange => ?_, append_assoc _ _ _⟩
  rcases mem_append.mp hchange with hemitted | hreset
  · obtain ⟨_, -, rfl⟩ := mem_map.mp hemitted
    rfl
  · obtain ⟨_, -, rfl⟩ := mem_map.mp hreset
    rfl

theorem mem_keys_of_need (h : round.need instanceID = .replacement) :
    (round.fields instanceID).field "job_owner" = [] ∧
      instanceID ∈ round.instances.sortedKeys := by
  have hsome : ¬((round.fields instanceID).field "job_owner" ≠ [] ∨
      (round.fields instanceID).field "service" = []) := by
    intro hnone
    rw [need, if_pos hnone] at h
    cases h
  rw [not_or, not_not] at hsome
  refine ⟨hsome.1, Map.mem_sortedKeys.mpr ?_⟩
  by_contra hout
  refine hsome.2 ?_
  rw [fields, Map.get, AList.lookup_eq_none.mpr hout]
  decide

theorem nodup_sortedKeys (round : Round Source) : round.instances.sortedKeys.Nodup :=
  (perm_insertionSort _ _).nodup_iff.mpr (AList.nodupKeys _)

/-- No group of a cycle is larger than the cap. -/
theorem length_stretch_le (round : Round Source) (source : Source) : ∀ stretch ∈ changeGroups
      (proposedChanges round.settings round.environment source round.facts).1,
    stretch.length ≤ maxFailureControllerChangesPerCycle := by
  intro stretch hstretch
  obtain ⟨others, hothers, hproposed⟩ := round.exists_ungrouped source
  rw [hproposed, changeGroups_loop round.nodup_sortedKeys hothers] at hstretch
  rcases mem_append.mp hstretch with hblock | hrest
  · obtain ⟨_, _, kind, _, hsize, _⟩ := of_mem_blocks hblock
    rw [hsize]
    cases kind <;> decide
  · have hsingle := changeGroups_isStretch others stretch hrest
    obtain ⟨change, hchange⟩ := exists_mem_of_ne_nil _ hsingle.nonempty
    have hmem := flatten_changeGroups others ▸ mem_flatten.mpr ⟨stretch, hrest, hchange⟩
    rw [hsingle.single change hchange (hothers change hmem)]
    decide

/-- A cycle replaces exactly the instances that need it and are within its limits. -/
theorem reconcile_replaces (round : Round Source) (source : Source) :
    ∃ changes,
      (reconcile round.settings round.environment source round.facts).1 = .ok changes ∧
      ∀ instanceID, Replaces changes instanceID ↔
        round.need instanceID = .replacement ∧ round.WithinLimits instanceID := by
  obtain ⟨others, hothers, hproposed⟩ := round.exists_ungrouped source
  have hgroups := hproposed ▸ changeGroups_loop round.nodup_sortedKeys hothers
  have hsizes := round.length_stretch_le source
  obtain ⟨taken, _, -, hok, -⟩ := capOutputChanges_taken hsizes
  refine ⟨taken.flatten, hok, fun instanceID => ?_⟩
  have hlooped : Replaces taken.flatten instanceID →
      Replaces (round.loop round.instances.sortedKeys (start source)).1 instanceID := by
    intro hmem
    refine (mem_append.mp (hproposed ▸ capOutputChanges_subset hok hmem)).resolve_right ?_
    exact fun hout => absurd (hothers _ hout) (by simp [lit])
  by_cases hkey : instanceID ∈ round.instances.sortedKeys
  swap
  · exact iff_of_false (fun h => hkey (mem_of_replaces_loop (hlooped h)))
      fun h => hkey (mem_keys_of_need h.1).2
  -- the loop up to the instance, its turn, and the rest
  obtain ⟨front, rest, hsplit⟩ := append_of_mem hkey
  have hout := (nodup_cons.mp (nodup_middle.mp (hsplit ▸ round.nodup_sortedKeys))).1
  obtain ⟨hmet, hlength⟩ := @loop_counts Source round source front
  simp only [← before_eq hsplit] at hmet
  have hfront : ¬Replaces (round.loop front (start source)).1 instanceID :=
    fun h => hout (mem_append_left _ (mem_of_replaces_loop h))
  rw [hsplit] at hlooped hgroups
  simp only [loop_append, loop_cons] at hlooped
  rw [blocks_append, blocks] at hgroups
  generalize hcycle : (round.loop front (start source)).2 = cycle at *
  have hr := hmet .replacement
  have hd := hmet .drain
  have hc := hmet .recovery
  simp only [limit] at hr hd hc
  by_cases hreplaced : Replaces (round.turn instanceID cycle).1 instanceID
  swap
  · refine iff_of_false (fun h => ?_) fun h => hreplaced (replaces_turn_iff.mpr ⟨h.1, ?_⟩)
    · refine (mem_append.mp ((mem_append.mp (hlooped h)).resolve_left hfront)).elim hreplaced ?_
      exact fun hrest => hout (mem_append_right _ (mem_of_replaces_loop hrest))
    · have := h.2.2.1
      simp only [limit]
      omega
  obtain ⟨hneed, hroom⟩ := replaces_turn_iff.mp hreplaced
  simp only [limit] at hroom
  have hfour : (round.turn instanceID cycle).1.length = 4 := by
    rcases @turn_meets Source round instanceID cycle with ⟨-, hnone⟩ | ⟨-, hsize, -⟩
    · rw [hnone] at hreplaced
      cases hreplaced
    · rw [hsize, hneed, Need.size]
  rw [if_neg (ne_nil_of_mem hreplaced), append_assoc, cons_append] at hgroups
  refine (mem_capped_iff hsizes hgroups hreplaced (by rwa [flatten_blocks]) hok).trans ?_
  rw [flatten_blocks, hfour]
  refine ⟨fun hfits => ⟨hneed, (mem_keys_of_need hneed).1, ?_, ?_⟩, fun h => ?_⟩
  · omega
  · omega
  · have := h.2.2.2
    omega

theorem need_of_failed {service : Str} (hopen : round.HalfOpen service)
    (hfailed : round.FailedInstance service instanceID)
    (hjob : (round.fields instanceID).field "job_owner" = []) :
    round.need instanceID = .replacement := by
  obtain ⟨counter, hcounter, hcount, hover⟩ := hopen
  obtain ⟨hservice, rfl, hstate⟩ := hfailed
  simp only [need, hjob, hservice, hstate, replacementDelayed, hcounter, hcount, hover, ne_eq,
    not_true_eq_false, false_or, if_false, if_true, Bool.false_eq_true]

end Round

/-- A half-open breaker lets a single replacement through exactly if one failed instance only
is within the limits of the cycle. -/
theorem single_probe_iff (round : Round Source) (source : Source) (service : Str)
    (hopen : round.HalfOpen service) :
    round.SingleProbe service source ↔ round.OneFailed service round.WithinLimits := by
  obtain ⟨changes, hchanges, hreplaces⟩ := round.reconcile_replaces source
  constructor
  · intro hprobe first second hfirst hsecond hin hother
    refine hprobe changes hchanges first second hfirst hsecond ?_ ?_
    · exact (hreplaces first).mpr ⟨Round.need_of_failed hopen hfirst hin.1, hin⟩
    · exact (hreplaces second).mpr ⟨Round.need_of_failed hopen hsecond hother.1, hother⟩
  · intro hone selected hselected first second hfirst hsecond hreplaced hother
    obtain rfl := Except.ok.inj (hchanges.symm.trans hselected)
    exact hone first second hfirst hsecond ((hreplaces first).mp hreplaced).2
      ((hreplaces second).mp hother).2

/-- Two failed instances of a service whose breaker opened ten minutes ago. -/
def halfOpenRound : Round Nat where
  settings := .new
  environment := {
    newID := fun count => (itoa count, count + 1)
    now := ⟨600 * second, by decide, by decide⟩
    codec := ⟨fun text =>
        if text = lit "\x7b\"count\":10,\"since\":0\x7d" then some ⟨10, 0⟩ else none,
      fun counter => some (lit "\x7b\"count\":" ++ itoa counter.count ++ lit ",\"since\":" ++
        itoa counter.since ++ lit "\x7d")⟩
    replacedOrder := .identity
    counterOrder := .identity }
  facts := [(lit "derived/crash-loop/web", lit "\x7b\"count\":10,\"since\":0\x7d"),
    (lit "observed/instance/a/service", lit "web"),
    (lit "observed/instance/a/state", instanceFailed),
    (lit "observed/instance/b/service", lit "web"),
    (lit "observed/instance/b/state", instanceFailed)].map
      (fun entry => ⟨entry.1, entry.2, 1, 1, 0⟩)

/-- The same with one replacement in a cycle. -/
def oneReplacementRound : Round Nat :=
  { halfOpenRound with settings := { FailureSettings.new with maxReplacementsPerCycle := 1 } }

/-- Only the first instance is replaced. -/
theorem probe_of_one_replacement : oneReplacementRound.SingleProbe (lit "web") 0 := by
  have hfirst : ∀ {id}, oneReplacementRound.FailedInstance (lit "web") id →
      oneReplacementRound.WithinLimits id → id = lit "a" := by
    intro id hfailed hin
    have hkeys : oneReplacementRound.instances.keys = [lit "b", lit "a"] := by decide +kernel
    have hkey : id ∈ oneReplacementRound.instances.keys := by
      by_contra hout
      have hservice := hfailed.2.1
      rw [Round.fields, Map.get, AList.lookup_eq_none.mpr hout] at hservice
      exact absurd hservice (by decide)
    rw [hkeys, mem_cons, mem_singleton] at hkey
    refine hkey.resolve_left fun hb => ?_
    subst hb
    revert hin
    unfold Round.WithinLimits
    decide +kernel
  refine (single_probe_iff _ _ _ ⟨⟨10, 0⟩, by decide +kernel, by decide, by decide⟩).mpr ?_
  intro _ _ hfailed hother hin hin'
  rw [hfirst hfailed hin, hfirst hother hin']

/-- Both are replaced in one cycle. -/
theorem half_open_replaces_two : halfOpenRound.HalfOpen (lit "web") ∧
    ¬halfOpenRound.SingleProbe (lit "web") 0 := by
  refine ⟨⟨⟨10, 0⟩, by decide +kernel, by decide, by decide⟩, fun h => ?_⟩
  have hreplaces : ∀ id ∈ [lit "a", lit "b"], halfOpenRound.FailedInstance (lit "web") id ∧
      Replaces (proposedChanges halfOpenRound.settings halfOpenRound.environment 0
        halfOpenRound.facts).1 id := by
    unfold Round.FailedInstance Replaces
    decide +kernel
  have hfirst := hreplaces (lit "a") (by simp)
  have hsecond := hreplaces (lit "b") (by simp)
  exact absurd (h _ rfl _ _ hfirst.1 hsecond.1 hfirst.2 hsecond.2) (by decide)

end FailureController

end CCattler.Controllers
