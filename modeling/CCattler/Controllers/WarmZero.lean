import CCattler.Controllers.InstanceFacts
import CCattler.Go.Time
import CCattler.Store.WriteLoops

/-! # Scale to zero

`WarmZeroController` moves services between activation states by counts that lag behind
what it writes.
-/

namespace CCattler.Controllers

open Go Store CCattler.Types List FactTable

/-- A duration such as `60s`, `5m` or `7`, in seconds. -/
def parseDurationSeconds (durationString : Str) : Int :=
  let trimmed := Str.trimSpace durationString
  if trimmed.getLast? = some 115 then (parseInt trimmed.dropLast).1
  else if trimmed.getLast? = some 109 then wrap64 ((parseInt trimmed.dropLast).1 * 60)
  else (parseInt trimmed).1

namespace WarmZeroController

def scanObservedServices : Str := lit "observed/service/"

def keyDerivedServiceActivationState (serviceName : Str) : Str :=
  fieldKey scanDerivedServices serviceName (lit "activation/state")

def watch : List Str :=
  [scanDesiredServices, scanObservedServices, scanDerivedServices, scanObservedInstances,
    scanEndpoints]

/-- The loop over the facts below a prefix whose keys have an entity and a suffix. -/
def overFields {State : Type} (facts : List Fact) (pre : Str)
    (step : State → Str → Str → Str → State) (initial : State) : State :=
  (factsWithPrefix facts pre).foldl (fun state fact =>
    match splitFactKeyIntoEntityAndSuffix fact.key pre with
    | some (entity, suffix) => step state entity suffix fact.value
    | none => state) initial

/-- `warmZeroConfig`. -/
structure Config where
  idleTimeoutSeconds : Int
  activationTimeoutSeconds : Int

/-- The first loop of `extractWarmZeroConfigs`, with `minValues`. -/
def addConfigFact : Map Config × Map Int → Str → Str → Str → Map Config × Map Int
  | (configs, minValues), serviceName, suffix, value =>
    if suffix = lit "scale/horizontal/min" then
      (configs, ((atoi? value).map (minValues.set serviceName)).getD minValues)
    else if suffix = lit "scale/horizontal/idle_timeout" then
      (configs.update serviceName ⟨0, 0⟩ (fun config =>
        { config with idleTimeoutSeconds := parseDurationSeconds value }), minValues)
    else if suffix = lit "scale/horizontal/activation_timeout" then
      (configs.update serviceName ⟨0, 0⟩ (fun config =>
        { config with activationTimeoutSeconds := parseDurationSeconds value }), minValues)
    else (configs, minValues)

variable (facts : List Fact)

def extractWarmZeroConfigs : Map Config :=
  let (configs, minValues) := overFields facts scanDesiredServices addConfigFact (∅, ∅)
  configs.keys.foldl (fun configs serviceName =>
    if minValues.get serviceName 0 ≠ 0 then configs.erase serviceName else configs) configs

def extractActivationStates : Map Str :=
  collectStringValuesBySuffix facts scanDerivedServices (lit "activation/state")

def countRunningInstancesPerService : Map Nat :=
  let (serviceForInstance, runningInstances) := overFields facts scanObservedInstances
    (fun (services, running) instanceID suffix value =>
      if suffix = lit "service" then (services.set instanceID value, running)
      else if suffix = lit "state" ∧ value = instanceRunning then
        (services, running.set instanceID true)
      else (services, running)) ((∅, ∅) : Map Str × Map Bool)
  serviceForInstance.keys.foldl (fun counts instanceID =>
    if runningInstances.get instanceID false then
      counts.update (serviceForInstance.get instanceID []) 0 (· + 1)
    else counts) ∅

def countEndpointsPerService : Map Nat :=
  (factsWithPrefix facts scanEndpoints).foldl (fun counts fact =>
    counts.update ((Str.splitN Str.slash 2 (fact.key.trimPrefix scanEndpoints)).headD []) 0
      (· + 1)) ∅

def extractLastRequestTimes : Map Int :=
  overFields facts scanObservedServices (fun times serviceName suffix value =>
    if suffix = lit "last_request_time" then
      ((atoi? value).map (times.set serviceName)).getD times
    else times) ∅

/-- What a cycle knows of a service besides its state. -/
structure Load where
  runningCount : Nat
  endpointCount : Nat
  lastRequestTime : Int
  idleTimeoutSeconds : Int

/-- A service without a last request has the zero time. -/
def loadOf (serviceName : Str) : Load where
  runningCount := (countRunningInstancesPerService facts).get serviceName 0
  endpointCount := (countEndpointsPerService facts).get serviceName 0
  lastRequestTime := (extractLastRequestTimes facts).get serviceName Time.zero.unixMilli
  idleTimeoutSeconds := ((extractWarmZeroConfigs facts).get serviceName ⟨0, 0⟩).idleTimeoutSeconds

/-- The idle timeout is set and has elapsed since the last request. -/
def Load.Idle (load : Load) (currentTime : Time) : Prop :=
  load.lastRequestTime ≠ Time.zero.unixMilli ∧ load.idleTimeoutSeconds > 0 ∧
    currentTime.subMilli load.lastRequestTime > wrap64 (load.idleTimeoutSeconds * second)

instance (load : Load) (currentTime : Time) : Decidable (load.Idle currentTime) :=
  inferInstanceAs (Decidable (_ ∧ _))

variable (currentState : Str)

def computeDesiredState (load : Load) (currentTime : Time) : Str :=
  if currentState = lit "activating" then
    if load.endpointCount > 0 then lit "active" else []
  else if currentState = lit "active" then
    if load.runningCount = 0 then lit "inactive"
    else if load.Idle currentTime then lit "inactive"
    else []
  else if currentState = lit "inactive" ∨ currentState = [] then
    if load.runningCount > 0 ∧ load.endpointCount > 0 then lit "active"
    else if currentState = [] ∧ load.runningCount = 0 then lit "inactive"
    else []
  else []

/-- The state that is written for a service in the given one, if any. -/
def transition (load : Load) (currentTime : Time) : Option Str :=
  let newState := computeDesiredState currentState load currentTime
  if newState ≠ [] ∧ newState ≠ currentState then some newState else none

def stateChange (currentTime : Time) (facts : List Fact) (serviceName : Str) : Option Str :=
  transition ((extractActivationStates facts).get serviceName []) (loadOf facts serviceName)
    currentTime

def reconcile (order : IterationOrder) (currentTime : Time) (facts : List Fact) : List Change :=
  (order.visit (extractWarmZeroConfigs facts).keys).filterMap (fun serviceName =>
    (stateChange currentTime facts serviceName).map
      (Change.put (keyDerivedServiceActivationState serviceName)))

/-- What a cycle reads. -/
def seen (table : ValidTable) : List Fact := visible watch table.allFacts

/-- The store after the puts of a cycle. -/
def cycle (order : IterationOrder) (currentTime : Time) (table : ValidTable) : ValidTable :=
  table.putAll ((reconcile order currentTime (seen table)).map
    (fun change => (change.key, change.value)))

/-- A service with endpoints whose state does not settle. -/
def Flaps (load : Load) (currentTime : Time) : Prop :=
  load.endpointCount > 0 ∧
    (currentState = lit "activating" ∧ (load.runningCount = 0 ∨ load.Idle currentTime) ∨
      currentState ∈ [lit "active", lit "inactive", []] ∧ load.runningCount > 0 ∧
        load.Idle currentTime)

/-! ## Two transitions -/

theorem transition_settles_iff (load : Load) (currentTime : Time) :
    transition ((transition currentState load currentTime).getD currentState) load currentTime =
      none ↔ ¬ Flaps currentState load currentTime := by
  have hactive : lit "active" ≠ lit "activating" ∧ lit "active" ≠ lit "inactive" := by decide
  have hinactive : lit "inactive" ≠ lit "activating" ∧ lit "inactive" ≠ lit "active" := by decide
  have hnil : lit "activating" ≠ [] ∧ lit "active" ≠ [] ∧ lit "inactive" ≠ [] := by decide
  -- the table of the states against the tests of a transition
  by_cases hrunning : load.runningCount = 0 <;> by_cases hendpoints : load.endpointCount = 0 <;>
    by_cases hidle : load.Idle currentTime <;>
    by_cases hone : currentState = lit "activating" <;>
    by_cases htwo : currentState = lit "active" <;>
    by_cases hthree : currentState = lit "inactive" <;>
    by_cases hfour : currentState = [] <;>
    simp_all [transition, computeDesiredState, Flaps, Nat.pos_iff_ne_zero]

/-! ## What a cycle writes -/

section

variable {facts : List Fact} {serviceName : Str}

theorem slash_notMem_of_configured (h : serviceName ∈ (extractWarmZeroConfigs facts).keys) :
    Str.slash ∉ serviceName := by
  have hread : ∀ name ∈ (overFields facts scanDesiredServices addConfigFact (∅, ∅)).1.keys,
      Str.slash ∉ name := by
    refine foldl_split_rec (motive := fun acc : Map Config × Map Int =>
      ∀ name ∈ acc.1.keys, Str.slash ∉ name) (by simp) fun acc entity _ _ hslash hacc => ?_
    have hset : ∀ config, ∀ name ∈ (acc.1.set entity config).keys, Str.slash ∉ name := by
      intro config name hname
      rcases Map.mem_keys_set.mp hname with rfl | hold
      · exact hslash
      · exact hacc name hold
    dsimp only [addConfigFact]
    split_ifs
    · exact hacc
    · exact hset _
    · exact hset _
    · exact hacc
  revert h
  refine List.foldlRecOn (motive := fun configs : Map Config =>
    serviceName ∈ configs.keys → Str.slash ∉ serviceName) _ _ (hread serviceName) ?_
  intro configs hkept name _ hmem
  split at hmem
  · exact hkept (AList.mem_erase.mp hmem).2
  · exact hkept hmem

/-- Collecting one field of the entities is reading that field of all their fields. -/
theorem lookup_collectStringValuesBySuffix (facts : List Fact) (pre matchSuffix entity : Str) :
    (collectStringValuesBySuffix facts pre matchSuffix).lookup entity =
      ((addInstanceFields facts ∅ pre).get entity ∅).lookup matchSuffix := by
  refine foldl_rel (r := fun (collected : Map Str) (fields : Map InstanceFields) =>
    collected.lookup entity = (fields.get entity ∅).lookup matchSuffix) (by simp [Map.get]) ?_
  intro fact _ collected fields h
  cases splitFactKeyIntoEntityAndSuffix fact.key pre with
  | none => exact h
  | some parts =>
    obtain ⟨other, suffix⟩ := parts
    simp only [Map.get, Map.lookup_update] at h ⊢
    by_cases hsuffix : suffix = matchSuffix
    · subst hsuffix
      by_cases hentity : entity = other <;> simp [Map.lookup_set, hentity, h]
    · by_cases hentity : entity = other
      · subst hentity
        simp [Map.lookup_set, hsuffix, Ne.symm hsuffix, h]
      · simp [hentity, hsuffix, h]

variable {table : ValidTable} {currentTime : Time} {order : IterationOrder}

theorem lookup_extractActivationStates (hslash : Str.slash ∉ serviceName) :
    (extractActivationStates (seen table)).lookup serviceName =
      table.value (keyDerivedServiceActivationState serviceName) := by
  rw [extractActivationStates, lookup_collectStringValuesBySuffix, seen,
    lookup_addInstanceFields table.valid (by decide) (by decide) ∅ hslash]
  simp [Map.get, keyDerivedServiceActivationState]

/-- A cycle writes the transitions of its services. -/
theorem mem_reconcile {change : Change} :
    change ∈ reconcile order currentTime facts ↔
      ∃ serviceName ∈ (extractWarmZeroConfigs facts).keys,
        ∃ state, stateChange currentTime facts serviceName = some state ∧
          change = .put (keyDerivedServiceActivationState serviceName) state := by
  simp only [reconcile, mem_filterMap, (order.visit_perm _).mem_iff, Option.map_eq_some_iff,
    eq_comm (b := change)]

theorem value_cycle (h : serviceName ∈ (extractWarmZeroConfigs (seen table)).keys) :
    (cycle order currentTime table).value (keyDerivedServiceActivationState serviceName) =
      (stateChange currentTime (seen table) serviceName).or
        (table.value (keyDerivedServiceActivationState serviceName)) := by
  rw [cycle, ValidTable.value_putAll]
  congr 1
  cases hlast : FactTable.lastValue _ (keyDerivedServiceActivationState serviceName) with
  | some value =>
    obtain ⟨_, hchange, heq⟩ := mem_map.mp (mem_of_lastValue hlast)
    obtain ⟨_, hother, state, hstate, rfl⟩ := mem_reconcile.mp hchange
    obtain ⟨hkey, rfl⟩ := Prod.mk.inj heq
    obtain ⟨rfl, -⟩ := (fieldKey_inj (slash_notMem_of_configured hother)
      (slash_notMem_of_configured h)).mp hkey
    exact hstate.symm
  | none =>
    cases hstate : stateChange currentTime (seen table) serviceName with
    | none => rfl
    | some state =>
      exact absurd rfl (lastValue_eq_none_iff.mp hlast _
        (mem_map_of_mem (mem_reconcile.mpr ⟨serviceName, h, state, hstate, rfl⟩)))

theorem factsWithPrefix_cycle (scan : Str) (hscan : scan ∈ watch)
    (hapart : Apart scanDerivedServices scan) :
    factsWithPrefix (seen (cycle order currentTime table)) scan =
      factsWithPrefix (seen table) scan := by
  refine factsWithPrefix_congr (ValidTable.valid _) table.valid (by decide) hscan ?_
  intro _ hstarts
  apply putAll_facts_of_notMem
  intro _ hentry heq
  obtain ⟨_, hchange, rfl⟩ := mem_map.mp hentry
  obtain ⟨other, -, _, -, rfl⟩ := mem_reconcile.mp hchange
  exact hapart.not_isPrefix (isPrefix_fieldKey _ other _) (heq ▸ hstarts)

theorem configs_cycle : extractWarmZeroConfigs (seen (cycle order currentTime table)) =
    extractWarmZeroConfigs (seen table) := by
  rw [extractWarmZeroConfigs, overFields, factsWithPrefix_cycle _ (by decide) (by decide)]
  rfl

theorem loadOf_cycle :
    loadOf (seen (cycle order currentTime table)) serviceName =
      loadOf (seen table) serviceName := by
  rw [loadOf, configs_cycle, countRunningInstancesPerService, overFields,
    factsWithPrefix_cycle scanObservedInstances (by decide) (by decide),
    countEndpointsPerService, factsWithPrefix_cycle scanEndpoints (by decide) (by decide),
    extractLastRequestTimes, overFields,
    factsWithPrefix_cycle scanObservedServices (by decide) (by decide)]
  rfl

theorem stateChange_cycle (h : serviceName ∈ (extractWarmZeroConfigs (seen table)).keys) :
    stateChange currentTime (seen (cycle order currentTime table)) serviceName =
      transition ((stateChange currentTime (seen table) serviceName).getD
          ((extractActivationStates (seen table)).get serviceName []))
        (loadOf (seen table) serviceName) currentTime := by
  have hslash := slash_notMem_of_configured h
  rw [stateChange, loadOf_cycle, Map.get, lookup_extractActivationStates hslash, value_cycle h,
    Map.get, lookup_extractActivationStates hslash, Option.getD_or]

end

/-- The cycle after a cycle writes nothing exactly if no service flaps. -/
theorem second_cycle_quiet_iff (table : ValidTable) (currentTime : Time)
    (order next : IterationOrder) :
    reconcile next currentTime (seen (cycle order currentTime table)) = [] ↔
      ∀ serviceName ∈ (extractWarmZeroConfigs (seen table)).keys,
        ¬ Flaps ((extractActivationStates (seen table)).get serviceName [])
          (loadOf (seen table) serviceName) currentTime := by
  rw [reconcile, configs_cycle, filterMap_eq_nil_iff]
  simp only [(next.visit_perm _).mem_iff, Option.map_eq_none_iff]
  refine forall₂_congr fun serviceName hmem => ?_
  rw [stateChange_cycle hmem]
  exact transition_settles_iff _ _ _

/-- A service whose last request was longer ago than its idle timeout. -/
def idleEntries : List (Str × Str) :=
  [(keyDerivedServiceActivationState (lit "web"), lit "active"),
    (lit "desired/service/web/scale/horizontal/idle_timeout", lit "60s"),
    (lit "endpoint/service/web/web-0/80", lit "10.0.0.1:80"),
    (lit "observed/instance/web-0/service", lit "web"),
    (lit "observed/instance/web-0/state", instanceRunning),
    (lit "observed/service/web/last_request_time", lit "0")]

def idleService : ValidTable := ⟨FactTable.new.putAll idleEntries, valid_new.putAll _⟩

def clock : Time := ⟨100 * second, by decide, by decide⟩

/-- It is set to inactive, and at the same time back to active. -/
theorem idle_service_flaps : .put (keyDerivedServiceActivationState (lit "web")) (lit "inactive") ∈
        reconcile .identity clock (seen idleService) ∧
      .put (keyDerivedServiceActivationState (lit "web")) (lit "active") ∈
        reconcile .identity clock (seen (cycle .identity clock idleService)) := by
  have hfacts : (FactTable.new.putAll idleEntries).allFacts = _ := FactTable.run_allFacts _
  have hmem : lit "web" ∈ (extractWarmZeroConfigs (seen idleService)).keys := by
    rw [seen, idleService, hfacts]
    decide +kernel
  constructor
  · rw [seen, idleService, hfacts]
    decide +kernel
  · refine mem_reconcile.mpr ⟨lit "web", ?_, lit "active", ?_, rfl⟩
    · rw [configs_cycle]
      exact hmem
    · rw [stateChange_cycle hmem, seen, idleService, hfacts]
      decide +kernel

end WarmZeroController

end CCattler.Controllers
