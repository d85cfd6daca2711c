import CCattler.Controllers.Committed
import CCattler.Controllers.InstanceFacts
import CCattler.Controllers.WatchSufficiency

/-! # The endpoints after a cycle

The changes of a cycle turn the endpoint facts into those the instances, services and
nodes ask for, and the next cycle has nothing to do.
-/

namespace CCattler.Controllers.EndpointController

open Go Store CCattler.Types List

/-! ## The desired endpoints -/

/-- The endpoint of an instance at a path. -/
structure IsEndpoint (inputs : EndpointInputs) (fields : InstanceFields) (instanceID path : Str)
    (address : Str) : Prop where
  ready : endpointReady inputs fields = true
  port : ∃ exposedPort ∈ inputs.servicePorts.get (fields.field "service") [],
    path = endpointPath (fields.field "service") instanceID exposedPort ∧
    endpointAddress fields (inputs.nodeAddresses.get (fields.field "node") []) exposedPort =
      some address

theorem reverse_endpointPath (service instanceID : Str) (port : Int) :
    (endpointPath service instanceID port).reverse = (itoa port).reverse ++
      Str.slash :: (instanceID.reverse ++ Str.slash :: service.reverse) := by
  simp only [endpointPath, reverse_append]
  rfl

/-- An endpoint path names its instance and port. -/
theorem endpointPath_inj {service instanceID other otherID : Str} {port otherPort : Int}
    (hid : Str.slash ∉ instanceID) (hother : Str.slash ∉ otherID)
    (h : endpointPath service instanceID port = endpointPath other otherID otherPort) :
    instanceID = otherID ∧ itoa port = itoa otherPort := by
  have hport : ∀ port : Int, Str.slash ∉ (itoa port).reverse := fun port hmem =>
    slash_notMem_itoa port (mem_reverse.mp hmem)
  have hreverse := congrArg List.reverse h
  rw [reverse_endpointPath, reverse_endpointPath, Str.append_sep_inj (hport _) (hport _),
    Str.append_sep_inj (by simpa using hid) (by simpa using hother)] at hreverse
  exact ⟨reverse_injective hreverse.2.1, reverse_injective hreverse.1⟩

/-- The desired endpoints are those `IsEndpoint` describes. -/
theorem lookup_buildDesiredEndpoints {inputs : EndpointInputs} {instances : Map InstanceFields}
    (hslash : ∀ instanceID ∈ instances.keys, Str.slash ∉ instanceID) {path address : Str} :
    (buildDesiredEndpoints inputs instances).lookup path = some address ↔
      ∃ instanceID ∈ instances.keys,
        IsEndpoint inputs (instances.get instanceID ∅) instanceID path address := by
  let endpoints : Str → List (Str × Str) := fun instanceID =>
    let fields := instances.get instanceID ∅
    if endpointReady inputs fields then
      (inputs.servicePorts.get (fields.field "service") []).filterMap (fun exposedPort =>
        (endpointAddress fields (inputs.nodeAddresses.get (fields.field "node") [])
          exposedPort).map (fun address =>
            (endpointPath (fields.field "service") instanceID exposedPort, address)))
    else []
  have hmem : ∀ {instanceID path address}, (path, address) ∈ endpoints instanceID ↔
      IsEndpoint inputs (instances.get instanceID ∅) instanceID path address := by
    intro instanceID path address
    simp only [endpoints, mem_ite_nil_right, mem_filterMap, Option.map_eq_some_iff, Prod.mk.injEq]
    constructor
    · rintro ⟨hready, port, hport, _, haddress, rfl, rfl⟩
      exact ⟨hready, port, hport, rfl, haddress⟩
    · rintro ⟨hready, port, hport, rfl, haddress⟩
      exact ⟨hready, port, hport, _, haddress, rfl, rfl⟩
  have hpairs : buildDesiredEndpoints inputs instances =
      Map.ofPairs (instances.sortedKeys.flatMap endpoints) := by
    rw [Map.ofPairs, foldl_flatMap]
    refine foldl_ext _ _ _ fun desired instanceID _ => ?_
    simp only [addInstanceEndpoints, endpoints]
    split_ifs
    · rw [foldl_filterMap]
      refine foldl_ext _ _ _ fun desired port _ => ?_
      cases endpointAddress (instances.get instanceID ∅) _ port <;> rfl
    · rfl
  rw [hpairs, Map.lookup_ofPairs_iff]
  · simp only [mem_flatMap, Map.mem_sortedKeys, hmem]
  · rintro ⟨_, first⟩ hfirst ⟨_, second⟩ hsecond rfl
    obtain ⟨instanceID, hkey, hin⟩ := mem_flatMap.mp hfirst
    obtain ⟨otherID, hother, hout⟩ := mem_flatMap.mp hsecond
    obtain ⟨-, port, -, hpath, haddress⟩ := hmem.mp hin
    obtain ⟨-, otherPort, -, hsame, hout⟩ := hmem.mp hout
    obtain ⟨rfl, hitoa⟩ := endpointPath_inj (hslash _ (Map.mem_sortedKeys.mp hkey))
      (hslash _ (Map.mem_sortedKeys.mp hother)) (hpath.symm.trans hsame)
    -- the address has the port only as its text
    simp only [endpointAddress, hitoa] at haddress hout
    exact Option.some.inj (haddress.symm.trans hout)

theorem slash_notMem_of_parsed {facts : List Fact} :
    ∀ instanceID ∈ (parseInstanceFieldsFromFacts facts).keys, Str.slash ∉ instanceID := by
  have hadd : ∀ (fields : Map InstanceFields) (pre : Str),
      (∀ instanceID ∈ fields.keys, Str.slash ∉ instanceID) →
      ∀ instanceID ∈ (addInstanceFields facts fields pre).keys, Str.slash ∉ instanceID := by
    intro fields pre hfields
    refine foldl_split_rec (motive := fun fields : Map InstanceFields =>
      ∀ instanceID ∈ fields.keys, Str.slash ∉ instanceID) hfields ?_
    intro known entity _ _ hslash hknown instanceID hmem
    rcases Map.mem_keys_update.mp hmem with rfl | hold
    · exact hslash
    · exact hknown instanceID hold
  exact hadd _ _ (hadd _ _ (by simp))

/-! ## The difference -/

section

variable (desired existing : Map Str)

def staleEndpoints : List Str :=
  desired.sortedKeys.filter (fun path => existing.lookup path ≠ desired.lookup path)

/-- Stale paths are put, surplus ones deleted. -/
theorem computeEndpointDiffChanges_eq : computeEndpointDiffChanges desired existing =
    (staleEndpoints desired existing).map
        (fun path => .put (scanEndpoints ++ path) (desired.get path [])) ++
      (existing.sortedKeys.filter (fun path => path ∉ desired.keys)).map
        (fun path => .delete (scanEndpoints ++ path)) := by
  refine congrArg₂ (· ++ ·) ?_ ?_
  · rw [staleEndpoints, ← flatMap_pure_eq_map, ← flatMap_ite]
    refine flatMap_congr fun path hmem => ?_
    obtain ⟨value, hvalue⟩ := Option.isSome_iff_exists.mp
      (AList.lookup_isSome.mpr (Map.mem_sortedKeys.mp hmem))
    cases existing.lookup path <;> simp [Map.get, hvalue]
  · rw [← flatMap_pure_eq_map, ← flatMap_ite]
    refine flatMap_congr fun path _ => ?_
    by_cases hdesired : path ∈ desired.keys <;> simp

variable {desired existing}

/-- The diff applied gives the desired endpoints. -/
theorem value_applied_diff {table : ValidTable}
    (hexisting : ∀ path, existing.lookup path = table.value (scanEndpoints ++ path)) (path : Str) :
    (applied table (computeEndpointDiffChanges desired existing)).value (scanEndpoints ++ path) =
      desired.lookup path := by
  have hchanges := computeEndpointDiffChanges_eq desired existing
  by_cases hchange : ∃ change ∈ computeEndpointDiffChanges desired existing,
      change.key = scanEndpoints ++ path
  · refine applied_value hchange fun change hmem hkey => ?_
    rw [hchanges, mem_append, mem_map, mem_map] at hmem
    rcases hmem with ⟨other, hstale, rfl⟩ | ⟨other, hgone, rfl⟩ <;>
      obtain rfl : other = path := append_cancel_left hkey
    · obtain ⟨value, hvalue⟩ := Option.isSome_iff_exists.mp
        (AList.lookup_isSome.mpr (Map.mem_sortedKeys.mp (mem_filter.mp hstale).1))
      rw [Map.get, hvalue]
      rfl
    · have hout : other ∉ desired.keys := by simpa using (mem_filter.mp hgone).2
      exact (AList.lookup_eq_none.mpr hout).symm
  · have hsame : (applied table (computeEndpointDiffChanges desired existing)).value
        (scanEndpoints ++ path) = existing.lookup path := by
      rw [hexisting, FactTable.value, applied_facts_of_notMem fun change hmem heq =>
        hchange ⟨change, hmem, heq⟩]
      rfl
    rw [hsame]
    by_contra hne
    refine hchange ?_
    by_cases hdesired : path ∈ desired.keys
    · refine ⟨.put _ _, hchanges ▸ mem_append_left _ (mem_map_of_mem ?_), rfl⟩
      exact mem_filter.mpr ⟨Map.mem_sortedKeys.mpr hdesired, by simpa using hne⟩
    · refine ⟨.delete _, hchanges ▸ mem_append_right _ (mem_map_of_mem ?_), rfl⟩
      rw [AList.lookup_eq_none.mpr hdesired] at hne
      have hstored := AList.lookup_isSome.mp (Option.isSome_iff_ne_none.mpr hne)
      exact mem_filter.mpr ⟨Map.mem_sortedKeys.mpr hstored, by simpa using hdesired⟩

theorem computeEndpointDiffChanges_eq_nil (h : ∀ path, existing.lookup path = desired.lookup path) :
    computeEndpointDiffChanges desired existing = [] := by
  rw [computeEndpointDiffChanges_eq, append_eq_nil_iff, map_eq_nil_iff, map_eq_nil_iff,
    staleEndpoints, filter_eq_nil_iff, filter_eq_nil_iff]
  refine ⟨fun path _ => by simp [h], fun path hmem => ?_⟩
  have hdesired : (desired.lookup path).isSome := by
    rw [← h]
    exact AList.lookup_isSome.mpr (Map.mem_sortedKeys.mp hmem)
  have hmem : path ∈ desired.keys := AList.lookup_isSome.mp hdesired
  simpa using hmem

end

/-! ## The cycle and the next -/

section

variable (table : ValidTable)

def seen : List Fact := visible watch table.allFacts

def desired : Map Str :=
  buildDesiredEndpoints (inputs (seen table)) (parseInstanceFieldsFromFacts (seen table))

/-- The table after a cycle. -/
def cycle : ValidTable := applied table (reconcile (seen table))

theorem reconcile_seen : reconcile (seen table) =
    computeEndpointDiffChanges (desired table) (parseExistingEndpoints (seen table)) := rfl

theorem lookup_parseExistingEndpoints (path : Str) :
    (parseExistingEndpoints (seen table)).lookup path = table.value (scanEndpoints ++ path) := by
  have hread := @lookup_watched table watch (by decide) scanEndpoints (by decide) path
  rw [← hread, Map.ofPairs, foldl_map]
  rfl

theorem value_cycle (path : Str) :
    (cycle table).value (scanEndpoints ++ path) = (desired table).lookup path := by
  exact value_applied_diff (lookup_parseExistingEndpoints table) path

theorem desired_cycle : desired (cycle table) = desired table := by
  have hkeys : ∀ change ∈ reconcile (seen table), scanEndpoints <+: change.key := by
    intro change hmem
    rw [reconcile_seen, computeEndpointDiffChanges_eq, mem_append, mem_map, mem_map] at hmem
    rcases hmem with ⟨path, -, rfl⟩ | ⟨path, -, rfl⟩ <;> exact prefix_append _ _
  have hsame : ∀ {scan : Str}, scan ∈ watch → Apart scanEndpoints scan →
      factsWithPrefix (seen (cycle table)) scan = factsWithPrefix (seen table) scan :=
    fun hscan hapart => watched_applied (by decide) hscan fun change hmem =>
      hapart.not_isPrefix (hkeys change hmem)
  simp only [desired, inputs, extractServiceExposedPorts, detectServicesWithReadinessProbe,
    parseNodeAdvertiseAddresses, collectStringValuesBySuffix,
    parseInstanceFieldsFromFacts_congr (@hsame scanObservedInstances (by decide) (by decide))
      (hsame (by decide) (by decide)),
    collectValuesBySuffix_congr id (@hsame scanObservedNodes (by decide) (by decide)),
    @hsame scanDesiredServices (by decide) (by decide)]

end

/-- The endpoint facts after a cycle are the endpoints of the instances, and the next
cycle is quiet. -/
theorem endpoints_exact (table : ValidTable) :
    (∀ path address, (cycle table).value (scanEndpoints ++ path) = some address ↔
      ∃ instanceID ∈ (parseInstanceFieldsFromFacts (seen table)).keys,
        IsEndpoint (inputs (seen table))
          ((parseInstanceFieldsFromFacts (seen table)).get instanceID ∅) instanceID path address) ∧
      reconcile (seen (cycle table)) = [] := by
  constructor
  · intro path address
    rw [value_cycle, desired, lookup_buildDesiredEndpoints slash_notMem_of_parsed]
  · rw [reconcile_seen, desired_cycle]
    refine computeEndpointDiffChanges_eq_nil fun path => ?_
    rw [lookup_parseExistingEndpoints, value_cycle]

end CCattler.Controllers.EndpointController
