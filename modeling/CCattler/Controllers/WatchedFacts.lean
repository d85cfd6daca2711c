import CCattler.Controllers.Eviction
import CCattler.Controllers.Runner
import CCattler.Store.Values

/-! # What a watch list shows

The runner hands a controller the facts below its watched prefixes, in key order. A
read below another prefix finds nothing.
-/

namespace CCattler.Store.FactTable

open Go List

/-- All facts of a table in key order. -/
def allFacts (table : FactTable) : List Fact := (table.facts []).toList ++ table.scanned []

variable {table : FactTable}

theorem Valid.mem_allFacts (h : table.Valid) {fact : Fact} :
    fact ∈ table.allFacts ↔ table.facts fact.key = some fact := by
  rw [allFacts, mem_append, h.mem_scanned, Option.mem_toList]
  constructor
  · rintro (hempty | ⟨-, hfact, -⟩)
    · rw [h.stamped.key_eq hempty]
      exact hempty
    · exact hfact
  · intro hfact
    by_cases hkey : fact.key = []
    · rw [hkey] at hfact
      exact Or.inl hfact
    · exact Or.inr ⟨hkey, hfact, nil_prefix⟩

variable {facts : List Fact}

theorem nodup_of_keySorted (h : KeySorted facts) : facts.Nodup := by
  refine List.Pairwise.imp ?_ h
  rintro earlier later hlt rfl
  exact List.lt_irrefl _ hlt

theorem eq_of_keySorted {first second : List Fact} (hfirst : KeySorted first)
    (hsecond : KeySorted second) (hmem : ∀ fact, fact ∈ first ↔ fact ∈ second) :
    first = second := by
  have hperm : first.Perm second :=
    (List.perm_ext_iff_of_nodup (nodup_of_keySorted hfirst) (nodup_of_keySorted hsecond)).mpr hmem
  refine hperm.eq_of_pairwise ?_ hfirst hsecond
  intro _ _ _ _ hlt hgt
  exact absurd (List.lt_trans hlt hgt) (List.lt_irrefl _)

theorem Valid.keySorted_allFacts (h : table.Valid) : KeySorted table.allFacts := by
  unfold KeySorted allFacts
  rw [pairwise_append]
  refine ⟨?_, h.scanned_pairwise [], ?_⟩
  · cases table.facts [] with
    | none => exact List.Pairwise.nil
    | some fact => exact pairwise_singleton _ fact
  · intro _ hearlier later hlater
    rw [h.stamped.key_eq (Option.mem_toList.mp hearlier)]
    cases hkey : later.key with
    | nil => exact absurd hkey (h.mem_scanned.mp hlater).1
    | cons byte rest => exact nil_lt_cons byte rest

/-- A sorted list of facts of the table that leaves no key out is all of them. -/
theorem Valid.allFacts_eq (h : table.Valid) (hsorted : KeySorted facts)
    (hread : ∀ fact ∈ facts, table.facts fact.key = some fact)
    (hkeys : ∀ key, key ∉ facts.map Fact.key → table.facts key = none) :
    table.allFacts = facts := by
  have hmem : ∀ fact, fact ∈ table.allFacts ↔ fact ∈ facts := by
    intro fact
    rw [h.mem_allFacts]
    refine ⟨fun hfact => ?_, hread fact⟩
    by_contra hout
    have hnone := hkeys fact.key (by
      intro hkey
      obtain ⟨other, hother, heq⟩ := mem_map.mp hkey
      have hsame := hread other hother
      rw [heq, hfact] at hsame
      exact hout (Option.some.inj hsame ▸ hother))
    exact absurd (hfact.symm.trans hnone) (by simp)
  exact eq_of_keySorted h.keySorted_allFacts hsorted hmem

/-- The facts that a history of a new table leaves, from the keys it writes. -/
def factsAfter (operations : List Operation) : List Fact :=
  (sortStrings (operations.flatMap Operation.writtenKeys).dedup).filterMap
    (new.run operations).facts

theorem run_allFacts (operations : List Operation) :
    (new.run operations).allFacts = factsAfter operations := by
  have hvalid := valid_new.run operations
  refine eq_of_keySorted hvalid.keySorted_allFacts ?_ fun fact => ?_
  · have hsorted := sortStrings_pairwise (operations.flatMap Operation.writtenKeys).nodup_dedup
    refine pairwise_filterMap.mpr (hsorted.imp fun hlt first hfirst second hsecond => ?_)
    rw [hvalid.stamped.key_eq hfirst, hvalid.stamped.key_eq hsecond]
    exact hlt
  · rw [hvalid.mem_allFacts, factsAfter, mem_filterMap]
    constructor
    · intro hfact
      refine ⟨fact.key, ?_, hfact⟩
      rw [sortStrings, mem_insertionSort, mem_dedup, mem_flatMap]
      by_contra hout
      rw [run_facts_of_notMem fun operation hoperation hkey =>
        hout ⟨operation, hoperation, hkey⟩] at hfact
      cases hfact
    · rintro ⟨key, -, hfact⟩
      rw [hvalid.stamped.key_eq hfact]
      exact hfact

variable {entries : List (Str × Str)}

theorem putAll_allFacts_of_sorted
    (hsorted : entries.Pairwise (fun earlier later => earlier.1 < later.1)) :
    (new.putAll entries).allFacts = entries.zipIdx.map (fun (entry, index) =>
      ⟨entry.1, entry.2, (index : Int) + 1, (index : Int) + 1, 0⟩) := by
  have hkeys : (entries.zipIdx.map (fun (entry, index) =>
      (⟨entry.1, entry.2, (index : Int) + 1, (index : Int) + 1, 0⟩ : Fact))).map Fact.key =
        entries.map Prod.fst := by
    have hfirst := congrArg (List.map Prod.fst) (zipIdx_map_fst 0 entries)
    rw [map_map] at hfirst
    rw [map_map]
    exact hfirst
  have hnodup : (entries.map Prod.fst).Nodup := by
    refine pairwise_map.mpr (hsorted.imp ?_)
    intro earlier later hlt heq
    exact List.lt_irrefl _ (heq ▸ hlt)
  refine (valid_new.putAll entries).allFacts_eq ?_ ?_ ?_
  · exact pairwise_map.mp (hkeys ▸ pairwise_map.mpr hsorted)
  · intro _ hfact
    obtain ⟨⟨entry, index⟩, hentry, rfl⟩ := mem_map.mp hfact
    rw [putAll_facts_of_fresh hnodup (fun _ _ => rfl) (mk_mem_zipIdx_iff_getElem?.mp hentry)]
    simp [new]
  · intro key hkey
    rw [hkeys] at hkey
    have hout : ∀ entry ∈ entries, entry.1 ≠ key := fun entry hentry heq =>
      hkey (heq ▸ mem_map_of_mem hentry)
    rw [putAll_facts_of_notMem hout]
    rfl

end CCattler.Store.FactTable

namespace CCattler.Controllers

open Go Store CCattler.Types

/-! ## Watch lists -/

/-- No key lies below both prefixes. -/
def Apart (first second : Str) : Prop := ¬ first <+: second ∧ ¬ second <+: first

instance (first second : Str) : Decidable (Apart first second) :=
  inferInstanceAs (Decidable (_ ∧ _))

theorem Apart.not_isPrefix {first second key : Str} (h : Apart first second)
    (hfirst : first <+: key) : ¬ second <+: key := by
  intro hsecond
  rcases List.prefix_or_prefix_of_prefix hfirst hsecond with hle | hge
  · exact h.1 hle
  · exact h.2 hge

theorem Apart.fieldKey_ne {first second : Str} (h : Apart first second)
    (entity field other otherField : Str) :
    fieldKey first entity field ≠ fieldKey second other otherField := by
  intro heq
  have hfirst := isPrefix_fieldKey first entity field
  apply h.not_isPrefix hfirst
  rw [heq]
  exact isPrefix_fieldKey second other otherField

/-- The prefixes of a watch list do not overlap, so no fact is scanned twice. -/
def NonOverlapping (watch : List Str) : Prop := [] ∉ watch ∧ watch.Pairwise Apart

instance (watch : List Str) : Decidable (NonOverlapping watch) :=
  inferInstanceAs (Decidable (_ ∧ _))

/-- The facts below the prefixes of a watch list. -/
def visible (watch : List Str) (facts : List Fact) : List Fact :=
  facts.filter (fun fact => watch.any (fun scanPrefix => fact.key.hasPrefix scanPrefix))

variable {fact : Fact}

theorem mem_visible {watch : List Str} {facts : List Fact} : fact ∈ visible watch facts ↔
      fact ∈ facts ∧ ∃ scanPrefix ∈ watch, scanPrefix <+: fact.key := by
  simp only [visible, List.mem_filter, List.any_eq_true, Str.hasPrefix_iff]

theorem keySorted_visible {watch : List Str} {facts : List Fact} (h : KeySorted facts) :
    KeySorted (visible watch facts) :=
  List.Pairwise.sublist List.filter_sublist h

/-! ## The runner's scan -/

theorem scanFactsForController_quiet {store : MemoryStore} (hopen : store.isClosed = false)
    (hvalid : store.table.Valid) (watch : List Str) :
    scanFactsForController store watch (fun _ => []) =
      (store, .ok (watch.flatMap store.table.scanned)) := by
  induction watch with
  | nil => rfl
  | cons scanPrefix rest ih =>
    rw [scanFactsForController]
    simp only [show store.run [] = store from rfl, MemoryStore.scanWithRevision_eq hopen hvalid, ih]
    rfl

theorem sort_scanned_eq_visible {table : FactTable} (hvalid : table.Valid) {watch : List Str}
    (hwatch : NonOverlapping watch) (order : SliceSort factLess) :
    order.sort (watch.flatMap table.scanned) = visible watch table.allFacts := by
  have hsorted : KeySorted (visible watch table.allFacts) :=
    keySorted_visible hvalid.keySorted_allFacts
  apply order.sort_eq
  · refine (List.perm_ext_iff_of_nodup (FactTable.nodup_of_keySorted hsorted) ?_).mpr ?_
    · rw [List.nodup_flatMap]
      refine ⟨fun scanPrefix _ =>
        FactTable.nodup_of_keySorted (hvalid.scanned_pairwise scanPrefix), ?_⟩
      refine hwatch.2.imp fun {first second} hapart fact hfirst hsecond => ?_
      exact hapart.not_isPrefix (hvalid.mem_scanned.mp hfirst).2.2
        (hvalid.mem_scanned.mp hsecond).2.2
    · intro fact
      simp only [mem_visible, hvalid.mem_allFacts, List.mem_flatMap, hvalid.mem_scanned]
      constructor
      · rintro ⟨hfact, scanPrefix, hmem, hpre⟩
        refine ⟨scanPrefix, hmem, fun hkey => ?_, hfact, hpre⟩
        rw [hkey, List.prefix_nil] at hpre
        exact hwatch.1 (hpre ▸ hmem)
      · rintro ⟨scanPrefix, hmem, -, hfact, hpre⟩
        exact ⟨hfact, scanPrefix, hmem, hpre⟩
  · exact hsorted.imp fun hlt => by simpa [factLess] using hlt
  · intro first second hless
    simp only [factLess, decide_eq_true_eq, decide_eq_false_iff_not, List.not_lt] at hless ⊢
    exact List.le_of_lt hless

/-- The facts the runner hands to a controller with a watch list, when nobody
else writes. -/
def scannedFacts (order : SliceSort factLess) (store : MemoryStore) (watch : List Str) :
    List Fact :=
  match (scanFactsForController store watch (fun _ => [])).2 with
  | .ok facts => order.sort facts
  | .error _ => []

section

variable {store : MemoryStore} (hopen : store.isClosed = false) (hvalid : store.table.Valid)
  (order : SliceSort factLess)
include hopen hvalid

theorem scannedFacts_eq_sort (watch : List Str) :
    scannedFacts order store watch = order.sort (watch.flatMap store.table.scanned) := by
  rw [scannedFacts, scanFactsForController_quiet hopen hvalid]

theorem scannedFacts_eq_visible {watch : List Str} (hwatch : NonOverlapping watch) :
    scannedFacts order store watch = visible watch store.table.allFacts := by
  rw [scannedFacts_eq_sort hopen hvalid]
  exact sort_scanned_eq_visible hvalid hwatch order

end

/-! ## Reading the visible facts -/

variable {pre : Str}

section

variable {watch : List Str} {facts : List Fact}

theorem filter_visible (hmem : pre ∈ watch) :
    (visible watch facts).filter (fun fact => fact.key.hasPrefix pre) =
      facts.filter (fun fact => fact.key.hasPrefix pre) := by
  rw [visible, List.filter_filter]
  refine List.filter_congr fun fact _ => ?_
  by_cases hpre : fact.key.hasPrefix pre = true
  · rw [hpre, Bool.true_and, List.any_eq_true]
    exact ⟨pre, hmem, hpre⟩
  · simp [hpre]

theorem factsWithPrefix_visible (hsorted : KeySorted facts) (hmem : pre ∈ watch) (hne : pre ≠ []) :
    factsWithPrefix (visible watch facts) pre = factsWithPrefix facts pre := by
  rw [factsWithPrefix_eq_filter (keySorted_visible hsorted) hne,
    factsWithPrefix_eq_filter hsorted hne, filter_visible hmem]

theorem factsWithPrefix_visible_eq_nil (hsorted : KeySorted facts) (hne : pre ≠ [])
    (hapart : ∀ scanPrefix ∈ watch, Apart scanPrefix pre) :
    factsWithPrefix (visible watch facts) pre = [] := by
  rw [factsWithPrefix_eq_filter (keySorted_visible hsorted) hne, List.filter_eq_nil_iff]
  intro _ hfact hpre
  obtain ⟨-, scanPrefix, hmem, hscan⟩ := mem_visible.mp hfact
  exact (hapart scanPrefix hmem).not_isPrefix hscan (Str.hasPrefix_iff.mp hpre)

section Table

variable {table : FactTable} (hvalid : table.Valid) (hwatch : NonOverlapping watch)
  {scan : Str} (hscan : scan ∈ watch)

include hvalid hwatch hscan

theorem keySorted_watched : KeySorted (factsWithPrefix (visible watch table.allFacts) scan) := by
  have hne : scan ≠ [] := fun hnil => hwatch.1 (hnil ▸ hscan)
  rw [factsWithPrefix_eq_filter (keySorted_visible hvalid.keySorted_allFacts) hne]
  exact List.Pairwise.sublist List.filter_sublist (keySorted_visible hvalid.keySorted_allFacts)

theorem mem_watched : fact ∈ factsWithPrefix (visible watch table.allFacts) scan ↔
      table.facts fact.key = some fact ∧ scan <+: fact.key := by
  have hne : scan ≠ [] := fun hnil => hwatch.1 (hnil ▸ hscan)
  rw [factsWithPrefix_visible hvalid.keySorted_allFacts hscan hne,
    factsWithPrefix_eq_filter hvalid.keySorted_allFacts hne, List.mem_filter,
    hvalid.mem_allFacts, Str.hasPrefix_iff]

theorem watched_eq_scanned :
    factsWithPrefix (visible watch table.allFacts) scan = table.scanned scan := by
  refine FactTable.eq_of_keySorted (keySorted_watched hvalid hwatch hscan)
    (hvalid.scanned_pairwise scan) fun fact => ?_
  rw [mem_watched hvalid hwatch hscan, hvalid.mem_scanned]
  refine ⟨fun ⟨hfact, hstarts⟩ => ⟨fun hnil => hwatch.1 ?_, hfact, hstarts⟩, fun h => h.2⟩
  rw [hnil, List.prefix_nil] at hstarts
  exact hstarts ▸ hscan

theorem exists_watched_iff {key value : Str} :
    (∃ fact ∈ factsWithPrefix (visible watch table.allFacts) scan,
      fact.key = key ∧ fact.value = value) ↔ scan <+: key ∧ table.value key = some value := by
  rw [watched_eq_scanned hvalid hwatch hscan]
  exact hvalid.exists_scanned_iff fun hnil => hwatch.1 (hnil ▸ hscan)

end Table

theorem factsWithPrefix_congr {first second : FactTable} (hfirst : first.Valid)
    (hsecond : second.Valid) (hwatch : NonOverlapping watch) {scan : Str} (hscan : scan ∈ watch)
    (hsame : ∀ key, scan <+: key → first.facts key = second.facts key) :
    factsWithPrefix (visible watch first.allFacts) scan =
      factsWithPrefix (visible watch second.allFacts) scan := by
  apply FactTable.eq_of_keySorted (keySorted_watched hfirst hwatch hscan)
    (keySorted_watched hsecond hwatch hscan)
  intro fact
  rw [mem_watched hfirst hwatch hscan, mem_watched hsecond hwatch hscan]
  refine and_congr_left fun hstarts => ?_
  rw [hsame fact.key hstarts]

variable {ν : Type} (parse : Str → Option ν)

theorem collectByMiddleSegment_filter (pre suffix : Str) (facts : List Fact) :
    collectByMiddleSegment parse pre suffix (facts.filter fun fact => fact.key.hasPrefix pre) =
      collectByMiddleSegment parse pre suffix facts := by
  unfold collectByMiddleSegment
  rw [List.foldl_filter]
  congr 1
  funext collected fact
  by_cases hpre : fact.key.hasPrefix pre = true <;> simp [hpre]

theorem collectByMiddleSegment_visible (suffix : Str) (hmem : pre ∈ watch) :
    collectByMiddleSegment parse pre suffix (visible watch facts) =
      collectByMiddleSegment parse pre suffix facts := by
  rw [← collectByMiddleSegment_filter, filter_visible hmem, collectByMiddleSegment_filter]

theorem collectByMiddleSegment_visible_eq_empty (suffix : Str)
    (hapart : ∀ scanPrefix ∈ watch, Apart scanPrefix pre) :
    collectByMiddleSegment parse pre suffix (visible watch facts) = ∅ := by
  rw [← collectByMiddleSegment_filter, List.filter_eq_nil_iff.mpr, collectByMiddleSegment,
    List.foldl_nil]
  intro _ hfact hpre
  obtain ⟨-, scanPrefix, hmem, hscan⟩ := mem_visible.mp hfact
  exact (hapart scanPrefix hmem).not_isPrefix hscan (Str.hasPrefix_iff.mp hpre)

end

/-! ## The eviction controller's view -/

namespace EvictionController

/-- The changes of a cycle for a given set of pressure markers. -/
def changesUnder (facts : List Fact) (existingPressure : Map Bool) : List Change :=
  (sortedNodeIDs (extractNodeMemoryCapacity facts) (extractNodeMemoryAvailable facts)).flatMap
    (evictionNodeChanges (extractNodeMemoryCapacity facts) (extractNodeMemoryAvailable facts)
      (evictionInputs facts) existingPressure)

theorem mem_changesUnder {facts : List Fact} {existingPressure : Map Bool} {change : Change} :
    change ∈ changesUnder facts existingPressure ↔ ∃ nodeID capacityBytes availableBytes,
        (extractNodeMemoryCapacity facts).lookup nodeID = some capacityBytes ∧
        (extractNodeMemoryAvailable facts).lookup nodeID = some availableBytes ∧
        capacityBytes ≠ 0 ∧ change ∈ reconcileNodePressure nodeID
          (calculateMemoryUtilizationPercent capacityBytes availableBytes) capacityBytes
          availableBytes (evictionInputs facts) existingPressure := by
  rw [changesUnder, List.mem_flatMap]
  constructor
  · rintro ⟨nodeID, -, hchange⟩
    unfold evictionNodeChanges at hchange
    split at hchange
    next _ _ hcapacity havailable =>
      split at hchange
      next => cases hchange
      next hnonzero => exact ⟨nodeID, _, _, hcapacity, havailable, hnonzero, hchange⟩
    next => cases hchange
  · rintro ⟨nodeID, _, _, hcapacity, havailable, hnonzero, hchange⟩
    refine ⟨nodeID, mem_sortedNodeIDs.mpr (Or.inl (Map.mem_keys_of_lookup hcapacity)), ?_⟩
    simp only [evictionNodeChanges, hcapacity, havailable, if_neg hnonzero]
    exact hchange

theorem reconcile_visible {facts : List Fact} :
    reconcile (visible watch facts) = changesUnder facts ∅ := by
  have hread : ∀ {ν : Type} (parse : Str → Option ν) (pre suffix : Str), pre ∈ watch →
      collectByMiddleSegment parse pre suffix (visible watch facts) =
        collectByMiddleSegment parse pre suffix facts :=
    fun parse pre suffix hmem => collectByMiddleSegment_visible parse suffix hmem
  have hpressure : extractExistingNodePressure (visible watch facts) = ∅ :=
    collectByMiddleSegment_visible_eq_empty _ _ (by decide)
  have hinputs : evictionInputs (visible watch facts) = evictionInputs facts := by
    simp only [evictionInputs, extractInstanceNodeMapping, extractInstanceServiceMapping,
      extractInstanceStates_eq, extractServiceQoSClasses, extractServiceMemoryRequests,
      extractServicePrioritiesFromFacts, hread _ (lit "observed/instance/") _ (by decide),
      hread _ (lit "derived/service/") _ (by decide),
      hread _ (lit "desired/service/") _ (by decide),
      hread _ (lit "effective/service/") _ (by decide)]
  have hcapacity : extractNodeMemoryCapacity (visible watch facts) =
      extractNodeMemoryCapacity facts := hread _ _ _ (by decide)
  have havailable : extractNodeMemoryAvailable (visible watch facts) =
      extractNodeMemoryAvailable facts := hread _ _ _ (by decide)
  rw [reconcile, hcapacity, havailable, hinputs, hpressure, changesUnder]

end EvictionController

end CCattler.Controllers
