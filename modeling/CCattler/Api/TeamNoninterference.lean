import CCattler.Api.State

/-! # What a team reader can learn about other teams

Two stores look the same to a reader with team scopes exactly if every key at which
they differ is hidden. The filter goes by the name in a key below `desired/service/`,
which is not how ownership is decided.
-/

namespace CCattler.Api

open Go Store Security Tenant CCattler.Types List Handler

/-! ## Grants and ownership -/

section

variable (authorizer : APIAuthorizer) (principal : Principal)

/-- The principal holds a grant to read workloads at the scope. -/
def ReadsAt (scope : Scope) : Prop :=
  principal.name ≠ [] ∧
    ∃ grant, (APIAuthorizer.Holds authorizer.bootstrapGrants principal.string grant ∨
        APIAuthorizer.Holds authorizer.grants principal.string grant) ∧
      (grant.capability = capabilityWorkloadRead ∨ grant.capability = capabilityClusterAdmin) ∧
      grant.scope = scope

/-- Every grant to read workloads is for a team. -/
def TeamScopesOnly : Prop :=
  ∀ scope, ReadsAt authorizer principal scope → ∃ teamName, scope = teamScope teamName

/-- The principal may read for the team. -/
def ReadsTeam (teamName : Str) : Prop :=
  ReadsAt authorizer principal (teamScope teamName) ∧ teamName ≠ [] ∧ Str.slash ∉ teamName

end

/-- The owner that the service declares, or else the one in its name. -/
def serviceOwner (table : FactTable) (serviceName : Str) : Str :=
  let explicitOwner := (table.value (keyDesiredServiceOwner serviceName)).getD []
  if explicitOwner ≠ [] then explicitOwner else extractTenantFromName serviceName

variable (authorizer : APIAuthorizer)

variable (principal : Principal)

/-- The service belongs to a team that the principal may not read for. -/
def OwnedOutside (table : FactTable) (serviceName : Str) : Prop :=
  serviceOwner table serviceName ≠ [] ∧
    ¬ ReadsTeam authorizer principal (serviceOwner table serviceName)

/-- The prefixes of the facts about services. -/
def serviceScopedPrefixes : List Str :=
  [scanDesiredServices, lit "intent/user/service/", lit "intent/autoscaler/service/",
    scanEffectiveServices, scanDerivedServices, scanEndpoints]

variable (key : Str)

/-- The key is a field of the service. -/
def AboutService (serviceName : Str) : Prop :=
  ∃ scan ∈ serviceScopedPrefixes, ∃ field, key = fieldKey scan serviceName field

/-- The stores differ in nothing but facts about services of other teams. -/
def DifferOutside (first second : FactTable) : Prop :=
  ∀ key, first.facts key ≠ second.facts key → ∃ serviceName, AboutService key serviceName ∧
      OwnedOutside authorizer principal first serviceName ∧
      OwnedOutside authorizer principal second serviceName

/-! ## What the reader is shown -/

/-- The tenant that the filter takes a key of a service to belong to. -/
def tenantOfKey : Str :=
  extractTenantFromName (extractServiceNameFromPath (key.trimPrefix scanDesiredServices))

/-- The filter hides the key from the principal. -/
def Hidden (key : Str) : Prop :=
  isReadableFactKey key = false ∨ (∀ teamName, ¬ ReadsTeam authorizer principal teamName) ∨
    (scanDesiredServices <+: key ∧ ¬ ReadsTeam authorizer principal (tenantOfKey key))

/-- What a response says about a key. -/
def factShown (table : FactTable) (key : Str) : Option FactResponse :=
  (table.facts key).map FactResponse.ofFact

/-- The request for the state below a prefix. -/
def scanRequest (scanPrefix : Str) : Request Unit :=
  ⟨.get, fun name => if name = lit "prefix" then scanPrefix else [], principal, .error .unreadable⟩

section

variable (authorizer : APIAuthorizer) (order : IterationOrder) (principal : Principal)
  (scanPrefix : Str)

def scanResponse (table : ValidTable) : Except Response Response :=
  (((Server.mk (some authorizer)).handleState order (scanRequest principal scanPrefix)).runOn
    table).1

/-- What is sent to a watch of a prefix when its channel delivers the events. -/
def watchResponse (connection : WatchConnection) (table : ValidTable) (events : List Event) :
    Except Response (List Json) :=
  (((Server.mk (some authorizer)).handleWatch order (scanRequest principal scanPrefix)
    connection).runOn table).1.map (fun stream => stream events)

end

section

variable (authorizer : APIAuthorizer) (principal : Principal)

/-- Every scan is answered alike, in whatever order maps are walked. -/
def SameScans (first second : ValidTable) : Prop :=
  ∀ order other scanPrefix, scanResponse authorizer order principal scanPrefix first =
    scanResponse authorizer other principal scanPrefix second

/-- Every watch is sent the same for the two sequences of events. -/
def SameStreams (first second : List Event) : Prop :=
  ∀ order other scanPrefix connection table later,
    watchResponse authorizer order principal scanPrefix connection table first =
      watchResponse authorizer other principal scanPrefix connection later second

end

/-- The events without those about a set of keys. -/
def purge (outside : Str → Bool) (events : List Event) : List Event :=
  events.filter (fun event => !outside event.fact.key)

variable {visibility : WorkloadVisibility} {scanPrefix : Str}

namespace TeamNoninterference

/-! ## The teams of a reader -/

theorem teamOfScope_eq_some_iff {scope : Scope} {teamName : Str} :
    teamOfScope scope = some teamName ↔
      scope = teamScope teamName ∧ teamName ≠ [] ∧ Str.slash ∉ teamName := by
  unfold teamOfScope teamScope
  rw [Option.filter_eq_some_iff, Str.cutPrefix_eq_some_iff]
  simp

theorem collectTeams_spec {scopes : List Scope} (hcluster : scopeCluster ∉ scopes)
    (teamSet : Map Bool) :
    (collectTeams teamSet scopes).allTeams = false ∧
      (collectTeams teamSet scopes).teams.Pairwise (· < ·) ∧
      ∀ teamName, teamName ∈ (collectTeams teamSet scopes).teams ↔
        teamName ∈ teamSet.keys ∨ ∃ scope ∈ scopes, teamOfScope scope = some teamName := by
  induction scopes generalizing teamSet with
  | nil =>
    refine ⟨rfl, teamSet.sortedKeys_pairwise, fun teamName => ?_⟩
    simp [collectTeams, Map.mem_sortedKeys]
  | cons scope rest ih =>
    obtain ⟨hscope, hrest⟩ := not_or.mp (mt mem_cons.mpr hcluster)
    rw [collectTeams, if_neg (Ne.symm hscope)]
    cases hteam : teamOfScope scope with
    | none =>
      obtain ⟨hall, hsorted, hmem⟩ := ih hrest teamSet
      refine ⟨hall, hsorted, fun teamName => (hmem teamName).trans ?_⟩
      simp [hteam]
    | some found =>
      obtain ⟨hall, hsorted, hmem⟩ := ih hrest (teamSet.set found true)
      refine ⟨hall, hsorted, fun teamName => (hmem teamName).trans ?_⟩
      rw [Map.mem_keys_set]
      simp only [mem_cons, exists_eq_or_imp, hteam, Option.some.injEq]
      rw [eq_comm (a := teamName), or_comm (a := found = teamName), or_assoc]

/-- What a principal may see under an authorizer. -/
def viewOf (order : IterationOrder) (principal : Principal) : WorkloadVisibility :=
  resolveWorkloadVisibility (some authorizer) order principal

variable {authorizer : APIAuthorizer} {principal : Principal}

/-- A team-scoped principal sees exactly its teams. -/
theorem visibility_spec (hteams : TeamScopesOnly authorizer principal) (order : IterationOrder) :
    (viewOf authorizer order principal).allTeams = false ∧
      (viewOf authorizer order principal).teams.Pairwise (· < ·) ∧
      ∀ teamName, teamName ∈ (viewOf authorizer order principal).teams ↔
        ReadsTeam authorizer principal teamName := by
  have hscopes : ∀ scope, scope ∈ authorizer.grantedScopes order principal capabilityWorkloadRead ↔
        ReadsAt authorizer principal scope := fun scope => APIAuthorizer.mem_grantedScopes
  have hcluster : scopeCluster ∉
      authorizer.grantedScopes order principal capabilityWorkloadRead := by
    intro hmem
    obtain ⟨teamName, hscope⟩ := hteams _ ((hscopes _).mp hmem)
    cases hscope
  obtain ⟨hall, hsorted, hmem⟩ := collectTeams_spec hcluster ∅
  refine ⟨hall, hsorted, fun teamName => (hmem teamName).trans ?_⟩
  constructor
  · rintro (hnone | ⟨scope, hscope, hteam⟩)
    · cases hnone
    · obtain ⟨rfl, hname⟩ := teamOfScope_eq_some_iff.mp hteam
      exact ⟨(hscopes _).mp hscope, hname⟩
  · intro hreads
    exact Or.inr ⟨_, (hscopes _).mpr hreads.1, teamOfScope_eq_some_iff.mpr ⟨rfl, hreads.2⟩⟩

theorem visibility_order_irrelevant (hteams : TeamScopesOnly authorizer principal)
    (order other : IterationOrder) :
    viewOf authorizer order principal = viewOf authorizer other principal := by
  obtain ⟨_, hsorted, hmem⟩ := visibility_spec hteams order
  obtain ⟨_, hsorted', hmem'⟩ := visibility_spec hteams other
  have hsame : (viewOf authorizer order principal).teams =
      (viewOf authorizer other principal).teams :=
    hsorted.eq_of_mem_iff hsorted' fun teamName => (hmem teamName).trans (hmem' teamName).symm
  generalize viewOf authorizer order principal = first at *
  generalize viewOf authorizer other principal = second at *
  cases first
  cases second
  simp_all

/-- The key test shared by the scan and the stream. -/
def passes (visibility : WorkloadVisibility) (key : Str) : Bool :=
  isReadableFactKey key && visibility.allowsFactKey key

theorem passes_eq_false_iff (hteams : TeamScopesOnly authorizer principal)
    (order : IterationOrder) (key : Str) :
    passes (viewOf authorizer order principal) key = false ↔ Hidden authorizer principal key := by
  obtain ⟨hall, -, hmem⟩ := visibility_spec hteams order
  have hvisible : (viewOf authorizer order principal).allowsFactKey key = false ↔
      (∀ teamName, ¬ ReadsTeam authorizer principal teamName) ∨
        (scanDesiredServices <+: key ∧ ¬ ReadsTeam authorizer principal (tenantOfKey key)) := by
    rw [WorkloadVisibility.allowsFactKey, hall, Bool.false_or, isFactVisibleToTeams, any_eq_false]
    by_cases hstarts : scanDesiredServices <+: key
    · have htest : ∀ teamName, isFactVisibleToTenant key teamName = true ↔
          tenantOfKey key = teamName := fun teamName => by
        rw [isFactVisibleToTenant, if_pos (Str.hasPrefix_iff.mpr hstarts), beq_iff_eq]
        rfl
      simp only [htest, hmem, hstarts, true_and]
      constructor
      · intro h
        exact Or.inr fun hreads => h _ hreads rfl
      · rintro (hnone | hother) teamName hreads rfl
        · exact hnone _ hreads
        · exact hother hreads
    · have htest : ∀ teamName, isFactVisibleToTenant key teamName = true := fun teamName => by
        rw [isFactVisibleToTenant, if_neg (mt Str.hasPrefix_iff.mp hstarts)]
      simp only [htest, hmem, hstarts, false_and, or_false, not_true_eq_false]
  rw [passes, Bool.and_eq_false_iff, hvisible]
  rfl

/-! ## Scans -/

/-- The facts that a scan shows. -/
def factsShown (visibility : WorkloadVisibility) (scanPrefix : Str) (table : FactTable) :
    List FactResponse :=
  ((table.scanned scanPrefix).filter (fun fact => passes visibility fact.key)).map
    FactResponse.ofFact

/-- The facts a filtered scan shows. -/
theorem mem_factsShown {table : FactTable} (hvalid : table.Valid) {response : FactResponse} :
    response ∈ factsShown visibility scanPrefix table ↔
      factShown table response.key = some response ∧ scanPrefix <+: response.key ∧
        passes visibility response.key = true := by
  rw [factsShown, mem_map, factShown, Option.map_eq_some_iff]
  simp only [mem_filter, hvalid.mem_scanned]
  constructor
  · rintro ⟨fact, ⟨⟨-, hfact, hstarts⟩, hpasses⟩, rfl⟩
    exact ⟨⟨fact, hfact, rfl⟩, hstarts, hpasses⟩
  · rintro ⟨⟨fact, hfact, rfl⟩, hstarts, hpasses⟩
    refine ⟨fact, ⟨⟨?_, hfact, hstarts⟩, hpasses⟩, rfl⟩
    intro hnil
    rw [passes, Bool.and_eq_true] at hpasses
    have hreadable : isReadableFactKey fact.key = true := hpasses.1
    rw [hnil] at hreadable
    cases hreadable

theorem factsShown_pairwise {table : FactTable} (hvalid : table.Valid) :
    (factsShown visibility scanPrefix table).Pairwise
      (fun earlier later => earlier.key < later.key) := by
  rw [factsShown, pairwise_map]
  exact (hvalid.scanned_pairwise scanPrefix).filter _

/-- Two scans show the same if the stores show the same at every key that passes. -/
theorem factsShown_eq_iff {first second : FactTable} (hfirst : first.Valid)
    (hsecond : second.Valid) :
    factsShown visibility scanPrefix first = factsShown visibility scanPrefix second ↔
      ∀ key, scanPrefix <+: key → passes visibility key = true →
        factShown first key = factShown second key := by
  have keyed : ∀ {table : FactTable}, table.Valid → ∀ {key : Str} {response : FactResponse},
      factShown table key = some response → response.key = key := by
    intro table hvalid key response hshown
    obtain ⟨_, hfact, rfl⟩ := Option.map_eq_some_iff.mp hshown
    exact hvalid.stamped.key_eq hfact
  constructor
  · intro heq key hstarts hpasses
    have hsame : ∀ response, factShown first key = some response ↔
        factShown second key = some response := by
      intro response
      have hmem : response ∈ factsShown visibility scanPrefix first ↔
          response ∈ factsShown visibility scanPrefix second := by rw [heq]
      rw [mem_factsShown hfirst, mem_factsShown hsecond] at hmem
      constructor
      · intro hshown
        obtain rfl := keyed hfirst hshown
        exact (hmem.mp ⟨hshown, hstarts, hpasses⟩).1
      · intro hshown
        obtain rfl := keyed hsecond hshown
        exact (hmem.mpr ⟨hshown, hstarts, hpasses⟩).1
    exact Option.ext hsame
  · intro hsame
    refine (factsShown_pairwise hfirst).eq_of_mem_iff (factsShown_pairwise hsecond) ?_
    intro response
    rw [mem_factsShown hfirst, mem_factsShown hsecond]
    refine and_congr_left fun hkey => ?_
    rw [hsame _ hkey.1 hkey.2]

theorem json_injective : Function.Injective FactResponse.json := by
  rintro ⟨_, _, _⟩ ⟨_, _, _⟩ h
  simpa [FactResponse.json] using h

theorem runOn_scan (hall : visibility.allTeams = false) (scanPrefix : Str) (table : ValidTable) :
    (visibility.scan scanPrefix).runOn table =
      (.ok ((table.scanned scanPrefix).filter (fun fact => visibility.allowsFactKey fact.key)),
        table) := by
  have hallows : visibility.allowsFactKey = fun key =>
      isFactVisibleToTeams key visibility.teams := by
    funext key
    rw [WorkloadVisibility.allowsFactKey, hall, Bool.false_or]
  rw [WorkloadVisibility.scan, hall, hallows]
  rfl

/-- A readable prefix is answered with the facts shown. -/
theorem runOn_handleStatePrefix (hall : visibility.allTeams = false) (table : ValidTable)
    (hreadable : isReadableStatePrefix scanPrefix = true) :
    ((handleStatePrefix visibility scanPrefix).runOn table).1 =
      .ok (.ok (some (.array ((factsShown visibility scanPrefix table.toFactTable).map
        FactResponse.json)))) := by
  have hne : scanPrefix ≠ [] := by
    rintro rfl
    exact absurd hreadable (by decide)
  rw [handleStatePrefix, if_neg hne, hreadable]
  simp only [Bool.not_true, Bool.false_eq_true, if_false, runOn_bind, runOn_scan hall,
    filterReadableFacts, filter_filter, factsShown, map_map]
  rfl

theorem handleStatePrefix_of_not_readable (hreadable : isReadableStatePrefix scanPrefix = false)
    (first second : ValidTable) :
    ((handleStatePrefix visibility scanPrefix).runOn first).1 =
      ((handleStatePrefix visibility scanPrefix).runOn second).1 := by
  by_cases hempty : scanPrefix = []
  · subst hempty
    rfl
  · rw [handleStatePrefix, if_neg hempty, hreadable]
    rfl

variable (order : IterationOrder)

theorem requireWorkloadVisibility_eq (request : Request Unit) :
    (Server.mk (some authorizer)).requireWorkloadVisibility order request =
      if (viewOf authorizer order request.principal).isEmpty then
        .error (.error statusForbidden (lit "forbidden: no workload.read grant at any scope"))
      else .ok (viewOf authorizer order request.principal) := rfl

theorem scanResponse_eq (scanPrefix : Str) (table : ValidTable) :
    scanResponse authorizer order principal scanPrefix table =
      if (viewOf authorizer order principal).isEmpty then
        .error (.error statusForbidden (lit "forbidden: no workload.read grant at any scope"))
      else ((handleStatePrefix (viewOf authorizer order principal) scanPrefix).runOn table).1 := by
  have hkey : (lit "key" = lit "prefix") = False := by decide
  unfold scanResponse Server.handleState
  simp only [scanRequest, ne_eq, not_true_eq_false, if_false, if_true, hkey, runOn_bind,
    runOn_lift, requireWorkloadVisibility_eq]
  cases hempty : (viewOf authorizer order principal).isEmpty with
  | true => simp only [if_true]
  | false => simp

theorem sameScans_iff (hteams : TeamScopesOnly authorizer principal) (first second : ValidTable) :
    SameScans authorizer principal first second ↔
      ∀ key, factShown first.toFactTable key ≠ factShown second.toFactTable key →
        Hidden authorizer principal key := by
  constructor
  · intro hsame key hdiffers
    let order : IterationOrder := .identity
    rw [← passes_eq_false_iff hteams order, Bool.eq_false_iff]
    intro hpasses
    apply hdiffers
    have hresponse := hsame order order key
    obtain ⟨hall, -, -⟩ := visibility_spec hteams order
    have hnonempty : (viewOf authorizer order principal).isEmpty = false := by
      rw [passes, WorkloadVisibility.allowsFactKey, hall, Bool.false_or, isFactVisibleToTeams,
        Bool.and_eq_true, any_eq_true] at hpasses
      obtain ⟨-, _, hteam, -⟩ := hpasses
      rw [WorkloadVisibility.isEmpty, hall, Bool.not_false, Bool.true_and, isEmpty_eq_false_iff]
      exact ne_nil_of_mem hteam
    have hreadable : isReadableStatePrefix key = true := by
      rw [passes, isReadableFactKey, Bool.and_eq_true, Bool.and_eq_true] at hpasses
      exact hpasses.1.1
    rw [scanResponse_eq, scanResponse_eq, hnonempty] at hresponse
    simp only [Bool.false_eq_true, if_false, runOn_handleStatePrefix hall _ hreadable,
      Except.ok.injEq, Response.ok.injEq, Option.some.injEq, Json.array.injEq,
      List.map_inj_right (fun _ _ => json_injective.eq_iff.mp)] at hresponse
    exact (factsShown_eq_iff first.valid second.valid).mp hresponse key (prefix_refl key) hpasses
  · intro hhidden order other scanPrefix
    rw [scanResponse_eq, scanResponse_eq, visibility_order_irrelevant hteams other order]
    obtain ⟨hall, -, -⟩ := visibility_spec hteams order
    split
    next => rfl
    next =>
      cases hreadable : isReadableStatePrefix scanPrefix with
      | false => exact handleStatePrefix_of_not_readable hreadable first second
      | true =>
        rw [runOn_handleStatePrefix hall _ hreadable, runOn_handleStatePrefix hall _ hreadable,
          (factsShown_eq_iff first.valid second.valid).mpr]
        intro key _ hpasses
        by_contra hdiffers
        have hnot := (passes_eq_false_iff hteams order key).mpr (hhidden key hdiffers)
        rw [hpasses] at hnot
        cases hnot

/-! ## Streams -/

theorem sent_eq_none_iff (visibility : WorkloadVisibility) (event : Event) :
    visibility.sent event = none ↔ passes visibility event.fact.key = false := by
  rw [WorkloadVisibility.sent, passes, ← Bool.not_and]
  cases isReadableFactKey event.fact.key && visibility.allowsFactKey event.fact.key <;> simp

theorem filterMap_filter_eq_iff {Item Shown : Type} (view : Item → Option Shown)
    (keep : Item → Bool) (items : List Item) :
    items.filterMap view = (items.filter keep).filterMap view ↔
      ∀ item ∈ items, keep item = false → view item = none := by
  induction items with
  | nil => simp
  | cons item rest ih =>
    have hlength : ((rest.filter keep).filterMap view).length ≤ (rest.filterMap view).length :=
      (filter_sublist.filterMap view).length_le
    rw [forall_mem_cons, ← ih, filterMap_cons]
    cases hkeep : keep item with
    | true =>
      rw [filter_cons_of_pos hkeep, filterMap_cons]
      cases hview : view item <;> simp
    | false =>
      rw [filter_cons_of_neg (by simp [hkeep])]
      cases hview : view item with
      | none => simp
      | some shown =>
        refine iff_of_false (fun heq => ?_) (by simp)
        rw [← heq, length_cons] at hlength
        omega

theorem setupWatchStream_table (request : Request Unit) (connection : WatchConnection)
    (first second : ValidTable) :
    ((setupWatchStream request connection).runOn first).1 =
      ((setupWatchStream request connection).runOn second).1 := by
  unfold setupWatchStream
  dsimp only
  split_ifs <;> rfl

theorem watchResponse_eq (scanPrefix : Str) (connection : WatchConnection) (table : ValidTable)
    (events : List Event) :
    watchResponse authorizer order principal scanPrefix connection table events =
      if (viewOf authorizer order principal).isEmpty then
        .error (.error statusForbidden (lit "forbidden: no workload.read grant at any scope"))
      else
        ((setupWatchStream (scanRequest principal scanPrefix) connection).runOn table).1.map
          (fun _ => streamWatchEventsAsSSE (viewOf authorizer order principal) events) := by
  unfold watchResponse Server.handleWatch
  simp only [scanRequest, ne_eq, not_true_eq_false, if_false, runOn_bind,
    runOn_lift, requireWorkloadVisibility_eq]
  cases hempty : (viewOf authorizer order principal).isEmpty with
  | true =>
    rfl
  | false =>
    simp only [Bool.false_eq_true, if_false]
    cases (setupWatchStream _ connection).runOn table with
    | mk outcome later => cases outcome <;> rfl

/-- Streams agree for a reader exactly if what is sent for its visibility agrees. -/
theorem sameStreams_iff (hteams : TeamScopesOnly authorizer principal) (first second : List Event)
    (order : IterationOrder) :
    SameStreams authorizer principal first second ↔
      streamWatchEventsAsSSE (viewOf authorizer order principal) first =
        streamWatchEventsAsSSE (viewOf authorizer order principal)
          second := by
  obtain ⟨hall, -, -⟩ := visibility_spec hteams order
  constructor
  · intro hsame
    cases hempty : (viewOf authorizer order principal).isEmpty with
    | false =>
      have hresponse := hsame order order (lit "desired") ⟨0, true⟩ ValidTable.new ValidTable.new
      rw [watchResponse_eq, watchResponse_eq, hempty] at hresponse
      exact Except.ok.inj hresponse
    | true =>
      -- a reader of no team is sent nothing
      have hnothing : ∀ events : List Event, streamWatchEventsAsSSE
          (viewOf authorizer order principal) events = [] := by
        intro events
        rw [WorkloadVisibility.isEmpty, hall, Bool.not_false, Bool.true_and,
          List.isEmpty_iff] at hempty
        rw [streamWatchEventsAsSSE, filterMap_eq_nil_iff]
        intro _ _
        rw [sent_eq_none_iff, passes, WorkloadVisibility.allowsFactKey, hall, hempty,
          Bool.false_or, isFactVisibleToTeams, any_nil, Bool.and_false]
      rw [hnothing, hnothing]
  · intro hsame other another _ _ table later
    rw [watchResponse_eq, watchResponse_eq, visibility_order_irrelevant hteams other order,
      visibility_order_irrelevant hteams another order, hsame,
      setupWatchStream_table _ _ table later]

theorem sameStreams_purge_iff (hteams : TeamScopesOnly authorizer principal)
    (outside : Str → Bool) (events : List Event) :
    SameStreams authorizer principal events (purge outside events) ↔
      ∀ event ∈ events, outside event.fact.key = true →
        Hidden authorizer principal event.fact.key := by
  let order : IterationOrder := .identity
  rw [sameStreams_iff hteams events (purge outside events) order, streamWatchEventsAsSSE,
    streamWatchEventsAsSSE, purge, filterMap_filter_eq_iff]
  simp only [Bool.not_eq_false', sent_eq_none_iff, passes_eq_false_iff hteams]

end TeamNoninterference

open TeamNoninterference in
/-- For a reader with team scopes, exactly the hidden keys make no difference to scans
and streams. -/
theorem team_reads_noninterfere_iff (authorizer : APIAuthorizer) (principal : Principal)
    (hteams : TeamScopesOnly authorizer principal) (first second : ValidTable)
    (outside : Str → Bool) (events others : List Event) :
    (SameScans authorizer principal first second ↔
      ∀ key, factShown first.toFactTable key ≠ factShown second.toFactTable key →
        Hidden authorizer principal key) ∧
    (SameStreams authorizer principal events (purge outside events) ↔
      ∀ event ∈ events, outside event.fact.key = true →
        Hidden authorizer principal event.fact.key) ∧
    (purge outside events = purge outside others →
      (∀ event ∈ events ++ others, outside event.fact.key = true →
        Hidden authorizer principal event.fact.key) →
      SameStreams authorizer principal events others) := by
  refine ⟨sameScans_iff hteams first second, sameStreams_purge_iff hteams outside events, ?_⟩
  intro hpurged hhidden
  let order : IterationOrder := .identity
  have hevents := (sameStreams_purge_iff hteams outside events).mpr fun event hevent =>
    hhidden event (mem_append_left _ hevent)
  have hothers := (sameStreams_purge_iff hteams outside others).mpr fun event hevent =>
    hhidden event (mem_append_right _ hevent)
  rw [sameStreams_iff hteams _ _ order] at hevents hothers ⊢
  rw [hevents, hpurged, ← hothers]

/-! ## A reader of one team -/

namespace TeamNoninterference

def reader : Principal := ⟨lit "user", lit "reader", [], []⟩

/-- `user:reader` may read for team `a`. -/
def teamReader : APIAuthorizer :=
  { APIAuthorizer.new with
    bootstrapGrants := Map.set ∅ (lit "user:reader")
      [⟨capabilityWorkloadRead, teamScope (lit "a")⟩] }

/-- A new store with one fact. -/
def storeWith (value : Str) : ValidTable := ValidTable.new.after (.put key value)

/-- The event of that fact. -/
def putEvent (value : Str) : Event := ⟨.put, ⟨key, value, 1, 1, 0⟩, none⟩

theorem scope_of_readsAt {scope : Scope} (h : ReadsAt teamReader reader scope) :
    scope = teamScope (lit "a") := by
  obtain ⟨-, grant, hheld, -, rfl⟩ := h
  rcases hheld with ⟨bound, -, hmem⟩ | ⟨bound, -, hmem⟩
  · have hkey : bound ∈ [lit "user:reader"] := Map.mem_keys_of_mem_get hmem
    obtain rfl := mem_singleton.mp hkey
    have hgrant : grant ∈ [(⟨capabilityWorkloadRead, teamScope (lit "a")⟩ : CapabilityGrant)] :=
      hmem
    rw [mem_singleton.mp hgrant]
  · cases hmem

theorem teamScopesOnly_teamReader : TeamScopesOnly teamReader reader :=
  fun _ hreads => ⟨lit "a", scope_of_readsAt hreads⟩

theorem not_readsTeam_b : ¬ ReadsTeam teamReader reader (lit "b") := fun hreads =>
  absurd (scope_of_readsAt hreads.1) (by decide)

theorem readsTeam_a : ReadsTeam teamReader reader (lit "a") := by
  refine ⟨⟨by decide, ⟨capabilityWorkloadRead, teamScope (lit "a")⟩, Or.inl ?_, Or.inl rfl, rfl⟩,
    by decide, by decide⟩
  exact ⟨lit "user:reader", Or.inl (by decide), mem_singleton.mpr rfl⟩

theorem facts_storeWith (key value other : Str) :
    (storeWith key value).facts other =
      if other = key then some ⟨key, value, 1, 1, 0⟩ else none := by
  by_cases h : other = key
  · subst h
    rw [if_pos rfl]
    exact Function.update_self _ _ _
  · rw [if_neg h]
    exact Function.update_of_ne h _ _

theorem key_of_facts_ne {key value other : Str}
    (h : ValidTable.new.facts other ≠ (storeWith key value).facts other) : other = key := by
  by_contra hne
  rw [facts_storeWith, if_neg hne] at h
  exact h rfl

end TeamNoninterference

open TeamNoninterference in
/-- The image of a service of team `b` does not show to a reader for team `a`. -/
theorem image_of_other_team_is_hidden : SameScans teamReader reader ValidTable.new
        (storeWith (lit "desired/service/b/api/image") (lit "api:1")) ∧
      SameStreams teamReader reader
        [putEvent (lit "desired/service/b/api/image") (lit "api:1")] [] := by
  have hhidden : Hidden teamReader reader (lit "desired/service/b/api/image") :=
    Or.inr (Or.inr ⟨by decide, by
      rw [show tenantOfKey (lit "desired/service/b/api/image") = lit "b" by decide]
      exact not_readsTeam_b⟩)
  obtain ⟨hscans, -, hstreams⟩ := team_reads_noninterfere_iff teamReader reader
    teamScopesOnly_teamReader ValidTable.new
    (storeWith (lit "desired/service/b/api/image") (lit "api:1")) (fun _ => true)
    [putEvent (lit "desired/service/b/api/image") (lit "api:1")] []
  refine ⟨hscans.mpr fun key hdiffers => ?_, hstreams rfl fun event hevent _ => ?_⟩
  · have hfacts : ValidTable.new.facts key ≠ _ := fun heq =>
      hdiffers (congrArg (Option.map FactResponse.ofFact) heq)
    rw [key_of_facts_ne hfacts]
    exact hhidden
  · rw [mem_singleton.mp hevent]
    exact hhidden

open TeamNoninterference in
/-- The effective instances of a service of team `b` do. -/
theorem effective_of_other_team_is_shown : TeamScopesOnly teamReader reader ∧
      DifferOutside teamReader reader FactTable.new
        (storeWith (lit "effective/service/b/api/instances") (lit "3")).toFactTable ∧
      ¬ SameScans teamReader reader ValidTable.new
        (storeWith (lit "effective/service/b/api/instances") (lit "3")) ∧
      ¬ SameStreams teamReader reader
        [putEvent (lit "effective/service/b/api/instances") (lit "3")] [] := by
  have hshown : ¬ Hidden teamReader reader (lit "effective/service/b/api/instances") := by
    rintro (hunreadable | hnone | ⟨hstarts, -⟩)
    · exact absurd hunreadable (by decide)
    · exact hnone _ readsTeam_a
    · exact absurd hstarts (by decide)
  have howner : ∀ table : FactTable, table.value (keyDesiredServiceOwner (lit "b/api")) = none →
      OwnedOutside teamReader reader table (lit "b/api") := by
    intro table hnone
    have hb : serviceOwner table (lit "b/api") = lit "b" := by
      rw [serviceOwner, hnone]
      decide
    rw [OwnedOutside, hb]
    exact ⟨by decide, not_readsTeam_b⟩
  refine ⟨teamScopesOnly_teamReader, ?_, ?_, ?_⟩
  · intro _ hdiffers
    refine ⟨lit "b/api", ⟨scanEffectiveServices, by decide, lit "instances", ?_⟩, howner _ rfl,
      howner _ ?_⟩
    · rw [key_of_facts_ne hdiffers]
      decide
    · rw [FactTable.value, facts_storeWith, if_neg (by decide)]
      rfl
  · rw [sameScans_iff teamScopesOnly_teamReader]
    intro hhidden
    refine hshown (hhidden _ ?_)
    exact fun heq => by cases heq
  · intro hsame
    have hhidden := (sameStreams_purge_iff teamScopesOnly_teamReader (fun _ => true)
      [putEvent (lit "effective/service/b/api/instances") (lit "3")]).mp hsame
    exact hshown (hhidden _ (mem_singleton.mpr rfl) rfl)

end CCattler.Api
