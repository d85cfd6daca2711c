import CCattler.Agent.Footprint

/-! # The secret material of a started instance

Mounts are built from the secrets that were delivered earlier and from what the
service is granted by then. A secret that was not delivered is passed over, and without
any no mount is built at all.
-/

namespace CCattler.NodeAgent

open Go Store Concurrency CCattler.Types CCattler.Controllers AgentProgram List Option
open Concurrency.Proc (ensures_pure ensures_request)
open Surroundings (calm journaled_of_calm)

/-! ## What is to be mounted -/

/-- The service is granted a secret of a valid name. -/
def GrantsSecret (table : ValidTable) (service secretName : Str) : Prop :=
  validateSecretName secretName ∧
    (table.value (scanDesiredServiceSecrets service ++ secretName)).isSome

/-- The service refers to a connection, to be mounted at a path. -/
def RefersTo (table : ValidTable) (service connectionName mountPath : Str) : Prop :=
  table.value (scanDesiredServiceConnections service ++ connectionName) = some mountPath

section

variable (table : ValidTable) (secretValues : Map Str) (connectionName : Str)

/-- The text of a connection file, empty if it cannot be put together. -/
def connectionURLOf : Str :=
  match table.value (keyDesiredConnection connectionName) with
  | none => []
  | some value => ((parseConnectionJSON value).url secretValues).getD []

/-- There is a definition from which a URL can be put together. -/
def HasURL : Prop :=
  ∃ value url, table.value (keyDesiredConnection connectionName) = some value ∧
    (parseConnectionJSON value).url secretValues = some url

end

variable {table : ValidTable} {secretValues : Map Str}

theorem connectionURLOf_ne_nil {connectionName : Str} :
    connectionURLOf table secretValues connectionName ≠ [] ↔
      HasURL table secretValues connectionName := by
  unfold connectionURLOf HasURL
  cases table.value (keyDesiredConnection connectionName) with
  | none => simp
  | some value =>
    dsimp only
    cases hurl : (parseConnectionJSON value).url secretValues with
    | none => simp [hurl]
    | some url =>
      refine ⟨fun _ => ⟨value, url, rfl, hurl⟩, fun _ => ?_⟩
      exact ConnectionDefinition.url_ne_nil hurl

/-- The mounts hold every granted secret and, at each usable mount path, the file
of the connection. -/
structure Provisioned (agent : Agent) (info : PlacedInstance) (table : ValidTable)
    (history : List (Sigma AgentReply)) (secretMounts : Map Str) : Prop where
  secrets : ∀ secretName, GrantsSecret table info.service secretName →
    ∃ materialDirectory, agent.secretMaterialDirectory = some materialDirectory ∧
      secretMounts.lookup (ccaSecretMountPrefix ++ secretName) =
        some (secretValuePath materialDirectory info.id secretName)
  connections : ∀ connectionName mountPath usablePath,
    RefersTo table info.service connectionName mountPath →
    resolveExplicitSecretMountPath mountPath = some usablePath →
    ∃ connectionURL hostPath,
      ⟨.writeConnectionFile info.id connectionName connectionURL, .ok hostPath⟩ ∈ history ∧
        secretMounts.lookup usablePath = some hostPath

/-- Nothing is granted, and no connection has a usable mount path. -/
structure NothingToMount (table : ValidTable) (service : Str) : Prop where
  secrets : ∀ secretName, ¬ GrantsSecret table service secretName
  connections : ∀ connectionName mountPath, RefersTo table service connectionName mountPath →
    resolveExplicitSecretMountPath mountPath = none

/-- Everything that is to be mounted is at hand. -/
structure CanMount (agent : Agent) (service : Str) (table : ValidTable) (secretValues : Map Str) :
    Prop where
  material : agent.secretMaterialDirectory.isSome
  values : secretValues.len ≠ 0
  delivered : ∀ secretName, GrantsSecret table service secretName → secretValues.has secretName
  usable : ∀ connectionName mountPath usablePath, RefersTo table service connectionName mountPath →
    resolveExplicitSecretMountPath mountPath = some usablePath →
      connectionName ≠ [] ∧ HasURL table secretValues connectionName
  apart : ∀ first second firstPath secondPath usablePath, RefersTo table service first firstPath →
    RefersTo table service second secondPath →
    resolveExplicitSecretMountPath firstPath = some usablePath →
    resolveExplicitSecretMountPath secondPath = some usablePath → first = second

/-! ## Secret mounts -/

section Mounts

variable {materialDirectory instanceID secretName : Str}
  {grantMountPaths secretValues secretMounts : Map Str}

section

variable {mountPath usablePath : Str}
  (h : resolveExplicitSecretMountPath mountPath = some usablePath)
include h

theorem not_isPrefix_of_resolve : ¬ ccaSecretMountPrefix <+: usablePath := by
  unfold resolveExplicitSecretMountPath at h
  split at h
  · cases h
  dsimp only at h
  split at h
  · cases h
  split at h
  · cases h
  next hforbidden =>
  cases h
  intro hprefix
  refine hforbidden (any_eq_true.mpr ⟨lit "/run/cca-secrets", by decide, ?_⟩)
  rw [Bool.or_eq_true]
  exact Or.inr (Str.hasPrefix_iff.mpr hprefix)

theorem resolve_ne_mount (secretName : Str) : ccaSecretMountPrefix ++ secretName ≠ usablePath := by
  intro heq
  exact not_isPrefix_of_resolve h (heq ▸ prefix_append _ _)

end

/-- One grant adds the mount of its own secret only. -/
theorem lookup_addSecretMount (granted : Str) :
    (addSecretMount materialDirectory instanceID grantMountPaths secretValues secretMounts
      granted).lookup (ccaSecretMountPrefix ++ secretName) =
        if secretValues.has granted ∧ secretName = granted then
          some (secretValuePath materialDirectory instanceID granted)
        else secretMounts.lookup (ccaSecretMountPrefix ++ secretName) := by
  have hset : (secretMounts.set (ccaSecretMountPrefix ++ granted)
      (secretValuePath materialDirectory instanceID granted)).lookup
        (ccaSecretMountPrefix ++ secretName) = if secretName = granted then
          some (secretValuePath materialDirectory instanceID granted)
        else secretMounts.lookup (ccaSecretMountPrefix ++ secretName) := by
    rw [Map.lookup_set]
    simp
  unfold addSecretMount
  by_cases hhas : secretValues.has granted
  · rw [if_pos hhas]
    simp only [hhas, true_and, ← hset]
    cases hresolve : resolveExplicitSecretMountPath (grantMountPaths.get granted []) with
    | none => rfl
    | some explicitMountPath =>
      rw [Map.lookup_set, if_neg (resolve_ne_mount hresolve secretName)]
  · rw [if_neg hhas, if_neg (fun h => hhas h.1)]

theorem lookup_foldl_addSecretMount (grantedNames : List Str) :
    (grantedNames.foldl (addSecretMount materialDirectory instanceID grantMountPaths secretValues)
      secretMounts).lookup (ccaSecretMountPrefix ++ secretName) =
        if secretValues.has secretName ∧ secretName ∈ grantedNames then
          some (secretValuePath materialDirectory instanceID secretName)
        else secretMounts.lookup (ccaSecretMountPrefix ++ secretName) := by
  induction grantedNames generalizing secretMounts with
  | nil => simp
  | cons granted rest ih =>
    rw [foldl_cons, ih, lookup_addSecretMount]
    by_cases hsame : secretName = granted
    · subst hsame
      by_cases hhas : secretValues.has secretName <;> simp [hhas]
    · simp [hsame]

end Mounts

/-! ## Connection files -/

variable {Result : Type} {entry : Sigma AgentReply}

section Connections

variable {journal : Journal} {instanceID : Str} {secretValues : Map Str}

/-- The URL is the one the stored facts spell. -/
theorem ensures_assembleConnectionURL (connectionName : Str) :
    (assembleConnectionURL connectionName secretValues).Ensures (journaled reliable)
      (fun url final => final.state = journal.state ∧
        url = connectionURLOf journal.state.table secretValues connectionName) journal := by
  refine (ensures_lookup_reliable _).seq fun found final ⟨hstate, hfound⟩ => ?_
  unfold connectionURLOf
  rw [← hfound]
  cases found with
  | none => exact ensures_pure ⟨hstate, rfl⟩
  | some value => exact ensures_pure ⟨hstate, rfl⟩

/-- The history holds the file that is mounted at a path, for one of the given
references. -/
def FileMounted (instanceID : Str) (refs : List (Str × Str)) (history : List (Sigma AgentReply))
    (secretMounts : Map Str) (usablePath : Str) : Prop :=
  ∃ ref ∈ refs, resolveExplicitSecretMountPath ref.2 = some usablePath ∧ ∃ connectionURL hostPath,
      ⟨.writeConnectionFile instanceID ref.1 connectionURL, .ok hostPath⟩ ∈ history ∧
        secretMounts.lookup usablePath = some hostPath

/-- The reference is passed over: it has no name or its URL cannot be put
together. -/
def Unwritable (table : ValidTable) (secretValues : Map Str) (connectionName : Str) : Prop :=
  connectionName = [] ∨ connectionURLOf table secretValues connectionName = []

/-- Every file in the history belongs to a connection that can be written. -/
def FilesWritable (table : ValidTable) (secretValues : Map Str)
    (history : List (Sigma AgentReply)) : Prop :=
  ∀ name connectionName connectionURL reply,
    ⟨.writeConnectionFile name connectionName connectionURL, reply⟩ ∈ history →
      ¬ Unwritable table secretValues connectionName

theorem FilesWritable.append {history : List (Sigma AgentReply)}
    (h : FilesWritable table secretValues history) (hentry : ∀ name connectionName connectionURL,
      entry.1 = .writeConnectionFile name connectionName connectionURL →
        ¬ Unwritable table secretValues connectionName) :
    FilesWritable table secretValues (history ++ [entry]) := by
  intro name connectionName connectionURL reply hmem
  rcases mem_append.mp hmem with hold | hnew
  · exact h name connectionName connectionURL reply hold
  · rw [← mem_singleton.mp hnew] at hentry
    exact hentry name connectionName connectionURL rfl

theorem ensures_filesWritable_of_reads {program : AgentProgram Result}
    [hcalls : Proc.Makes ReadsStore program]
    (h : FilesWritable table secretValues journal.history) :
    program.Ensures (journaled reliable)
      (fun _ final => FilesWritable table secretValues final.history) journal := by
  refine hcalls.calls.ensures ?_ h
  intro _ _ _ _ hcall hanswer hbefore
  rw [hanswer.2]
  refine hbefore.append fun name connectionName connectionURL hwrite => ?_
  subst hwrite
  exact hcall.elim

/-- At every path the loop leaves what was there, or it mounts a connection file. -/
def FilesAdded (table : ValidTable) (instanceID : Str) (secretValues secretMounts : Map Str)
    (refs : List (Str × Str)) (result : Except Str (Map Str)) (final : Journal) : Prop :=
  FilesWritable table secretValues final.history ∧
    ∀ mounts, result = .ok mounts → ∀ usablePath,
      (mounts.lookup usablePath = secretMounts.lookup usablePath ∧
        ∀ ref ∈ refs, resolveExplicitSecretMountPath ref.2 = some usablePath →
          Unwritable table secretValues ref.1) ∨
      FileMounted instanceID refs final.history mounts usablePath

/-- What the connection loop writes and mounts. -/
theorem ensures_addConnectionFiles (refs : List (Str × Str)) (secretMounts : Map Str)
    (h : FilesWritable table secretValues journal.history) (htable : journal.state.table = table) :
    (addConnectionFiles instanceID secretValues refs secretMounts).Ensures (journaled reliable)
      (FilesAdded table instanceID secretValues secretMounts refs) journal := by
  induction refs generalizing secretMounts journal with
  | nil =>
    refine ensures_pure ⟨h, fun mounts hmounts usablePath => Or.inl ?_⟩
    cases hmounts
    exact ⟨rfl, fun _ hmem => nomatch hmem⟩
  | cons ref rest ih =>
    refine ((ensures_assembleConnectionURL ref.1).and
      (ensures_filesWritable_of_reads h)).seq ?_
    intro url middle ⟨⟨hmiddle, hurl⟩, hwritable⟩
    rw [htable] at hurl
    have hskip (hunwritable : ∀ usablePath, resolveExplicitSecretMountPath ref.2 =
        some usablePath → Unwritable table secretValues ref.1) :
        (addConnectionFiles instanceID secretValues rest secretMounts).Ensures (journaled reliable)
          (FilesAdded table instanceID secretValues secretMounts (ref :: rest)) middle := by
      refine (ih secretMounts hwritable (by rw [hmiddle, htable])).mono fun result final hrest => ?_
      refine ⟨hrest.1, fun mounts hmounts usablePath => ?_⟩
      rcases hrest.2 mounts hmounts usablePath with ⟨hsame, hothers⟩ | ⟨other, hmem, hfile⟩
      · exact Or.inl ⟨hsame, forall_mem_cons.mpr ⟨hunwritable usablePath, hothers⟩⟩
      · exact Or.inr ⟨other, mem_cons_of_mem ref hmem, hfile⟩
    cases hresolve : resolveExplicitSecretMountPath ref.2 with
    | none => exact hskip fun _ hsome => by rw [hresolve] at hsome; cases hsome
    | some mountedPath =>
      dsimp only
      split
      next hempty =>
        rw [hurl] at hempty
        exact hskip fun _ _ => hempty
      next hwritten =>
        apply Proc.Ensures.bind
        apply ensures_request
        intro written after ⟨hstate, hhistory⟩
        have hafter : FilesWritable table secretValues after.history := by
          rw [hhistory]
          refine hwritable.append fun name connectionName connectionURL hwrite => ?_
          cases hwrite
          rw [hurl] at hwritten
          exact hwritten
        cases written with
        | error message => exact ensures_pure ⟨hafter, fun _ herror => nomatch herror⟩
        | ok hostPath =>
          intro result final hrun
          have hrest := ih (secretMounts.set mountedPath hostPath) hafter
            (by rw [show after.state = middle.state from hstate, hmiddle, htable]) result final hrun
          refine ⟨hrest.1, fun mounts hmounts usablePath => ?_⟩
          rcases hrest.2 mounts hmounts usablePath with ⟨hsame, hothers⟩ | ⟨other, hmem, hfile⟩
          · by_cases hpath : usablePath = mountedPath
            · -- the file that was just written stays mounted
              subst hpath
              rw [Map.lookup_set, if_pos rfl] at hsame
              refine Or.inr ⟨ref, mem_cons_self, hresolve, url, hostPath, ?_, hsame⟩
              refine hrun.mem_history ?_
              rw [hhistory]
              exact mem_append_right _ (mem_singleton_self _)
            · rw [Map.lookup_set, if_neg hpath] at hsame
              refine Or.inl ⟨hsame, forall_mem_cons.mpr ⟨fun hpath' => ?_, hothers⟩⟩
              rw [hresolve] at hpath'
              exact absurd (Option.some.inj hpath').symm hpath
          · exact Or.inr ⟨other, mem_cons_of_mem ref hmem, hfile⟩

end Connections

/-! ## Building the mounts -/

section Build

variable {journal : Journal} (agent : Agent) (info : PlacedInstance)

variable (service : Str)

theorem scanDesiredServiceSecrets_ne_nil : scanDesiredServiceSecrets service ≠ [] :=
  append_ne_nil_of_left_ne_nil (by decide) _

theorem scanDesiredServiceConnections_ne_nil : scanDesiredServiceConnections service ≠ [] :=
  append_ne_nil_of_left_ne_nil (by decide) _

theorem ensures_collectConnectionSecrets (names : List Str) :
    (collectConnectionSecrets names).Ensures (journaled reliable)
      (fun result final => final.state = journal.state ∧ ∃ found, result = .ok found) journal := by
  induction names generalizing journal with
  | nil => exact ensures_pure ⟨rfl, [], rfl⟩
  | cons name rest ih =>
    refine (ensures_get _).seq fun reply middle ⟨hmiddle, hreply⟩ => ?_
    rcases hreply with ⟨_, rfl, -⟩ | ⟨rfl, -⟩ | ⟨hfail, -⟩
    · refine ih.seq fun result final ⟨hfinal, found, hfound⟩ => ?_
      subst hfound
      exact ensures_pure ⟨hfinal.trans hmiddle.state, _, rfl⟩
    · refine ih.mono fun result final ⟨hfinal, hfound⟩ => ?_
      exact ⟨hfinal.trans hmiddle.state, hfound⟩
    · exact hfail.elim

theorem ensures_loadServiceSecretRequirements :
    (loadServiceSecretRequirements service).Ensures (journaled reliable)
      (fun result final => final.state = journal.state ∧ ∃ requirements,
        result = .ok requirements ∧ requirements.grantMountPaths = Map.ofPairs
          (validGrants service (journal.state.table.scanned (scanDesiredServiceSecrets service))))
      journal := by
  refine (ensures_scan _).seq fun grants first ⟨hfirst, hgrants⟩ => ?_
  obtain rfl := hgrants.resolve_right fun h => h.1
  apply Proc.Ensures.bind
  refine (ensures_scan _).seq fun refs second ⟨hsecond, hrefs⟩ => ?_
  obtain rfl := hrefs.resolve_right fun h => h.1
  refine (ensures_collectConnectionSecrets _).mono fun result third ⟨hthird, found, hfound⟩ => ?_
  subst hfound
  have hstate := hthird.trans (hfirst.trans hsecond).state
  refine (ensures_get _).seq fun pull fourth ⟨hfourth, hpull⟩ => ?_
  rcases hpull with ⟨_, rfl, -⟩ | ⟨rfl, -⟩ | ⟨hfail, -⟩
  · exact ensures_pure ⟨hfourth.state.trans hstate, _, rfl, rfl⟩
  · exact ensures_pure ⟨hfourth.state.trans hstate, _, rfl, rfl⟩
  · exact hfail.elim

theorem mem_grantedNames {service secretName : Str} : secretName ∈ (Map.ofPairs (validGrants service
        (table.scanned (scanDesiredServiceSecrets service)))).sortedKeys ↔
      GrantsSecret table service secretName := by
  rw [Map.mem_sortedKeys, Map.mem_keys_ofPairs]
  unfold validGrants GrantsSecret
  simp only [mem_filter, ValidTable.mem_scanned_pairs (scanDesiredServiceSecrets_ne_nil service),
    isSome_iff_exists]
  exact ⟨fun ⟨value, hvalue, hvalid⟩ => ⟨hvalid, value, hvalue⟩,
    fun ⟨hvalid, value, hvalue⟩ => ⟨value, hvalue, hvalid⟩⟩

/-- The references read are those the table holds. -/
theorem mem_connectionRefs {service connectionName mountPath : Str} :
    (connectionName, mountPath) ∈ (connectionNames service
        (table.scanned (scanDesiredServiceConnections service))).zip
          ((table.scanned (scanDesiredServiceConnections service)).map Fact.value) ↔
      RefersTo table service connectionName mountPath := by
  rw [connectionNames, zip_map', ValidTable.mem_scanned_pairs
    (scanDesiredServiceConnections_ne_nil service)]
  rfl

/-- What the mounts are, built from a store content and delivered secrets. -/
structure BuiltFrom (materialDirectory : Str) (info : PlacedInstance) (table : ValidTable)
    (secretValues : Map Str) (history : List (Sigma AgentReply)) (secretMounts : Map Str) :
    Prop where
  secrets : ∀ secretName, (secretValues.has secretName ∧
      GrantsSecret table info.service secretName ∧
        secretMounts.lookup (ccaSecretMountPrefix ++ secretName) =
          some (secretValuePath materialDirectory info.id secretName)) ∨
    (¬ (secretValues.has secretName ∧ GrantsSecret table info.service secretName) ∧
      secretMounts.lookup (ccaSecretMountPrefix ++ secretName) = none)
  files : ∀ usablePath,
    (∀ connectionName mountPath, RefersTo table info.service connectionName mountPath →
      resolveExplicitSecretMountPath mountPath = some usablePath →
        Unwritable table secretValues connectionName) ∨
    ∃ connectionName mountPath, RefersTo table info.service connectionName mountPath ∧
      resolveExplicitSecretMountPath mountPath = some usablePath ∧
      ∃ connectionURL hostPath,
        ⟨.writeConnectionFile info.id connectionName connectionURL, .ok hostPath⟩ ∈ history ∧
          secretMounts.lookup usablePath = some hostPath
  writable : FilesWritable table secretValues history

theorem ensures_buildInstanceSecretMounts {materialDirectory : Str}
    {site : Site} (hdirectory : agent.secretMaterialDirectory = some materialDirectory)
    (hvalues : secretValues.len ≠ 0) :
    (agent.buildInstanceSecretMounts info secretValues).Ensures (journaled reliable)
      (fun result final => ∀ mounts, result = .ok mounts →
        BuiltFrom materialDirectory info site.table secretValues final.history mounts)
      ⟨site, []⟩ := by
  unfold Agent.buildInstanceSecretMounts
  rw [hdirectory]
  dsimp only
  rw [if_neg hvalues]
  have hnone : FilesWritable site.table secretValues [] := fun _ _ _ _ hmem => nomatch hmem
  refine ((ensures_loadServiceSecretRequirements info.service).and
    (ensures_filesWritable_of_reads hnone)).seq ?_
  intro result first ⟨⟨hfirst, requirements, hresult, hgrants⟩, hwritable⟩
  subst hresult
  refine ((ensures_scan _).and (ensures_filesWritable_of_reads hwritable)).seq ?_
  intro refs second ⟨⟨hsecond, hrefs⟩, hwritable⟩
  obtain rfl := hrefs.resolve_right fun h => h.1
  have htable : second.state.table = site.table := by rw [hsecond.state, hfirst]
  refine (ensures_addConnectionFiles _ _ hwritable htable).mono ?_
  intro result final ⟨hwritable, hfiles⟩ mounts hmounts
  have hpaths := hfiles mounts hmounts
  simp only [show first.state.table = site.table by rw [hfirst]] at hpaths
  refine ⟨fun secretName => ?_, fun usablePath => ?_, hwritable⟩
  · -- no connection is mounted below the directory of the secrets
    rcases hpaths (ccaSecretMountPrefix ++ secretName) with ⟨hsame, -⟩ | ⟨ref, -, hresolve, -⟩
    · rw [lookup_foldl_addSecretMount, hgrants] at hsame
      by_cases hmounted : secretValues.has secretName ∧
          GrantsSecret site.table info.service secretName
      · rw [if_pos ⟨hmounted.1, mem_grantedNames.mpr hmounted.2⟩] at hsame
        exact Or.inl ⟨hmounted.1, hmounted.2, hsame⟩
      · rw [if_neg fun h => hmounted ⟨h.1, mem_grantedNames.mp h.2⟩] at hsame
        exact Or.inr ⟨hmounted, hsame⟩
    · exact absurd rfl (resolve_ne_mount hresolve secretName)
  · rcases hpaths usablePath with ⟨-, hskipped⟩ | ⟨ref, hmem, hfile⟩
    · exact Or.inl fun connectionName mountPath hrefers hresolve =>
        hskipped (connectionName, mountPath) (mem_connectionRefs.mpr hrefers) hresolve
    · exact Or.inr ⟨ref.1, ref.2, mem_connectionRefs.mp hmem, hfile⟩

/-- Without a directory or values nothing is mounted. -/
theorem ensures_buildInstanceSecretMounts_none
    {mayFail : StoreRequest → Prop}
    (h : agent.secretMaterialDirectory = none ∨ secretValues.len = 0) :
    (agent.buildInstanceSecretMounts info secretValues).Ensures (journaled mayFail)
      (fun result _ => result = .ok ∅) journal := by
  unfold Agent.buildInstanceSecretMounts
  cases hdirectory : agent.secretMaterialDirectory with
  | none => exact ensures_pure rfl
  | some materialDirectory =>
    have hempty := h.resolve_left (by rw [hdirectory]; simp)
    dsimp only
    rw [if_pos hempty]
    exact ensures_pure rfl

end Build

/-! ## Starts -/

/-- Between two calls others may change everything. -/
def interfered : Environment AgentCall AgentReply Journal :=
  fun before call reply after =>
    ∃ site, journaled (fun _ => True) ⟨site, before.history⟩ call reply after

/-- Whatever happens to the store, the instance is started with all its material. -/
def Agent.StartsProvisioned (agent : Agent) (info : PlacedInstance)
    (prepared : Agent.PreparedInstance) (site : Site) : Prop :=
  ∀ mounts built result launched spec reply,
    (agent.buildInstanceSecretMounts info prepared.secretValues).Runs (journaled reliable)
      ⟨site, []⟩ (.ok mounts) built →
    (agent.launchInstance info prepared mounts).Runs interfered built result launched →
    ⟨.start spec, reply⟩ ∈ launched.history →
      Provisioned agent info site.table built.history spec.secretMounts

variable {mounts : Map Str}

section Starts

variable {agent : Agent} {info : PlacedInstance} {prepared : Agent.PreparedInstance} {site : Site}
  {program : AgentProgram Result}

theorem mem_or_allowed_of_interfered {allowed : AgentCall → Prop} (hcalls : program.Calls allowed)
    {initial final : Journal} {result : Result}
    (hrun : program.Runs interfered initial result final) (hentry : entry ∈ final.history) :
    entry ∈ initial.history ∨ allowed entry.1 := by
  induction program generalizing initial with
  | ret found =>
    obtain ⟨-, hfinal⟩ := hrun
    subst hfinal
    exact Or.inl hentry
  | call request next ih =>
    obtain ⟨reply, _, ⟨_, _, hhistory⟩, hnext⟩ := hrun
    rcases ih reply (hcalls.2 reply) hnext with hmiddle | hallowed
    · rw [hhistory] at hmiddle
      rcases mem_append.mp hmiddle with hinitial | hnew
      · exact Or.inl hinitial
      · rw [mem_singleton.mp hnew]
        exact Or.inr hcalls.1
    · exact Or.inr hallowed

variable {journal : Journal}

/-- A started container has the mounts it was launched with. -/
theorem secretMounts_of_started {built launched : Journal} {built_result : Except Str (Map Str)}
    {result : Unit} {spec : Spec} {reply : AgentReply (.start spec)}
    (hbuild : (agent.buildInstanceSecretMounts info prepared.secretValues).Runs
      (journaled reliable) ⟨site, []⟩ built_result built)
    (hlaunch : (agent.launchInstance info prepared mounts).Runs interfered built result launched)
    (hstarted : ⟨.start spec, reply⟩ ∈ launched.history) : spec.secretMounts = mounts := by
  rcases mem_or_allowed_of_interfered (startsOnly_launchInstance agent info prepared mounts)
    hlaunch hstarted with hbefore | hstarts
  · exact absurd hbefore (not_started_of_routine hbuild)
  · exact hstarts.2

theorem startsProvisioned_of_nothingToMount (h : NothingToMount site.table info.service) :
    agent.StartsProvisioned info prepared site := by
  intro _ _ _ _ _ _ _ _ _
  refine ⟨fun secretName hgrants => absurd hgrants (h.secrets secretName), ?_⟩
  intro connectionName mountPath _ hrefers hresolve
  rw [h.connections connectionName mountPath hrefers] at hresolve
  cases hresolve

theorem startsProvisioned_of_canMount
    (h : CanMount agent info.service site.table prepared.secretValues) :
    agent.StartsProvisioned info prepared site := by
  intro mounts _ _ _ _ _ hbuild hlaunch hstarted
  rw [secretMounts_of_started hbuild hlaunch hstarted]
  obtain ⟨materialDirectory, hdirectory⟩ := isSome_iff_exists.mp h.material
  have hbuilt := ensures_buildInstanceSecretMounts agent info hdirectory h.values _ _ hbuild mounts
    rfl
  refine ⟨fun secretName hgrants => ⟨materialDirectory, hdirectory, ?_⟩, ?_⟩
  · rcases hbuilt.secrets secretName with ⟨-, -, hmounted⟩ | ⟨hmissing, -⟩
    · exact hmounted
    · exact absurd ⟨h.delivered secretName hgrants, hgrants⟩ hmissing
  · intro connectionName mountPath usablePath hrefers hresolve
    rcases hbuilt.files usablePath with hskipped | ⟨other, otherPath, hother, hpath, hfile⟩
    · obtain ⟨hname, hurl⟩ := h.usable connectionName mountPath usablePath hrefers hresolve
      rcases hskipped connectionName mountPath hrefers hresolve with hnil | hnil
      · exact absurd hnil hname
      · exact absurd hnil (connectionURLOf_ne_nil.mpr hurl)
    · rw [h.apart connectionName other mountPath otherPath usablePath hrefers hother hresolve hpath]
      exact hfile

/-! ### A run in which every file can be written -/

/-- In calm surroundings the loop succeeds. -/
theorem ensures_addConnectionFiles_calm {instanceID : Str} (refs : List (Str × Str))
    (secretMounts : Map Str) :
    (addConnectionFiles instanceID secretValues refs secretMounts).Ensures calm.answers
      (fun result _ => ∃ mounts, result = .ok mounts) journal := by
  induction refs generalizing secretMounts journal with
  | nil => exact ensures_pure ⟨secretMounts, rfl⟩
  | cons ref rest ih =>
    apply Proc.Ensures.bind
    intro _ _ _
    cases resolveExplicitSecretMountPath ref.2 with
    | none => exact ih secretMounts
    | some mountedPath =>
      dsimp only
      split
      · exact ih secretMounts
      · apply Proc.Ensures.bind
        apply ensures_request
        intro written after ⟨hwritten, _⟩
        subst hwritten
        exact ih _

/-- What holds with every answer of a reliable store holds in the calm
surroundings. -/
theorem ensures_calm {post : Result → Journal → Prop}
    (h : program.Ensures (journaled reliable) post journal) :
    program.Ensures calm.answers post journal :=
  fun result final hrun => h result final (hrun.of_narrower (journaled_of_calm _))

theorem ensures_buildInstanceSecretMounts_calm :
    (agent.buildInstanceSecretMounts info secretValues).Ensures calm.answers
      (fun result _ => ∃ mounts, result = .ok mounts) journal := by
  unfold Agent.buildInstanceSecretMounts
  cases agent.secretMaterialDirectory with
  | none => exact ensures_pure ⟨∅, rfl⟩
  | some materialDirectory =>
    dsimp only
    split
    · exact ensures_pure ⟨∅, rfl⟩
    refine (ensures_calm (ensures_loadServiceSecretRequirements info.service)).seq ?_
    intro result middle ⟨_, requirements, hresult, _⟩
    subst hresult
    refine (ensures_calm (ensures_scan _)).seq fun refs after ⟨_, hrefs⟩ => ?_
    obtain rfl := hrefs.resolve_right fun h => h.1
    exact ensures_addConnectionFiles_calm _ _

/-- The files of a history are named after their connections. -/
def FilesNamed (journal : Journal) : Prop :=
  ∀ name connectionName connectionURL reply,
    ⟨.writeConnectionFile name connectionName connectionURL, reply⟩ ∈ journal.history →
      reply = .ok (lit "/secrets/" ++ connectionName)

theorem ensures_filesNamed (program : AgentProgram Result)
    (h : FilesNamed journal) :
    program.Ensures calm.answers (fun _ => FilesNamed) journal := by
  refine (Proc.calls_all program).ensures ?_ h
  intro before call reply after _ ⟨hreply, hafter⟩ hbefore name connectionName connectionURL found
    hmem
  rw [hafter] at hmem
  rcases mem_append.mp hmem with hold | hnew
  · exact hbefore name connectionName connectionURL found hold
  · cases mem_singleton.mp hnew
    rfl

theorem ensures_launchInstance_calm :
    (agent.launchInstance info prepared mounts).Ensures calm.answers
      (fun _ final => ∃ spec reply, ⟨.start spec, reply⟩ ∈ final.history) journal := by
  apply Proc.Ensures.bind
  intro spec _ _
  apply Proc.Ensures.bind
  apply ensures_request
  intro reply after hanswer _ final hrun
  have hentry : ⟨_, reply⟩ ∈ after.history := by
    rw [(journaled_of_calm reliable _ _ _ _ hanswer).2]
    exact mem_append_right _ (mem_singleton_self _)
  exact ⟨_, reply, (hrun.of_narrower (journaled_of_calm reliable)).mem_history hentry⟩

theorem calm_interfered (before : Journal) (call : AgentCall) (reply : AgentReply call)
    (after : Journal) (h : calm.answers before call reply after) :
    interfered before call reply after :=
  ⟨before.state, journaled_of_calm _ before call reply after h⟩

/-- There is always a run that starts the instance, and its files are named after
their connections. -/
theorem exists_provisioned (h : agent.StartsProvisioned info prepared site) :
    ∃ mounts built, (agent.buildInstanceSecretMounts info prepared.secretValues).Runs
        (journaled reliable) ⟨site, []⟩ (.ok mounts) built ∧
      Provisioned agent info site.table built.history mounts ∧ FilesNamed built := by
  have hreplay := calm.runs_answers
    (agent.buildInstanceSecretMounts info prepared.secretValues) ⟨site, []⟩
  obtain ⟨mounts, hmounts⟩ := ensures_buildInstanceSecretMounts_calm _ _ hreplay
  rw [hmounts] at hreplay
  have hbuild := hreplay.of_narrower (journaled_of_calm reliable)
  have hlaunch := calm.runs_answers (agent.launchInstance info prepared mounts)
    ((agent.buildInstanceSecretMounts info prepared.secretValues).eval calm.perform ⟨site, []⟩).2
  obtain ⟨spec, reply, hstarted⟩ := ensures_launchInstance_calm _ _ hlaunch
  have hinterfered := hlaunch.of_narrower calm_interfered
  refine ⟨mounts, _, hbuild, ?_, ?_⟩
  · have hprovisioned := h mounts _ _ _ spec reply hbuild hinterfered hstarted
    rwa [secretMounts_of_started hbuild hinterfered hstarted] at hprovisioned
  · refine ensures_filesNamed _ ?_ _ _ hreplay
    exact fun _ _ _ _ hmem => nomatch hmem

theorem canMount_of_startsProvisioned (h : agent.StartsProvisioned info prepared site) :
    NothingToMount site.table info.service ∨
      CanMount agent info.service site.table prepared.secretValues := by
  obtain ⟨mounts, _, hbuild, hprovisioned, hnamed⟩ := exists_provisioned h
  by_cases hnone : agent.secretMaterialDirectory = none ∨ prepared.secretValues.len = 0
  · -- there are no mounts, so nothing can be asked for
    have hempty := ensures_buildInstanceSecretMounts_none agent info hnone _ _ hbuild
    cases hempty
    refine Or.inl ⟨fun secretName hgrants => ?_, fun connectionName mountPath hrefers => ?_⟩
    · obtain ⟨_, _, hmounted⟩ := hprovisioned.secrets secretName hgrants
      cases hmounted
    · cases hresolve : resolveExplicitSecretMountPath mountPath with
      | none => rfl
      | some usablePath =>
        obtain ⟨_, _, _, hmounted⟩ :=
          hprovisioned.connections connectionName mountPath usablePath hrefers hresolve
        cases hmounted
  · obtain ⟨hmaterial, hvalues⟩ := not_or.mp hnone
    obtain ⟨_, hdirectory⟩ := ne_none_iff_exists'.mp hmaterial
    have hbuilt := ensures_buildInstanceSecretMounts agent info hdirectory hvalues _ _ hbuild mounts
      rfl
    refine Or.inr ⟨by rw [hdirectory]; rfl, hvalues, fun secretName hgrants => ?_, ?_, ?_⟩
    · obtain ⟨_, _, hmounted⟩ := hprovisioned.secrets secretName hgrants
      rcases hbuilt.secrets secretName with ⟨hhas, -, -⟩ | ⟨-, hmissing⟩
      · exact hhas
      · rw [hmissing] at hmounted
        cases hmounted
    · intro connectionName mountPath usablePath hrefers hresolve
      obtain ⟨connectionURL, _, hentry, -⟩ :=
        hprovisioned.connections connectionName mountPath usablePath hrefers hresolve
      obtain ⟨hname, hurl⟩ := not_or.mp (hbuilt.writable _ connectionName connectionURL _ hentry)
      exact ⟨hname, connectionURLOf_ne_nil.mp hurl⟩
    · intro first second firstPath secondPath usablePath hfirst hsecond hfirstPath hsecondPath
      obtain ⟨_, _, hfirstEntry, hfirstMounted⟩ :=
        hprovisioned.connections first firstPath usablePath hfirst hfirstPath
      obtain ⟨_, _, hsecondEntry, hsecondMounted⟩ :=
        hprovisioned.connections second secondPath usablePath hsecond hsecondPath
      have hfirstHost := hnamed _ first _ _ hfirstEntry
      have hsecondHost := hnamed _ second _ _ hsecondEntry
      cases hfirstHost
      cases hsecondHost
      rw [hfirstMounted, Option.some.injEq] at hsecondMounted
      exact append_cancel_left hsecondMounted

/-- A started instance has all its secret material exactly when there is nothing
to mount or everything is at hand. -/
theorem startsProvisioned_iff (agent : Agent) (info : PlacedInstance)
    (prepared : Agent.PreparedInstance) (site : Site) :
    agent.StartsProvisioned info prepared site ↔ NothingToMount site.table info.service ∨
        CanMount agent info.service site.table prepared.secretValues := by
  refine ⟨canMount_of_startsProvisioned, fun h => ?_⟩
  rcases h with hnothing | hcan
  · exact startsProvisioned_of_nothingToMount hnothing
  · exact startsProvisioned_of_canMount hcan

end Starts

/-! ## A connection without a password -/

/-- An agent with a directory for secret material. -/
def materialAgent : Agent :=
  { plainAgent with secretMaterialDirectory := some (lit "/run/material") }

/-- The service refers to a connection that needs no secret, and has none. -/
def passwordlessWeb : Site where
  table := holding [(keyDesiredServiceImage (lit "web"), lit "web:1"),
      (scanDesiredServiceConnections (lit "web") ++ lit "db", lit "/etc/db"),
      (keyDesiredConnection (lit "db"),
        lit "\x7b\"driver\":\"postgres\",\"host\":\"db\",\"port\":5432\x7d")]
  memory := AgentMemory.new

def secondWeb : PlacedInstance := ⟨lit "web-2", lit "web"⟩

/-- The call starts a container without a mount at the path. -/
def AgentCall.startsWithoutMount (path : Str) : AgentCall → Bool
  | .start spec => (spec.secretMounts.lookup path).isNone
  | _ => false

theorem passwordlessWeb_evaluates :
    (passwordlessWeb.table.value (scanDesiredServiceConnections (lit "web") ++ lit "db") =
        some (lit "/etc/db") ∧
      resolveExplicitSecretMountPath (lit "/etc/db") = some (lit "/etc/db") ∧
      connectionURLOf passwordlessWeb.table ∅ (lit "db") = lit "postgres://db:5432") ∧
    (calm.replay (materialAgent.reconcileDesiredInstance secondWeb)
      passwordlessWeb).2.history.any (fun entry =>
        entry.1.startsWithoutMount (lit "/etc/db")) := by
  decide +kernel

theorem started_without_connection_file :
    ∃ result final, (materialAgent.reconcileDesiredInstance secondWeb).Runs (journaled reliable)
        ⟨passwordlessWeb, []⟩ result final ∧
      RefersTo passwordlessWeb.table secondWeb.service (lit "db") (lit "/etc/db") ∧
      resolveExplicitSecretMountPath (lit "/etc/db") = some (lit "/etc/db") ∧
      HasURL passwordlessWeb.table ∅ (lit "db") ∧
      ∃ spec reply, ⟨.start spec, reply⟩ ∈ final.history ∧
        spec.secretMounts.lookup (lit "/etc/db") = none := by
  obtain ⟨⟨hrefers, hresolve, hurl⟩, hany⟩ := passwordlessWeb_evaluates
  obtain ⟨⟨call, reply⟩, hentry, hstarts⟩ := any_eq_true.mp hany
  have hwritable : HasURL passwordlessWeb.table ∅ (lit "db") := by
    apply connectionURLOf_ne_nil.mp
    decide
  refine ⟨_, _, Surroundings.runs_replay_calm reliable _ _, hrefers, hresolve, hwritable, ?_⟩
  cases call with
  | start spec => exact ⟨spec, reply, hentry, isNone_iff_eq_none.mp hstarts⟩
  | _ => cases hstarts

end CCattler.NodeAgent
