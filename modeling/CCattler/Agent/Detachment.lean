import CCattler.Agent.Footprint

/-! # Whose attachments a cleanup takes away

A cleanup detaches every volume that the service mounts, without asking who holds it.
-/

namespace CCattler.NodeAgent

open Go Store Concurrency CCattler.Types CCattler.Controllers AgentProgram
open Concurrency.Proc (Makes ensures_pure ensures_request)

/-! ## Volumes -/

/-- The type fact that decides about the provider of a volume. -/
def volumeType (table : ValidTable) (volumeName : Str) : Option Str :=
  (table.value (keyObservedVolumeType volumeName)).or
    (table.value (keyDesiredVolumeType volumeName))

section

variable (agent : Agent) (primary : StorageProvider) (table : ValidTable) (volumeName : Str)

/-- The provider of a volume, as the facts say. -/
def Agent.providerOf : StorageProvider :=
  match agent.localStorageProvider with
  | none => primary
  | some localProvider =>
    if volumeType table volumeName = some (lit "local") then localProvider else primary

/-- The volume is attached to one instance at a time. -/
def Agent.IsExclusive : Prop :=
  (agent.providerOf primary table volumeName).supportsSharedAttach = false

end

/-- The instance holds the volume on the node. -/
structure HoldsVolume (table : ValidTable) (nodeID instanceID volumeName : Str) : Prop where
  node : table.value (keyObservedVolumeNode volumeName) = some nodeID
  boundInstance : table.value (keyObservedVolumeInstance volumeName) = some instanceID

/-- The observed service of the instance mounts the volume. -/
def MountsVolume (table : ValidTable) (instanceID volumeName : Str) : Prop :=
  ∃ service, table.value (keyObservedInstanceService instanceID) = some service ∧
    (table.value (scanDesiredServiceVolumes service ++ volumeName)).isSome

def AgentCall.isPanic : AgentCall → Bool
  | .panic => true
  | _ => false

/-- The calls that were made: a panic ends the process. -/
def Journal.performed (journal : Journal) : List (Sigma AgentReply) :=
  journal.history.takeWhile fun entry => !entry.1.isPanic

/-- A call that writes an observed fact of the volume, or detaches it. -/
def Touches (volumeName : Str) : AgentCall → Prop
  | .store request => ∃ operation ∈ request.operations, OwnFact volumeName operation.key
  | .detachVolume _ name _ => name = volumeName
  | _ => False

/-- An observed fact of the volume was written, or the volume was detached. -/
def Touched (final : Journal) (volumeName : Str) : Prop :=
  ∃ entry ∈ final.performed, Touches volumeName entry.1

/-! ## Calls that spare a volume -/

/-- What a volume and the search for the volumes of an instance rest on. -/
def RestsOn (volumeName instanceID key : Str) : Prop :=
  OwnFact volumeName key ∨ lit "desired/" <+: key ∨ key = keyObservedInstanceService instanceID

/-- A call that writes none of these facts and does not detach the volume. -/
abbrev Spares (mayPanic : Prop) (volumeName instanceID : Str) : AgentCall → Prop
  | .store request =>
    request.usesLease = false ∧
      ∀ operation ∈ request.operations, ¬ RestsOn volumeName instanceID operation.key
  | .detachVolume _ name _ => name ≠ volumeName
  | .panic => mayPanic
  | _ => True

/-- The volume and the search for it are as they were. -/
structure Spared (mayPanic : Prop) (site : Site) (volumeName instanceID : Str)
    (journal : Journal) : Prop where
  values : ∀ key, RestsOn volumeName instanceID key →
    journal.state.table.value key = site.table.value key
  calls : ∀ entry ∈ journal.history, Spares mayPanic volumeName instanceID entry.1

variable {mayPanic : Prop} {mayFail : StoreRequest → Prop} {site : Site} {journal : Journal}
  {volumeName instanceID : Str} {environment : Environment AgentCall AgentReply Journal}

variable {Result : Type}

section Spares

theorem Spares.not_touches {call : AgentCall} (h : Spares mayPanic volumeName instanceID call) :
    ¬ Touches volumeName call := by
  intro htouches
  cases call with
  | store request =>
    obtain ⟨operation, hmem, hown⟩ := htouches
    exact h.2 operation hmem (Or.inl hown)
  | detachVolume _ _ _ => exact h htouches
  | _ => exact htouches

theorem Spared.notTouched {final : Journal}
    (h : Spared mayPanic site volumeName instanceID final) : ¬ Touched final volumeName := by
  rintro ⟨entry, hentry, htouches⟩
  exact (h.calls entry ((List.takeWhile_prefix _).subset hentry)).not_touches htouches

/-- A call that spares the volume keeps it spared. -/
theorem Spared.step {before after : Journal} {call : AgentCall} {reply : AgentReply call}
    (h : Spared mayPanic site volumeName instanceID before)
    (hcall : Spares mayPanic volumeName instanceID call)
    (hanswer : journaled mayFail before call reply after) :
    Spared mayPanic site volumeName instanceID after := by
  obtain ⟨hstate, hhistory⟩ := hanswer
  refine ⟨fun key hkey => ?_, fun entry hentry => ?_⟩
  · rw [← h.values key hkey]
    cases call with
    | store request =>
      refine hstate.1.value_of_notMem hcall.1 fun operation hmem heq => ?_
      exact hcall.2 operation hmem (heq ▸ hkey)
    | readMemory => rw [hstate.2]
    | _ => rw [show after.state = _ from hstate]
  · rw [hhistory] at hentry
    rcases List.mem_append.mp hentry with hbefore | hnew
    · exact h.calls entry hbefore
    · rw [List.mem_singleton.mp hnew]
      exact hcall

/-- The environment answers as a store with these failures may. -/
def Within (mayFail : StoreRequest → Prop)
    (environment : Environment AgentCall AgentReply Journal) : Prop :=
  ∀ before call reply after, environment before call reply after →
    journaled mayFail before call reply after

theorem Within.ensures (hwithin : Within mayFail environment) {program : AgentProgram Result}
    {post : Result → Journal → Prop} (h : program.Ensures (journaled mayFail) post journal) :
    program.Ensures environment post journal :=
  fun result final hrun => h result final (hrun.of_narrower hwithin)

theorem Within.spared (hwithin : Within mayFail environment) {program : AgentProgram Result}
    [hmakes : Makes (Spares mayPanic volumeName instanceID) program]
    (h : Spared mayPanic site volumeName instanceID journal) :
    program.Ensures environment (fun _ => Spared mayPanic site volumeName instanceID) journal :=
  hwithin.ensures (hmakes.calls.ensures
    (fun _ _ _ _ hcall hanswer hbefore => hbefore.step hcall hanswer) h)

theorem Spared.no_panic (h : Spared False site volumeName instanceID journal)
    (entry : Sigma AgentReply) (hentry : entry ∈ journal.history) :
    (!entry.1.isPanic) = true := by
  have hcall := h.calls entry hentry
  obtain ⟨call, reply⟩ := entry
  cases call with
  | panic => exact hcall.elim
  | _ => rfl

/-! Facts of different volumes are different. -/

theorem not_ownFact_of_ne {other key : Str} (hslash : Str.slash ∉ volumeName)
    (hother : Str.slash ∉ other) (hne : other ≠ volumeName) (h : OwnFact other key) :
    ¬ OwnFact volumeName key := by
  intro hown
  rcases h with rfl | ⟨field, rfl⟩
  · rcases hown with heq | ⟨field, heq⟩
    · exact hne (List.append_cancel_left heq)
    · rw [List.append_cancel_left heq] at hother
      simp at hother
  · rcases hown with heq | ⟨_, heq⟩
    · rw [← List.append_cancel_left heq] at hslash
      simp at hslash
    · exact hne ((fieldKey_inj hother hslash).mp heq).1

theorem spares_of_volumeCall {other : Str} (hslash : Str.slash ∉ volumeName)
    (hother : Str.slash ∉ other) (hne : other ≠ volumeName) (call : AgentCall)
    (h : VolumeCall other call) : Spares True volumeName instanceID call := by
  cases call with
  | store request =>
    refine ⟨h.1, fun operation hmem hrests => ?_⟩
    have hown := h.2 operation hmem
    rcases hrests with hsame | hdesired | hservice
    · exact not_ownFact_of_ne hslash hother hne hown hsame
    · have hapart : Apart scanObservedVolumes (lit "desired/") := by decide
      exact hapart.not_isPrefix hown.isPrefix hdesired
    · have hapart : Apart scanObservedVolumes scanObservedInstances := by decide
      refine hapart.not_isPrefix hown.isPrefix ?_
      rw [hservice]
      exact List.prefix_append _ _
  | detachVolume backend name nodeID =>
    exact fun heq => hne ((show name = other from h).symm.trans heq)
  | createVolume _ _ | attachVolume _ _ _ | volumeUsage _ _ | panic => exact trivial
  | _ => exact h.elim

/-! ## The parts of a cleanup -/

variable {key value : Str} {agent : Agent}

instance : Fact (Spares mayPanic volumeName instanceID (.store (.get key))) :=
  ⟨rfl, fun _ hmem => nomatch hmem⟩

instance : Fact (Spares mayPanic volumeName instanceID (.store (.scan key))) :=
  ⟨rfl, fun _ hmem => nomatch hmem⟩

section

variable [h : Fact (¬ RestsOn volumeName instanceID key)]

instance : Fact (Spares mayPanic volumeName instanceID (.store (.put key value))) :=
  ⟨rfl, by simpa [StoreRequest.operations] using h.out⟩

instance : Fact (Spares mayPanic volumeName instanceID (.store (.delete key))) :=
  ⟨rfl, by simpa [StoreRequest.operations] using h.out⟩

end

theorem not_restsOn {pre : Str} (hkey : pre <+: key) (hvolume : Apart pre scanObservedVolumes)
    (hdesired : Apart pre (lit "desired/"))
    (hservice : key ≠ keyObservedInstanceService instanceID) :
    ¬ RestsOn volumeName instanceID key := by
  intro hrests
  rcases hrests with hown | hbelow | heq
  · exact hvolume.not_isPrefix hkey hown.isPrefix
  · exact hdesired.not_isPrefix hkey hbelow
  · exact hservice heq

theorem not_restsOn_instanceField {field : Str} (hfield : field ≠ lit "service") :
    ¬ RestsOn volumeName instanceID (fieldKey scanObservedInstances instanceID field) := by
  have hinstance : scanObservedInstances <+: fieldKey scanObservedInstances instanceID field :=
    List.prefix_append _ _
  refine not_restsOn hinstance (by decide) (by decide) fun heq => hfield ?_
  exact List.cons_inj_right _ |>.mp (List.append_cancel_left (List.append_cancel_left heq))

instance : Fact (¬ RestsOn volumeName instanceID (keyObservedInstanceState instanceID)) :=
  ⟨not_restsOn_instanceField (by decide)⟩

instance : Fact (¬ RestsOn volumeName instanceID (keyObservedInstancePullStatus instanceID)) :=
  ⟨not_restsOn_instanceField (by decide)⟩

instance : Fact (¬ RestsOn volumeName instanceID (keyNetworkAllocation instanceID)) := by
  have hallocation : lit "network/allocation/" <+: keyNetworkAllocation instanceID :=
    List.prefix_append _ _
  refine ⟨not_restsOn hallocation (by decide) (by decide) fun heq => ?_⟩
  have hapart : Apart (lit "network/allocation/") scanObservedInstances := by decide
  exact hapart.not_isPrefix hallocation (heq ▸ List.prefix_append _ _)

instance : Makes (Spares mayPanic volumeName instanceID)
    (clearPullStatusFromStore instanceID) := by
  unfold clearPullStatusFromStore
  infer_instance

instance : Makes (Spares mayPanic volumeName instanceID)
    (Agent.revokeInstanceToken instanceID) :=
  inferInstanceAs (Makes _ (Proc.request _))

instance {service : Str} : Makes (Spares mayPanic volumeName instanceID)
    (agent.stopInstanceWithGracePeriod instanceID service) := by
  unfold Agent.stopInstanceWithGracePeriod Agent.lookupGracePeriod
  refine Makes.seq fun gracePeriod => ?_
  cases gracePeriod <;> infer_instance

instance {hookKey : Str} : Makes (Spares mayPanic volumeName instanceID)
    (Agent.executeLifecycleHook instanceID hookKey) := by
  unfold Agent.executeLifecycleHook
  infer_instance

instance : Makes (Spares mayPanic volumeName instanceID)
    (lookupServiceNameForInstance instanceID) := by
  unfold lookupServiceNameForInstance
  infer_instance

instance : Makes (Spares mayPanic volumeName instanceID)
    (agent.publishRemovedInstance instanceID) := by
  unfold Agent.publishRemovedInstance
  infer_instance

instance {service : Str} : Makes (Spares mayPanic volumeName instanceID)
    (lookupServiceVolumeMountsFromStore service) := by
  unfold lookupServiceVolumeMountsFromStore
  infer_instance

end Spares

/-! ## The search for volumes -/

variable (service : Str)

theorem scanDesiredServiceVolumes_ne_nil : scanDesiredServiceVolumes service ≠ [] :=
  List.append_ne_nil_of_left_ne_nil (by decide) _

theorem isPrefix_desiredServiceVolume (name : Str) :
    lit "desired/" <+: scanDesiredServiceVolumes service ++ name :=
  (show lit "desired/" <+: scanDesiredServices by decide).trans
    ((List.prefix_append _ _).trans (List.prefix_append _ _))

/-- Only stored mounts are found, failed reads or not. -/
theorem ensures_lookupServiceVolumeMountsFromStore :
    (lookupServiceVolumeMountsFromStore service).Ensures (journaled mayFail) (fun mounts final =>
      final.state = journal.state ∧ ∀ name ∈ mounts.keys,
        (journal.state.table.value (scanDesiredServiceVolumes service ++ name)).isSome)
      journal := by
  refine (ensures_scanned _).seq ?_
  intro facts final ⟨hunmoved, hfacts⟩
  refine ensures_pure ⟨hunmoved.state, fun name hname => ?_⟩
  rcases hfacts with rfl | ⟨-, rfl, -⟩
  · rw [← ValidTable.lookup_scanned (scanDesiredServiceVolumes_ne_nil service)]
    exact AList.lookup_isSome.mpr hname
  · cases hname

/-- Without failures every stored mount is found. -/
theorem ensures_lookupServiceVolumeMountsFromStore_reliable :
    (lookupServiceVolumeMountsFromStore service).Ensures (journaled reliable)
      (fun mounts final => final.state = journal.state ∧ ∀ name,
        mounts.lookup name = journal.state.table.value (scanDesiredServiceVolumes service ++ name))
      journal := by
  refine (ensures_scanned_reliable _).seq ?_
  intro facts final ⟨hstate, hfacts⟩
  subst hfacts
  refine ensures_pure ⟨hstate, fun name => ?_⟩
  exact ValidTable.lookup_scanned (scanDesiredServiceVolumes_ne_nil service) name

/-! ## Volumes that are not mounted -/

variable {cleanup : AgentProgram Unit}

section Cleanups

variable (agent : Agent) (primary : StorageProvider)

/-- The mounts read later are those of the site. -/
theorem spared_search {service name : Str}
    (h : Spared mayPanic site volumeName instanceID journal)
    (hservice : journal.state.table.value (keyObservedInstanceService instanceID) = some service)
    (hname : (journal.state.table.value (scanDesiredServiceVolumes service ++ name)).isSome) :
    MountsVolume site.table instanceID name := by
  refine ⟨service, ?_, ?_⟩
  · rw [← hservice]
    exact (h.values _ (Or.inr (Or.inr rfl))).symm
  · rw [← h.values]
    · exact hname
    · exact Or.inr (Or.inl (isPrefix_desiredServiceVolume service name))

theorem yields_visit (keys : List Str) : (visit keys).Yields (fun visited => visited.Perm keys) :=
  fun visited => visited.2

/-- A release ensures what its detachment does. -/
theorem ensures_releaseInstance (hwithin : Within mayFail environment)
    {post : Unit → Journal → Prop} (hprovider : agent.storageProvider = some primary)
    (hdetach : ∀ middle, Spared mayPanic site volumeName instanceID middle →
      (agent.detachVolumesForInstance primary instanceID).Ensures environment post middle)
    (h : Spared mayPanic site volumeName instanceID journal) :
    (agent.releaseInstance instanceID).Ensures environment post journal := by
  refine (hwithin.spared h).seq fun _ _ hfirst => ?_
  refine (hwithin.spared hfirst).seq fun _ _ hsecond => ?_
  refine (hwithin.spared hsecond).seq fun _ _ hthird => ?_
  refine (hwithin.spared hthird).seq fun _ middle hfourth => ?_
  rw [hprovider]
  exact hdetach middle hfourth

/-- The two ways of removing a container. -/
inductive Agent.Cleanup (agent : Agent) (instanceID : Str) : AgentProgram Unit → Prop
  | undesired : Cleanup agent instanceID (agent.cleanupUndesiredInstance instanceID)
  | stoppedStale : Cleanup agent instanceID (agent.cleanupStoppedStaleInstance instanceID)

section

variable (hslash : Str.slash ∉ volumeName)
  (hnames : ∀ name, MountsVolume site.table instanceID name → Str.slash ∉ name)
  (hmounts : ¬ MountsVolume site.table instanceID volumeName)
  (h : Spared True site volumeName instanceID journal)
include hslash hnames hmounts h

theorem ensures_detachVolumesForInstance :
    (agent.detachVolumesForInstance primary instanceID).Ensures (journaled mayFail)
      (fun _ => Spared True site volumeName instanceID) journal := by
  have hwithin : Within mayFail (journaled mayFail) := fun _ _ _ _ hanswer => hanswer
  refine ((ensures_lookup _).and (hwithin.spared h)).seq ?_
  intro found first ⟨⟨hfirst, hfound⟩, hspared⟩
  cases found with
  | none => exact ensures_pure hspared
  | some service =>
  have hservice : first.state.table.value (keyObservedInstanceService instanceID) =
      some service := by
    rcases hfound with hvalue | ⟨-, hnone⟩
    · rw [hfirst, hvalue]
    · cases hnone
  refine ((ensures_lookupServiceVolumeMountsFromStore service).and (hwithin.spared hspared)).seq ?_
  intro mounts second ⟨⟨_, hkeys⟩, hspared'⟩
  refine (hwithin.spared hspared').and
    (fun visited _ hrun => (yields_visit mounts.keys).of_runs hrun) |>.seq ?_
  intro names third ⟨hthird, hvisited⟩
  have heach : Makes (Spares True volumeName instanceID)
      (each (agent.detachVolume primary instanceID) names) := by
    refine makes_each fun name hname => ?_
    have hcalls : (agent.detachVolume primary instanceID name).Calls (VolumeCall name) :=
      Makes.calls
    have hmounted := spared_search hspared hservice (hkeys name (hvisited.mem_iff.mp hname))
    refine ⟨hcalls.mono (spares_of_volumeCall hslash (hnames name hmounted) fun heq => hmounts ?_)⟩
    exact heq ▸ hmounted
  exact hwithin.spared hthird

theorem ensures_cleanup (hcleanup : agent.Cleanup instanceID cleanup)
    (hprovider : agent.storageProvider = some primary) :
    cleanup.Ensures (journaled mayFail) (fun _ => Spared True site volumeName instanceID)
      journal := by
  have hwithin : Within mayFail (journaled mayFail) := fun _ _ _ _ hanswer => hanswer
  have hrelease := ensures_releaseInstance agent primary hwithin hprovider (fun _ hmiddle =>
    @ensures_detachVolumesForInstance mayFail _ _ _ _ agent primary hslash hnames hmounts hmiddle) h
  cases hcleanup with
  | undesired =>
    refine hrelease.seq fun _ _ hreleased => ?_
    exact hwithin.spared hreleased
  | stoppedStale =>
    refine hrelease.seq fun _ _ hreleased => ?_
    exact hwithin.spared hreleased

end

/-! ## Volumes that are mounted

The volume may be the first that is visited; it is then detached before anything can
panic. -/

/-- Surroundings in which every request is answered and the volume is visited first. -/
def Surroundings.visiting (volumeName : Str) : Surroundings :=
  { calm with visitedFirst := volumeName }

theorem within_visiting (mayFail : StoreRequest → Prop) (volumeName : Str) :
    Within mayFail (Surroundings.visiting volumeName).answers :=
  (Surroundings.visiting volumeName).journaled_of_answers Surroundings.calm_mayFail

theorem Touched.later {program : AgentProgram Result} (h : Touched journal volumeName) :
    program.Ensures (journaled mayFail) (fun _ final => Touched final volumeName) journal := by
  intro _ final hrun
  obtain ⟨entry, hentry, htouches⟩ := h
  obtain ⟨added, hadded⟩ := hrun.grows
  refine ⟨entry, ?_, htouches⟩
  unfold Journal.performed
  rw [hadded, List.takeWhile_append]
  split
  next => exact List.mem_append_left _ ((List.takeWhile_prefix _).subset hentry)
  next => exact hentry

theorem ensures_visiting {keys : List Str} (hmem : volumeName ∈ keys) :
    (visit keys).Ensures (Surroundings.visiting volumeName).answers
      (fun visited _ => ∃ rest, visited = volumeName :: rest) journal := by
  apply Proc.Ensures.bind
  apply ensures_request
  rintro _ after ⟨rfl, -⟩
  apply ensures_pure
  have hfirst : volumeName ∈ keys.filter (fun key => key = volumeName) := by simpa using hmem
  obtain ⟨head, rest, hfilter⟩ := List.exists_cons_of_ne_nil (List.ne_nil_of_mem hfirst)
  have hhead : head = volumeName := by
    have hheadMem : head ∈ keys.filter (fun key => key = volumeName) := hfilter ▸ List.mem_cons_self
    simpa using (List.mem_filter.mp hheadMem).2
  subst hhead
  exact ⟨_, congrArg (· ++ _) hfilter⟩

theorem ensures_storageProviderForVolume :
    (agent.storageProviderForVolume primary volumeName).Ensures (journaled reliable)
      (fun provider final => final.state = journal.state ∧
        provider = agent.providerOf primary journal.state.table volumeName) journal := by
  unfold Agent.storageProviderForVolume Agent.providerOf
  cases agent.localStorageProvider with
  | none => exact ensures_pure ⟨rfl, rfl⟩
  | some localProvider =>
    apply Proc.Ensures.bind
    have htype : (Agent.lookupVolumeType volumeName).Ensures (journaled reliable)
        (fun found final => final.state = journal.state ∧
          found = volumeType journal.state.table volumeName) journal := by
      refine (ensures_lookup_reliable _).seq fun found middle ⟨hmiddle, hfound⟩ => ?_
      unfold volumeType
      rw [← hfound]
      cases found with
      | some observedType => exact ensures_pure ⟨hmiddle, rfl⟩
      | none =>
        refine (ensures_lookup_reliable _).mono fun found final ⟨hfinal, hfound⟩ => ?_
        exact ⟨hfinal.trans hmiddle, by rw [hfound, hmiddle]; rfl⟩
    refine htype.mono fun found final ⟨hfinal, hfound⟩ => ?_
    rw [hfound]
    split <;> exact ensures_pure ⟨hfinal, rfl⟩

theorem Spared.providerOf (h : Spared mayPanic site volumeName instanceID journal) :
    agent.providerOf primary journal.state.table volumeName =
      agent.providerOf primary site.table volumeName := by
  have htype : volumeType journal.state.table volumeName = volumeType site.table volumeName := by
    unfold volumeType
    rw [h.values (keyObservedVolumeType volumeName) (Or.inl (ownFact_field volumeName _)),
      h.values (keyDesiredVolumeType volumeName) (Or.inr (Or.inl ?_))]
    exact (show lit "desired/" <+: lit "desired/volume/" by decide).trans (List.prefix_append _ _)
  unfold Agent.providerOf
  rw [htype]

/-- Detaching an exclusive volume touches it. -/
theorem ensures_detachVolume (h : Spared False site volumeName instanceID journal)
    (hexclusive : agent.IsExclusive primary site.table volumeName) :
    (agent.detachVolume primary instanceID volumeName).Ensures (journaled reliable)
      (fun _ final => Touched final volumeName) journal := by
  have hwithin : Within reliable (journaled reliable) := fun _ _ _ _ hanswer => hanswer
  refine ((ensures_storageProviderForVolume agent primary).and (hwithin.spared h)).seq ?_
  intro provider middle ⟨⟨_, hprovider⟩, hmiddle⟩
  rw [if_neg (by rw [hprovider, h.providerOf]; exact Bool.eq_false_iff.mp hexclusive)]
  apply Proc.Ensures.bind
  apply ensures_request
  intro reply after ⟨_, hhistory⟩
  refine Touched.later ⟨⟨.detachVolume provider.backend volumeName agent.nodeID, reply⟩, ?_, rfl⟩
  unfold Journal.performed
  rw [hhistory, List.takeWhile_append_of_pos hmiddle.no_panic]
  exact List.mem_append_right _ (List.mem_singleton_self _)

variable (hexclusive : agent.IsExclusive primary site.table volumeName)
  (h : Spared False site volumeName instanceID journal)
  (hmounts : MountsVolume site.table instanceID volumeName)
include hexclusive h hmounts

theorem ensures_detachVolumesForInstance_mounted :
    (agent.detachVolumesForInstance primary instanceID).Ensures
      (Surroundings.visiting volumeName).answers (fun _ final => Touched final volumeName)
      journal := by
  obtain ⟨service, hservice, hmounted⟩ := hmounts
  have hwithin := within_visiting reliable volumeName
  refine (hwithin.ensures (ensures_lookup_reliable _)).and (hwithin.spared h) |>.seq ?_
  intro found first ⟨⟨hfirst, hfound⟩, hspared⟩
  rw [hfound, h.values _ (Or.inr (Or.inr rfl)), hservice]
  refine (hwithin.ensures (ensures_lookupServiceVolumeMountsFromStore_reliable service)).and
    (hwithin.spared hspared) |>.seq ?_
  intro mounts second ⟨⟨_, hmount⟩, hsecond⟩
  have hmem : volumeName ∈ mounts.keys := by
    rw [← AList.mem_keys, ← AList.lookup_isSome, hmount, hspared.values _ (Or.inr (Or.inl ?_))]
    · exact hmounted
    · exact isPrefix_desiredServiceVolume service volumeName
  refine (hwithin.spared hsecond).and (ensures_visiting hmem) |>.seq ?_
  rintro _ third ⟨hthird, rest, rfl⟩
  refine hwithin.ensures ((ensures_detachVolume agent primary hthird hexclusive).seq ?_)
  exact fun _ _ htouched => htouched.later

/-- A cleanup touches the volume that is visited first. -/
theorem ensures_cleanup_mounted (hcleanup : agent.Cleanup instanceID cleanup)
    (hprovider : agent.storageProvider = some primary) :
    cleanup.Ensures (Surroundings.visiting volumeName).answers
      (fun _ final => Touched final volumeName) journal := by
  have hwithin := within_visiting reliable volumeName
  have hrelease := ensures_releaseInstance agent primary hwithin hprovider (fun _ hmiddle =>
    ensures_detachVolumesForInstance_mounted agent primary hexclusive hmiddle hmounts) h
  cases hcleanup with
  | undesired => exact hrelease.seq fun _ _ htouched => hwithin.ensures htouched.later
  | stoppedStale => exact hrelease.seq fun _ _ htouched => hwithin.ensures htouched.later

end Cleanups

/-! ## Cleanups -/

theorem spared_initially (mayPanic : Prop) (site : Site) (volumeName instanceID : Str) :
    Spared mayPanic site volumeName instanceID ⟨site, []⟩ :=
  ⟨fun _ _ => rfl, fun _ hentry => nomatch hentry⟩

/-- The cleanup touches an exclusive volume only if the instance holds it on this node. -/
def Agent.DetachesOnlyItsOwn (agent : Agent) (primary : StorageProvider)
    (mayFail : StoreRequest → Prop) (site : Site) (instanceID : Str)
    (cleanup : AgentProgram Unit) : Prop :=
  ∀ final, cleanup.Runs (journaled mayFail) ⟨site, []⟩ () final →
    ∀ volumeName, Str.slash ∉ volumeName → agent.IsExclusive primary site.table volumeName →
      Touched final volumeName → HoldsVolume site.table agent.nodeID instanceID volumeName

/-- A cleanup takes away only what the instance holds exactly when it holds every
exclusive volume of its service. -/
theorem detachesOnlyItsOwn_iff (agent : Agent) {primary : StorageProvider}
    (hprovider : agent.storageProvider = some primary) (mayFail : StoreRequest → Prop)
    (site : Site) (instanceID : Str)
    (hnames : ∀ name, MountsVolume site.table instanceID name → Str.slash ∉ name)
    {cleanup : AgentProgram Unit} (hcleanup : agent.Cleanup instanceID cleanup) :
    agent.DetachesOnlyItsOwn primary mayFail site instanceID cleanup ↔
      ∀ volumeName, MountsVolume site.table instanceID volumeName →
        agent.IsExclusive primary site.table volumeName →
          HoldsVolume site.table agent.nodeID instanceID volumeName := by
  constructor
  · intro honly volumeName hmounts hexclusive
    have hrun := (Surroundings.visiting volumeName).runs_answers cleanup ⟨site, []⟩
    have htouched := ensures_cleanup_mounted agent primary hexclusive
      (spared_initially False site volumeName instanceID) hmounts hcleanup hprovider _ _ hrun
    exact honly _ (hrun.of_narrower (within_visiting mayFail volumeName)) volumeName
      (hnames volumeName hmounts) hexclusive htouched
  · intro hholds final hrun volumeName hslash hexclusive htouched
    by_cases hmounts : MountsVolume site.table instanceID volumeName
    · exact hholds volumeName hmounts hexclusive
    · have hspared := ensures_cleanup agent primary hslash hnames hmounts
        (spared_initially True site volumeName instanceID) hcleanup hprovider () final hrun
      exact absurd htouched hspared.notTouched

/-! ## A volume that has moved on -/

/-- An agent with network storage. -/
def storageAgent : Agent := { plainAgent with storageProvider := some ⟨.primary, false, false⟩ }

/-- The service of `web-1` mounts a volume that an instance on a node holds. -/
def volumeHeldBy (nodeID instanceID : Str) : Site where
  table := holding [(keyObservedInstanceService (lit "web-1"), lit "web"),
      (scanDesiredServiceVolumes (lit "web") ++ lit "data", lit "/data"),
      (keyObservedVolumeState (lit "data"), volumeAttached),
      (keyObservedVolumeSize (lit "data"), lit "10Gi"),
      (keyObservedVolumeNode (lit "data"), nodeID),
      (keyObservedVolumeInstance (lit "data"), instanceID)]
  memory := AgentMemory.new

def movedVolume : Site := volumeHeldBy (lit "n2") (lit "web-2")

def ownVolume : Site := volumeHeldBy (lit "n1") (lit "web-1")

/-- The cleanup of `web-1`, as it runs where `data` is visited first. -/
def movedVolumeRun : Unit × Journal :=
  (Surroundings.visiting (lit "data")).replay
    (storageAgent.cleanupStoppedStaleInstance (lit "web-1")) movedVolume

theorem movedVolumeRun_evaluates :
    (movedVolume.table.value (keyObservedInstanceService (lit "web-1")) = some (lit "web") ∧
      (movedVolume.table.value (scanDesiredServiceVolumes (lit "web") ++ lit "data")).isSome ∧
      movedVolume.table.value (keyObservedVolumeNode (lit "data")) = some (lit "n2")) ∧
    (movedVolume.table.value (keyObservedVolumeState (lit "data")) = some volumeAttached ∧
      movedVolumeRun.2.state.table.value (keyObservedVolumeState (lit "data")) =
        some volumeAvailable) ∧
    movedVolumeRun.2.performed.length = movedVolumeRun.2.history.length := by
  decide +kernel

/-- The cleanup of `web-1` on `n1` makes the volume of `web-2` on `n2` available. -/
theorem volume_of_another_node_detached :
    ∃ result final, (storageAgent.cleanupStoppedStaleInstance (lit "web-1")).Runs
        (journaled reliable) ⟨movedVolume, []⟩ result final ∧
      final.performed.length = final.history.length ∧
      storageAgent.IsExclusive ⟨.primary, false, false⟩ movedVolume.table (lit "data") ∧
      Touched final (lit "data") ∧
      (movedVolume.table.value (keyObservedVolumeState (lit "data")) = some volumeAttached ∧
        final.state.table.value (keyObservedVolumeState (lit "data")) = some volumeAvailable) ∧
      ¬ HoldsVolume movedVolume.table storageAgent.nodeID (lit "web-1") (lit "data") := by
  obtain ⟨⟨hservice, hmounted, hnode⟩, hstates, hperformed⟩ := movedVolumeRun_evaluates
  have hrun : (storageAgent.cleanupStoppedStaleInstance (lit "web-1")).Runs
      (Surroundings.visiting (lit "data")).answers ⟨movedVolume, []⟩ movedVolumeRun.1
      movedVolumeRun.2 := Surroundings.runs_answers _ _ _
  have htouched := ensures_cleanup_mounted storageAgent ⟨.primary, false, false⟩ rfl
    (spared_initially False movedVolume (lit "data") (lit "web-1")) ⟨_, hservice, hmounted⟩
    Agent.Cleanup.stoppedStale rfl _ _ hrun
  refine ⟨_, _, hrun.of_narrower (within_visiting reliable (lit "data")), hperformed, rfl,
    htouched, hstates, fun hholds => ?_⟩
  exact absurd (hnode.symm.trans hholds.node) (by decide)

theorem ownVolume_evaluates :
    (ownVolume.table.value (keyObservedInstanceService (lit "web-1")) = some (lit "web") ∧
      (Map.ofPairs ((ownVolume.table.scanned (scanDesiredServiceVolumes (lit "web"))).map
        (fun fact => (fact.key.trimPrefix (scanDesiredServiceVolumes (lit "web")),
          fact.value)))).keys = [lit "data"]) ∧
    ownVolume.table.value (keyObservedVolumeNode (lit "data")) = some (lit "n1") ∧
    ownVolume.table.value (keyObservedVolumeInstance (lit "data")) = some (lit "web-1") := by
  decide +kernel

theorem ownVolume_mounts {name : Str} (h : MountsVolume ownVolume.table (lit "web-1") name) :
    name = lit "data" := by
  obtain ⟨⟨hservice, hkeys⟩, -⟩ := ownVolume_evaluates
  obtain ⟨_, hfound, hmounted⟩ := h
  obtain rfl := Option.some.inj (hservice.symm.trans hfound)
  rw [← ValidTable.lookup_scanned (scanDesiredServiceVolumes_ne_nil _)] at hmounted
  have hmem := AList.lookup_isSome.mp hmounted
  rw [AList.mem_keys, hkeys] at hmem
  exact List.mem_singleton.mp hmem

/-- An instance that holds its volume takes away nothing else. -/
theorem ownVolume_detached_only :
    storageAgent.DetachesOnlyItsOwn ⟨.primary, false, false⟩ reliable ownVolume (lit "web-1")
      (storageAgent.cleanupStoppedStaleInstance (lit "web-1")) := by
  refine (detachesOnlyItsOwn_iff storageAgent rfl reliable ownVolume (lit "web-1") ?_
    Agent.Cleanup.stoppedStale).mpr ?_
  · intro name hmounts
    rw [ownVolume_mounts hmounts]
    decide
  · intro name hmounts _
    rw [ownVolume_mounts hmounts]
    exact ⟨ownVolume_evaluates.2.1, ownVolume_evaluates.2.2⟩

end CCattler.NodeAgent
