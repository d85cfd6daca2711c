import CCattler.Agent.Footprint

/-! # The init gate

Init steps are run in order before an instance starts. They are found by scans that
may fail, they are counted and not listed, and a complete phase ends the search.
-/

namespace CCattler.NodeAgent

open Go Store Concurrency CCattler.Types CCattler.Controllers AgentProgram List
open Concurrency.Proc (Makes ensures_pure yields_bind yields_pure Ensures.shows_later
  Ensures.bind)

/-! ## Steps -/

/-- Every request to the store may fail. -/
def AllMayFail : StoreRequest → Prop := fun _ => True

/-- The service has an init step of this number, which is an `int`. -/
def DesiredInitStep (table : ValidTable) (service : Str) (stepIndex : Nat) : Prop :=
  (stepIndex : Int) ≤ maxInt64 ∧ (table.value (keyDesiredServiceInitStep service stepIndex)).isSome

/-- The steps are numbered from zero up to the count, as the compiler writes them. -/
structure InitStepsNumbered (table : ValidTable) (service : Str) (count : Nat) : Prop where
  desired : ∀ stepIndex, DesiredInitStep table service stepIndex ↔ stepIndex < count
  written : ∀ rest, (table.value (scanDesiredServiceInitSteps service ++ rest)).isSome →
    (atoi? rest).isSome → ∃ stepIndex : Nat, DesiredInitStep table service stepIndex ∧
      rest = itoa stepIndex

/-- The step is recorded as succeeded. -/
def InitStepRecorded (table : ValidTable) (instanceID : Str) (stepIndex : Nat) : Prop :=
  table.value (keyObservedInstanceInitStepState instanceID stepIndex) = some initStepSucceeded

/-- An answer of the store, of a command or of a probe that shows the step done. -/
inductive ShowsDone (table : ValidTable) (info : PlacedInstance) (stepIndex : Nat) :
    Sigma AgentReply → Prop
  | reported {fact : Fact} (h : fact.value = initStepSucceeded) : ShowsDone table info stepIndex
        ⟨.store (.get (keyObservedInstanceInitStepState info.id stepIndex)), .ok fact⟩
  | command {image : Str} {spec : ExecSpec}
      (h : table.value (keyDesiredServiceInitStepExec info.service stepIndex) = some spec.command) :
      ShowsDone table info stepIndex ⟨.execInit ⟨info.id, stepIndex⟩ image spec, .ok ()⟩
  | connection {name address : Str} (hname : name ≠ [])
      (h : table.value (keyDesiredServiceInitStepConnection info.service stepIndex) = some name) :
      ShowsDone table info stepIndex ⟨.dial ⟨info.id, stepIndex⟩ address, .ok ()⟩

/-- The first steps were done one after the other, or are recorded as succeeded. -/
inductive StepsDone (table : ValidTable) (info : PlacedInstance) :
    List (Sigma AgentReply) → Nat → Prop
  | none (history : List (Sigma AgentReply)) : StepsDone table info history 0
  | recorded {history : List (Sigma AgentReply)} {count : Nat}
      (h : StepsDone table info history count) (hstep : InitStepRecorded table info.id count) :
      StepsDone table info history (count + 1)
  | shown {earlier later : List (Sigma AgentReply)} {count : Nat} {entry : Sigma AgentReply}
      (h : StepsDone table info earlier count) (hentry : entry ∈ later)
      (hshows : ShowsDone table info count entry) :
      StepsDone table info (earlier ++ later) (count + 1)

section Steps

variable {table : ValidTable} {info : PlacedInstance} {history : List (Sigma AgentReply)}
  {count : Nat}

theorem StepsDone.append (h : StepsDone table info history count)
    (later : List (Sigma AgentReply)) : StepsDone table info (history ++ later) count := by
  induction h with
  | none history => exact StepsDone.none _
  | recorded _ hstep ih => exact StepsDone.recorded ih hstep
  | shown h hentry hshows _ =>
    rw [append_assoc]
    exact StepsDone.shown h (mem_append_left later hentry) hshows

theorem StepsDone.of_recorded (h : ∀ stepIndex < count, InitStepRecorded table info.id stepIndex) :
    StepsDone table info history count := by
  induction count with
  | zero => exact StepsDone.none history
  | succ count ih =>
    exact StepsDone.recorded (ih fun stepIndex hlt => h stepIndex (hlt.trans (Nat.lt_succ_self _)))
      (h count (Nat.lt_succ_self _))

theorem StepsDone.shows {initial final : Journal} (h : StepsDone table info initial.history count)
    (hshows : Recorded.Shows (ShowsDone table info count) initial final) :
    StepsDone table info final.history (count + 1) := by
  obtain ⟨_, hadded, _, hentry, hdone⟩ := hshows
  rw [hadded]
  exact StepsDone.shown h hentry hdone

theorem scanDesiredServiceInitSteps_ne_nil (service : Str) :
    scanDesiredServiceInitSteps service ≠ [] :=
  append_ne_nil_of_left_ne_nil (by decide) _

variable {service : Str} (h : InitStepsNumbered table service count)
include h

theorem InitStepsNumbered.numeral_iff (rest : Str) :
    (table.value (scanDesiredServiceInitSteps service ++ rest)).isSome ∧ (atoi? rest).isSome ↔
      ∃ stepIndex : Nat, stepIndex < count ∧ rest = itoa stepIndex := by
  constructor
  · intro ⟨hpresent, hnumeral⟩
    obtain ⟨stepIndex, hdesired, hrest⟩ := h.written rest hpresent hnumeral
    exact ⟨stepIndex, (h.desired stepIndex).mp hdesired, hrest⟩
  · intro ⟨stepIndex, hlt, hrest⟩
    obtain ⟨hfits, hpresent⟩ := (h.desired stepIndex).mpr hlt
    have hlow : minInt64 ≤ (stepIndex : Int) := by
      simp only [minInt64]
      omega
    rw [hrest, atoi?, parseInt_itoa hlow hfits]
    exact ⟨hpresent, rfl⟩

theorem InitStepsNumbered.perm :
    (((table.scanned (scanDesiredServiceInitSteps service)).map (fun fact =>
        fact.key.trimPrefix (scanDesiredServiceInitSteps service))).filter
          (fun rest => (atoi? rest).isSome)).Perm
      ((List.range count).map (fun stepIndex : Nat => itoa stepIndex)) := by
  refine (perm_ext_iff_of_nodup ((table.nodup_scanned_names _).filter _) ?_).mpr ?_
  · exact nodup_range.map fun _ _ heq => itoa_inj heq
  intro rest
  have hname : rest ∈ (table.scanned (scanDesiredServiceInitSteps service)).map (fun fact =>
      fact.key.trimPrefix (scanDesiredServiceInitSteps service)) ↔
        (table.value (scanDesiredServiceInitSteps service ++ rest)).isSome := by
    rw [Option.isSome_iff_exists]
    simp only [← ValidTable.mem_scanned_pairs (scanDesiredServiceInitSteps_ne_nil service),
      mem_map, Prod.mk.injEq]
    exact ⟨fun ⟨fact, hmem, hrest⟩ => ⟨fact.value, fact, hmem, hrest, rfl⟩,
      fun ⟨_, fact, hmem, hrest, _⟩ => ⟨fact, hmem, hrest⟩⟩
  rw [mem_filter, hname, h.numeral_iff rest]
  simp [eq_comm]

theorem InitStepsNumbered.countP :
    (table.scanned (scanDesiredServiceInitSteps service)).countP (fun fact =>
      isInitStepKey (scanDesiredServiceInitSteps service) fact.key) = count := by
  have hperm := h.perm.length_eq
  rw [length_map, length_range, ← countP_eq_length_filter, countP_map] at hperm
  exact hperm

end Steps

/-! ## What the agent does not change -/

/-- Desired and derived facts are as at the site. -/
def Settled (site : Site) (journal : Journal) : Prop :=
  ∀ key, lit "desired/" <+: key ∨ lit "derived/" <+: key →
    journal.state.table.value key = site.table.value key

variable {Result : Type}

variable {program : AgentProgram Result}

section Settled

variable {mayFail : StoreRequest → Prop} {site : Site} {journal : Journal}

theorem IsReport.ne {report key : Str} (h : IsReport report)
    (hkey : lit "desired/" <+: key ∨ lit "derived/" <+: key) : report ≠ key := by
  have hapart : ∀ first ∈ [lit "observed/", lit "network/"],
      ∀ second ∈ [lit "desired/", lit "derived/"], Apart first second := by decide
  intro heq
  rcases h with hfirst | hfirst <;> rcases hkey with hsecond | hsecond <;>
    exact (hapart _ (by simp) _ (by simp)).not_isPrefix hfirst (heq ▸ hsecond)

theorem Settled.answered (h : Settled site journal) {allowed : Spec → Prop} {call : AgentCall}
    (hcall : StartsOnly allowed call) {reply : AgentReply call} {after : Journal}
    (hanswer : journaled mayFail journal call reply after) : Settled site after := by
  intro key hkey
  rw [← h key hkey]
  cases call with
  | store request =>
    refine hanswer.1.1.value_of_notMem hcall.1 fun operation hmem => ?_
    exact (hcall.2 operation hmem).ne hkey
  | readMemory => rw [hanswer.1.2]
  | _ => rw [show after.state = _ from hanswer.1]

theorem ensures_settled [hcalls : Makes Routine program] (h : Settled site journal) :
    program.Ensures (journaled mayFail) (fun _ => Settled site) journal := by
  refine hcalls.calls.ensures (fun _ call _ _ hcall hanswer hbefore => ?_) h
  have hstarts : StartsOnly (fun _ => False) call := hcall.startsOnly call
  exact hbefore.answered hstarts hanswer

end Settled

/-! ## Definitions of steps -/

section Definitions

variable {mayFail : StoreRequest → Prop} {site : Site} {journal : Journal} {service : Str}

/-- What was read of a step is what is desired. -/
structure ReadStep (table : ValidTable) (service : Str) (stepDefinition : InitStepDefinition)
    (stepIndex : Nat) : Prop where
  index : stepDefinition.index = stepIndex
  exec : stepDefinition.exec ≠ [] →
    table.value (keyDesiredServiceInitStepExec service stepIndex) = some stepDefinition.exec
  connection : stepDefinition.connection ≠ [] →
    table.value (keyDesiredServiceInitStepConnection service stepIndex) =
      some stepDefinition.connection

theorem value_of_getD_ne_nil {found : Option Str} {key : Str} {table : ValidTable}
    (hfound : found = table.value key ∨ (mayFail (.get key) ∧ found = none))
    (h : found.getD [] ≠ []) : table.value key = some (found.getD []) := by
  rcases hfound with hvalue | ⟨-, hnone⟩
  · rw [← hvalue]
    cases found with
    | none => exact absurd rfl h
    | some value => rfl
  · rw [hnone] at h
    exact absurd rfl h

variable (libraries : Libraries)

theorem ensures_loadInitStepDefinition (stepIndex : Nat) :
    (loadInitStepDefinition libraries service stepIndex).Ensures (journaled mayFail)
      (fun found final => final.state = journal.state ∧
        ReadStep journal.state.table service found stepIndex) journal := by
  refine (ensures_lookup _).seq fun exec first ⟨hfirst, hexec⟩ => ?_
  refine (ensures_lookup _).seq fun connection second ⟨hsecond, hconnection⟩ => ?_
  rw [hfirst] at hconnection
  refine (ensures_lookup _).seq fun timeout third ⟨hthird, _⟩ => ?_
  refine (ensures_lookup _).seq fun retry fourth ⟨hfourth, _⟩ => ?_
  refine ensures_pure ⟨?_, rfl, value_of_getD_ne_nil hexec, value_of_getD_ne_nil hconnection⟩
  rw [hfourth, hthird, hsecond, hfirst]

theorem ensures_loadInitSteps (indices : List Nat) :
    (loadInitSteps libraries service indices).Ensures (journaled mayFail)
      (fun found final => final.state = journal.state ∧
        List.Forall₂ (ReadStep journal.state.table service) found indices) journal := by
  induction indices generalizing journal with
  | nil => exact ensures_pure ⟨rfl, List.Forall₂.nil⟩
  | cons stepIndex rest ih =>
    refine (ensures_loadInitStepDefinition libraries stepIndex).seq ?_
    intro stepDefinition middle ⟨hmiddle, hstep⟩
    refine ih.seq fun following final ⟨hfinal, hfollowing⟩ => ?_
    rw [hmiddle] at hfollowing
    exact ensures_pure ⟨hfinal.trans hmiddle, List.Forall₂.cons hstep hfollowing⟩

theorem ensures_loadInitStepDefinitions {count : Nat}
    (hnumbered : InitStepsNumbered journal.state.table service count) :
    (loadInitStepDefinitions libraries service).Ensures (journaled mayFail) (fun found final =>
      final.state = journal.state ∧
        (ScanFailed final.history (scanDesiredServiceInitSteps service) ∨
          List.Forall₂ (ReadStep journal.state.table service) found (List.range count)))
      journal := by
  refine (ensures_scanned _).seq ?_
  intro facts middle ⟨hmiddle, hfacts⟩ found final hrun
  obtain ⟨hfinal, hsteps⟩ := ensures_loadInitSteps libraries _ found final hrun
  refine ⟨hfinal.trans hmiddle.state, ?_⟩
  rcases hfacts with rfl | ⟨-, -, message, hfailed⟩
  · rw [hmiddle.state, hnumbered.countP] at hsteps
    exact Or.inr hsteps
  · exact Or.inl ⟨message, hrun.mem_history hfailed⟩

end Definitions

/-! ## One step -/

section Step

variable {mayFail : StoreRequest → Prop} {site : Site} {journal : Journal} (agent : Agent)
  {info : PlacedInstance} {stepDefinition : InitStepDefinition} {stepIndex : Nat} (image : Str)
  (hstep : ReadStep site.table info.service stepDefinition stepIndex)
include hstep

theorem ensures_runInitCommand :
    (agent.runInitCommand image info stepDefinition).Ensures (journaled mayFail)
      (fun result final => result = .ok () →
        Recorded.Shows (ShowsDone site.table info stepIndex) journal final) journal := by
  unfold Agent.runInitCommand
  split
  · exact ensures_pure fun herror => nomatch herror
  next hexec =>
  have hvalue := hstep.exec (fun hnil => hexec (by rw [hnil]; rfl))
  have hmaterialize : ∀ initSpec : ExecSpec,
      (agent.materializeInitConfigFiles info initSpec).Yields (fun result =>
        ∀ found, result = .ok found → found.command = initSpec.command) := by
    intro initSpec
    refine yields_bind _ fun _ => yields_bind _ fun mounts => ?_
    cases mounts with
    | error message => exact yields_pure fun _ herror => nomatch herror
    | ok secretMounts =>
      refine yields_pure fun found hfound => ?_
      cases hfound
      rfl
  refine Ensures.shows_later (fun _ _ _ => trivial) fun envVars first _ => ?_
  refine Ensures.shows_later (fun result _ hrun => (hmaterialize _).of_runs hrun)
    fun materialized second hcommand => ?_
  cases materialized with
  | error message => exact ensures_pure fun herror => nomatch herror
  | ok initSpec =>
    refine Proc.ensures_request_shows fun reply hreply => ?_
    subst hreply
    rw [hstep.index]
    refine ShowsDone.command ?_
    rw [hvalue, hcommand initSpec rfl]

/-- A passed probe leaves a mark in the history. -/
theorem ensures_runConnectionProbe (hconnection : stepDefinition.connection ≠ []) :
    (agent.runConnectionProbe info stepDefinition).Ensures (journaled mayFail)
      (fun result final => result = .ok () →
        Recorded.Shows (ShowsDone site.table info stepIndex) journal final) journal := by
  refine Ensures.shows_later (fun _ _ _ => trivial) fun _ first _ => ?_
  refine Ensures.shows_later (fun _ _ _ => trivial) fun url second _ => ?_
  split
  · exact ensures_pure fun herror => nomatch herror
  refine Ensures.shows_later (fun _ _ _ => trivial) fun found third _ => ?_
  cases found with
  | none => exact ensures_pure fun herror => nomatch herror
  | some connectionValue =>
    refine Ensures.shows_later (fun _ _ _ => trivial) fun resolved fourth _ => ?_
    cases resolved with
    | error message => exact ensures_pure fun herror => nomatch herror
    | ok resolvedAddress =>
      apply Ensures.bind
      have hdial : (Proc.request (AgentCall.dial ⟨info.id, stepDefinition.index⟩
          resolvedAddress) : AgentProgram _).Ensures (journaled mayFail) (fun result final =>
            result = .ok () → Recorded.Shows (ShowsDone site.table info stepIndex) fourth final)
          fourth := by
        refine Proc.ensures_request_shows fun reply hreply => ?_
        subst hreply
        rw [hstep.index]
        exact ShowsDone.connection hconnection (hstep.connection hconnection)
      refine hdial.mono fun dialed final hshows => ?_
      cases dialed with
      | error message => exact ensures_pure fun herror => nomatch herror
      | ok _ => exact ensures_pure fun _ => hshows rfl

theorem ensures_runInitStep :
    (agent.runInitStep image info stepDefinition).Ensures (journaled mayFail)
      (fun result final => result = .ok () →
        Recorded.Shows (ShowsDone site.table info stepIndex) journal final) journal := by
  unfold Agent.runInitStep
  split
  next hconnection => exact ensures_runConnectionProbe agent hstep hconnection
  next => exact ensures_runInitCommand agent image hstep

/-- A succeeded step leaves its mark in the history. -/
theorem ensures_executeInitStep (totalSteps : Int) :
    (agent.executeInitStep info stepDefinition image totalSteps).Ensures (journaled mayFail)
      (fun succeeded final => succeeded = true →
        Recorded.Shows (ShowsDone site.table info stepIndex) journal final) journal := by
  refine Ensures.shows_later (fun _ _ _ => trivial) fun backoffEntry first _ => ?_
  split
  · refine Ensures.shows_later (fun _ _ _ => trivial) fun _ second _ => ?_
    exact ensures_pure fun hfalse => nomatch hfalse
  refine Ensures.shows_later (fun _ _ _ => trivial) fun backingOff second _ => ?_
  split
  · exact ensures_pure fun hfalse => nomatch hfalse
  refine Ensures.shows_later (fun _ _ _ => trivial) fun _ third _ => ?_
  refine Ensures.shows_later (fun _ _ _ => trivial) fun _ fourth _ => ?_
  refine (ensures_runInitStep agent image hstep).seq fun result fifth hshows => ?_
  cases result with
  | ok _ =>
    intro succeeded final hrun _
    exact Proc.shows_of_shown (hshows rfl) _ succeeded final hrun
  | error message =>
    refine (show Proc.Ensures _ _ (fun succeeded _ => succeeded = false) fifth from ?_).mono ?_
    · exact Proc.Yields.ensures (yields_bind _ fun _ => yields_bind _ fun _ =>
        yields_bind _ fun _ => yields_pure rfl)
    · intro succeeded final hfalse htrue
      rw [hfalse] at htrue
      cases htrue

end Step

/-! ## All steps -/

section Steps

variable {mayFail : StoreRequest → Prop} {site : Site} {journal : Journal} (agent : Agent)
  {info : PlacedInstance} {count : Nat}

theorem ensures_readInitStepState (table : ValidTable) (stepIndex : Nat) :
    (readInitStepState info.id stepIndex).Ensures (journaled mayFail)
      (fun found final => found = initStepSucceeded →
        Recorded.Shows (ShowsDone table info stepIndex) journal final) journal := by
  refine (ensures_lookup_shows _).seq fun found final hshows => ?_
  refine ensures_pure fun hsucceeded => ?_
  cases found with
  | none => exact absurd hsucceeded (by decide)
  | some value =>
    obtain ⟨added, hadded, _, hentry, _, rfl, hvalue⟩ := hshows value rfl
    exact ⟨added, hadded, _, hentry, ShowsDone.reported (hvalue.trans hsucceeded)⟩

theorem ensures_stepsDone {table : ValidTable} (h : StepsDone table info journal.history count)
    (program : AgentProgram Result) :
    program.Ensures (journaled mayFail) (fun _ final => StepsDone table info final.history count)
      journal := by
  intro _ final hrun
  obtain ⟨added, hadded⟩ := hrun.grows
  rw [hadded]
  exact h.append added

/-- The loop goes through the steps in order and ends at the first that is not
done. -/
theorem ensures_executeInitSteps (image : Str) (totalSteps : Int)
    {stepDefinitions : List InitStepDefinition} {first rest : Nat}
    (hsteps : List.Forall₂ (ReadStep site.table info.service) stepDefinitions
      (List.range' first rest))
    (h : StepsDone site.table info journal.history first) :
    (agent.executeInitSteps info image totalSteps stepDefinitions).Ensures (journaled mayFail)
      (fun succeeded final => succeeded = true →
        StepsDone site.table info final.history (first + rest)) journal := by
  induction rest generalizing stepDefinitions first journal with
  | zero =>
    cases hsteps
    exact (ensures_stepsDone h _).mono fun _ _ hdone _ => hdone
  | succ rest ih =>
    obtain ⟨_, following, hstep, hfollowing, rfl⟩ :=
      forall₂_cons_right_iff.mp (List.range'_succ ▸ hsteps)
    have hgoOn : ∀ middle : Journal, StepsDone site.table info middle.history (first + 1) →
        (agent.executeInitSteps info image totalSteps following).Ensures (journaled mayFail)
          (fun succeeded final => succeeded = true →
            StepsDone site.table info final.history (first + (rest + 1))) middle := by
      intro middle hmiddle
      have hrest := ih hfollowing hmiddle
      rwa [Nat.add_right_comm] at hrest
    apply Ensures.bind
    rw [hstep.index]
    refine ((ensures_readInitStepState site.table first).and (ensures_stepsDone h _)).mono ?_
    intro existingState middle ⟨hshows, hmiddle⟩
    split
    next hsucceeded => exact hgoOn middle (h.shows (hshows hsucceeded))
    next =>
      refine (ensures_stepsDone hmiddle _).seq fun _ before hbefore => ?_
      refine (ensures_executeInitStep agent image hstep totalSteps).seq ?_
      intro succeeded after hafter
      cases succeeded with
      | true => exact hgoOn after (hbefore.shows (hafter rfl))
      | false => exact ensures_pure fun hfalse => nomatch hfalse

section

variable (h : Settled site journal) {service : Str}
include h

theorem Settled.initStep_value (rest : Str) :
    journal.state.table.value (scanDesiredServiceInitSteps service ++ rest) =
      site.table.value (scanDesiredServiceInitSteps service ++ rest) := by
  refine h _ (Or.inl (List.IsPrefix.trans (?_ : lit "desired/" <+: scanDesiredServices) ?_))
  · decide
  · exact (prefix_append _ _).trans (prefix_append _ _)

theorem Settled.numbered (hnumbered : InitStepsNumbered site.table service count) :
    InitStepsNumbered journal.state.table service count := by
  have hdesired : ∀ stepIndex, DesiredInitStep journal.state.table service stepIndex ↔
      DesiredInitStep site.table service stepIndex := fun stepIndex => by
    rw [DesiredInitStep, keyDesiredServiceInitStep, h.initStep_value]
    rfl
  refine ⟨fun stepIndex => ?_, fun rest hpresent hnumeral => ?_⟩
  · rw [hdesired]
    exact hnumbered.desired stepIndex
  · simp only [hdesired]
    exact hnumbered.written rest (h.initStep_value rest ▸ hpresent) hnumeral

theorem Settled.readStep {stepDefinition : InitStepDefinition} {stepIndex : Nat}
    (hstep : ReadStep journal.state.table service stepDefinition stepIndex) :
    ReadStep site.table service stepDefinition stepIndex := by
  have hfield : ∀ field,
      journal.state.table.value (keyDesiredServiceInitStepField service stepIndex field) =
        site.table.value (keyDesiredServiceInitStepField service stepIndex field) := fun _ => by
    simp only [keyDesiredServiceInitStepField, keyDesiredServiceInitStep, append_assoc,
      h.initStep_value]
  exact ⟨hstep.index, fun hexec => (hfield _).symm.trans (hstep.exec hexec),
    fun hconnection => (hfield _).symm.trans (hstep.connection hconnection)⟩

end

/-- What lets the gate open. -/
def GatePassed (site : Site) (info : PlacedInstance) (count : Nat)
    (history : List (Sigma AgentReply)) : Prop :=
  ScanFailed history (scanDesiredServiceInitSteps info.service) ∨
    StepsDone site.table info history count

theorem ensures_gatePassed (h : GatePassed site info count journal.history)
    (program : AgentProgram Result) : program.Ensures (journaled mayFail)
      (fun _ final => GatePassed site info count final.history) journal := by
  rcases h with ⟨message, hentry⟩ | hdone
  · exact fun _ _ hrun => Or.inl ⟨message, hrun.mem_history hentry⟩
  · exact (ensures_stepsDone hdone program).mono fun _ _ => Or.inr

variable (hnumbered : InitStepsNumbered site.table info.service count)
  (hphase : site.table.value (keyDerivedInstanceInitPhase info.id) = some initPhaseComplete →
    ∀ stepIndex < count, InitStepRecorded site.table info.id stepIndex)
  (h : Settled site journal)
include hnumbered hphase h

theorem ensures_executeInitializationSteps (image : Str) :
    (agent.executeInitializationSteps info image).Ensures (journaled mayFail)
      (fun passed final => passed = true → GatePassed site info count final.history) journal := by
  refine (ensures_loadInitStepDefinitions _ (h.numbered hnumbered)).seq ?_
  intro stepDefinitions loaded ⟨hloaded, hsteps⟩
  rcases hsteps with hfailed | hsteps
  · exact (ensures_gatePassed (Or.inl hfailed) _).mono fun _ _ hpassed _ => hpassed
  have hsteps : List.Forall₂ (ReadStep site.table info.service) stepDefinitions
      (List.range' 0 count) := by
    rw [← range_eq_range']
    exact hsteps.imp fun _ _ hstep => h.readStep hstep
  split
  next hnone =>
    refine ensures_pure fun _ => Or.inr ?_
    have hlength := hsteps.length_eq
    rw [hnone, length_range'] at hlength
    rw [← hlength]
    exact StepsDone.none _
  next =>
    apply Ensures.bind
    refine (ensures_lookup _).seq fun phase middle ⟨_, hfound⟩ => ?_
    apply ensures_pure
    split
    next hcomplete =>
      -- a phase that was read is the derived fact
      have hvalue := value_of_getD_ne_nil hfound (by rw [hcomplete]; decide)
      rw [hcomplete, hloaded, h (keyDerivedInstanceInitPhase info.id) (Or.inr ?_)] at hvalue
      · exact ensures_pure fun _ => Or.inr (StepsDone.of_recorded (hphase hvalue))
      · exact (show lit "derived/" <+: scanDerivedInstances by decide).trans (prefix_append _ _)
    next =>
      refine (ensures_executeInitSteps agent image _ hsteps (StepsDone.none _)).mono ?_
      intro _ final hdone hsucceeded
      have hall := hdone hsucceeded
      rw [Nat.zero_add] at hall
      exact Or.inr hall

theorem ensures_awaitInitSteps (image : Str) :
    (agent.awaitInitSteps info image).Ensures (journaled mayFail)
      (fun passed final => passed = true → GatePassed site info count final.history) journal := by
  apply Ensures.bind
  refine ((ensures_scanned _).and
    (ensures_settled h)).seq fun facts middle ⟨⟨hmiddle, hfacts⟩, hsettled⟩ => ?_
  apply ensures_pure
  rcases hfacts with rfl | ⟨-, -, hfailed⟩
  · split
    next => exact ensures_executeInitializationSteps agent hnumbered hphase hsettled image
    next hnone =>
      refine ensures_pure fun _ => Or.inr ?_
      have hcount := (h.numbered hnumbered).countP
      rw [countP_eq_zero.mpr fun fact hfact hkey => hnone ?_] at hcount
      · rw [← hcount]
        exact StepsDone.none _
      · exact any_eq_true.mpr ⟨fact, hfact, hkey⟩
  · exact (ensures_gatePassed (Or.inl hfailed) _).mono fun _ _ hpassed _ => hpassed

/-- The wait passes only once every init step is done. -/
theorem ensures_awaitInitAndVolumes (image : Str) (secretAPI : Option (Str × Str)) :
    (agent.awaitInitAndVolumes info image secretAPI).Ensures (journaled mayFail)
      (fun passed final => passed = true → GatePassed site info count final.history) journal := by
  refine (ensures_awaitInitSteps agent hnumbered hphase h image).seq ?_
  intro passed _ hpassed
  cases passed with
  | true => exact (ensures_gatePassed (hpassed rfl) _).mono fun _ _ hgate _ => hgate
  | false =>
    apply Ensures.bind
    intro _ final _
    exact ensures_pure fun hfalse => nomatch hfalse

theorem ensures_prepareInstance :
    (agent.prepareInstance info).Ensures (journaled mayFail) (fun prepared final =>
      prepared ≠ none → GatePassed site info count final.history) journal := by
  have hnothing : ∀ final : Journal, (none : Option Agent.PreparedInstance) ≠ none →
      GatePassed site info count final.history := fun _ hne => absurd rfl hne
  refine (ensures_settled h).seq ?_
  intro image first hfirst
  split
  · exact ensures_pure (hnothing first)
  refine (ensures_settled hfirst).seq ?_
  intro material second hsecond
  cases material with
  | none => exact ensures_pure (hnothing second)
  | some secretValues =>
  refine (ensures_settled hsecond).seq ?_
  intro _ _ hthird
  refine (ensures_settled hthird).seq ?_
  intro _ fourth hfourth
  split
  swap
  · exact ensures_pure (hnothing fourth)
  refine (ensures_settled hfourth).seq ?_
  intro secretAPI _ hfifth
  refine (ensures_awaitInitAndVolumes agent hnumbered hphase hfifth image secretAPI).seq ?_
  intro passed sixth hpassed
  cases passed with
  | true => exact (ensures_gatePassed (hpassed rfl) _).mono fun _ _ hgate _ => hgate
  | false => exact ensures_pure (hnothing sixth)

end Steps

/-! ## Starts -/

section Starts

variable (agent : Agent) {mayFail : StoreRequest → Prop} {site : Site} {info : PlacedInstance}
  {desired : List PlacedInstance} {journal : Journal}

/-- If the steps are numbered and a complete phase is no mistake, all of them were done, or a
scan for them failed. -/
def Gated (site : Site) (info : PlacedInstance) (history : List (Sigma AgentReply)) : Prop :=
  ∀ count, InitStepsNumbered site.table info.service count →
    (site.table.value (keyDerivedInstanceInitPhase info.id) = some initPhaseComplete →
      ∀ stepIndex, DesiredInitStep site.table info.service stepIndex →
        InitStepRecorded site.table info.id stepIndex) →
    GatePassed site info count history

/-- Before each start of a container the gate of its instance was passed. -/
def StartsGated (site : Site) (desired : List PlacedInstance) (journal : Journal) : Prop :=
  ∀ before spec reply after, journal.history = before ++ ⟨.start spec, reply⟩ :: after →
    ∃ info ∈ desired, spec.id = info.id ∧ Gated site info before

theorem Gated.append {history : List (Sigma AgentReply)} (h : Gated site info history)
    (later : List (Sigma AgentReply)) : Gated site info (history ++ later) := by
  intro count hnumbered hphase
  rcases h count hnumbered hphase with ⟨message, hfailed⟩ | hdone
  · exact Or.inl ⟨message, mem_append_left _ hfailed⟩
  · exact Or.inr (hdone.append later)

/-- The site is settled, and the gates were passed, also for what may still be started. -/
structure Guarded (site : Site) (desired : List PlacedInstance) (allowed : Spec → Prop)
    (journal : Journal) : Prop where
  settled : Settled site journal
  gated : StartsGated site desired journal
  ready : ∀ spec, allowed spec → ∃ info ∈ desired, spec.id = info.id ∧
    Gated site info journal.history

theorem ensures_guarded {allowed : Spec → Prop} (hcalls : program.Calls (StartsOnly allowed))
    (h : Guarded site desired allowed journal) :
    program.Ensures (journaled mayFail) (fun _ => Guarded site desired allowed) journal := by
  refine hcalls.ensures ?_ h
  intro before call reply after hcall hanswer hbefore
  have hhistory : after.history = before.history ++ [⟨call, reply⟩] := hanswer.2
  refine ⟨hbefore.settled.answered hcall hanswer, fun earlier spec started later hsplit => ?_,
    fun spec hspec => ?_⟩
  · rw [hhistory] at hsplit
    obtain rfl | ⟨others, last, rfl⟩ := eq_nil_or_concat later
    · obtain ⟨rfl, hlast⟩ := append_inj' hsplit rfl
      cases hlast
      exact hbefore.ready spec hcall
    · rw [concat_eq_append, ← cons_append, ← append_assoc] at hsplit
      exact hbefore.gated earlier spec started others (append_inj' hsplit rfl).1
  · obtain ⟨info, hinfo, hid, hgated⟩ := hbefore.ready spec hspec
    exact ⟨info, hinfo, hid, hhistory ▸ hgated.append _⟩

/-- Nothing more may be started. -/
abbrev Idle (site : Site) (desired : List PlacedInstance) : Journal → Prop :=
  Guarded site desired fun _ => False

theorem ensures_idle [hcalls : Makes Routine program] (h : Idle site desired journal) :
    program.Ensures (journaled mayFail) (fun _ => Idle site desired) journal :=
  ensures_guarded (hcalls.calls.mono Routine.startsOnly) h

theorem ensures_reconcileDesiredInstance (hinfo : info ∈ desired) (h : Idle site desired journal) :
    (agent.reconcileDesiredInstance info).Ensures (journaled mayFail)
      (fun _ => Idle site desired) journal := by
  intro result final hrun
  obtain ⟨prepared, middle, hprepare, hrest⟩ := Proc.runs_bind.mp hrun
  have hmiddle : Idle site desired middle := ensures_idle h _ _ hprepare
  cases prepared with
  | none =>
    obtain ⟨-, rfl⟩ := hrest
    exact hmiddle
  | some prepared =>
    have hgated : Gated site info middle.history := fun count hnumbered hphase =>
      ensures_prepareInstance agent hnumbered (fun hcomplete stepIndex hlt => hphase hcomplete
        stepIndex ((hnumbered.desired stepIndex).mpr hlt)) h.settled _ middle hprepare (by simp)
    have hguarded := ensures_guarded ((startsOnly_reconcileDesiredInstance agent info).of_bind
      hprepare) ⟨hmiddle.settled, hmiddle.gated, fun _ hid => ⟨info, hinfo, hid, hgated⟩⟩ _ _ hrest
    exact ⟨hguarded.settled, hguarded.gated, fun _ hfalse => hfalse.elim⟩

theorem ensures_reconcileInstance (runningByID : Map Status) (hinfo : info ∈ desired)
    (h : Idle site desired journal) :
    (agent.reconcileInstance runningByID info).Ensures (journaled mayFail)
      (fun _ => Idle site desired) journal := by
  have hup : ∀ status, (agent.bringUpInstance info status).Ensures (journaled mayFail)
      (fun _ => Idle site desired) journal := fun status =>
    (ensures_idle h).seq fun _ _ hmiddle => ensures_reconcileDesiredInstance agent hinfo hmiddle
  unfold Agent.reconcileInstance
  split
  · exact hup _
  · split
    · unfold Agent.observeRunningInstance
      exact ensures_idle h
    · exact hup _

/-- The invariant rule of `each`. -/
theorem ensures_each {α : Type} {body : α → AgentProgram Unit} {items : List α}
    {keeps : Journal → Prop} (hbody : ∀ item ∈ items, ∀ journal, keeps journal →
      (body item).Ensures (journaled mayFail) (fun _ => keeps) journal) (h : keeps journal) :
    (each body items).Ensures (journaled mayFail) (fun _ => keeps) journal := by
  induction items generalizing journal with
  | nil => exact ensures_pure h
  | cons item rest ih =>
    refine (hbody item mem_cons_self journal h).seq fun _ _ hmiddle => ?_
    exact ih (fun other hother => hbody other (mem_cons_of_mem _ hother)) hmiddle

theorem ensures_reconcileWithRuntime (h : Idle site desired journal) :
    (agent.reconcileWithRuntime desired).Ensures (journaled mayFail)
      (fun _ => Idle site desired) journal := by
  refine (ensures_idle h).seq fun running _ hfirst => ?_
  cases running with
  | error message => exact ensures_pure hfirst
  | ok running =>
    refine Proc.Ensures.seq ?_ fun _ _ hlast => ensures_pure hlast
    refine ((ensures_idle hfirst).and (yields_sliceStable _ desired []).ensures).seq ?_
    intro sorted _ ⟨hsecond, hsorted⟩
    refine (ensures_each (fun info hinfo _ hcurrent =>
      ensures_reconcileInstance agent _ ?_ hcurrent) hsecond).seq fun _ _ hthird =>
        ensures_idle hthird
    simpa using hsorted.mem_iff.mp hinfo

/-- Every start, in an attempt to bring up an instance and in a whole cycle, comes after the
init steps of the instance. -/
theorem started_after_init_steps (site : Site) :
    (∀ info result final, (agent.reconcileDesiredInstance info).Runs (journaled AllMayFail)
      ⟨site, []⟩ result final → StartsGated site [info] final) ∧
    ∀ result final, agent.executeReconciliationCycle.Runs (journaled AllMayFail) ⟨site, []⟩ result
      final → ∃ placed found, agent.findInstancesPlacedOnThisNode.Runs (journaled AllMayFail)
        ⟨site, []⟩ placed found ∧ found.history <+: final.history ∧
          StartsGated site (placed.toOption.getD []) final := by
  have hstart : ∀ desired, Idle site desired ⟨site, []⟩ := fun desired =>
    ⟨fun _ _ => rfl, fun before _ _ _ hsplit => by simp at hsplit, fun _ hfalse => hfalse.elim⟩
  refine ⟨fun info result final hrun => ?_, fun result final hrun => ?_⟩
  · exact (ensures_reconcileDesiredInstance agent (mem_singleton.mpr rfl) (hstart [info]) result
      final hrun).gated
  · obtain ⟨placed, middle, hfind, hrest⟩ := Proc.runs_bind.mp hrun
    have hmiddle := ensures_idle (hstart (placed.toOption.getD [])) _ _ hfind
    obtain ⟨added, hadded⟩ := hrest.grows
    refine ⟨placed, middle, hfind, ⟨added, hadded.symm⟩, ?_⟩
    cases placed with
    | error error =>
      obtain ⟨-, rfl⟩ := hrest
      exact hmiddle.gated
    | ok desired => exact (ensures_reconcileWithRuntime agent hmiddle _ _ hrest).gated

end Starts

/-! ## A service with one step -/

/-- The instance and its service, whose init step is a migration. -/
def migratingWeb : Site where
  table := holding [(keyDesiredServiceImage (lit "web"), lit "web:1"),
      (keyDesiredServiceInitStep (lit "web") 0, []),
      (keyDesiredServiceInitStepExec (lit "web") 0, lit "migrate")]
  memory := AgentMemory.new

def firstWeb : PlacedInstance := ⟨lit "web-1", lit "web"⟩

/-- The scan for init steps fails. -/
def blindToSteps : Surroundings :=
  ⟨[], ∅, fun _ => false, fun scanPrefix => scanPrefix = scanDesiredServiceInitSteps (lit "web"),
    []⟩

/-- The call runs an init step or asks for the state of one. -/
def AgentCall.asksForStep : AgentCall → Bool
  | .execInit _ _ _ | .dial _ _ => true
  | .store (.get key) => key = keyObservedInstanceInitStepState (lit "web-1") 0
  | _ => false

theorem migratingWeb_evaluates :
    (migratingWeb.table.value (keyObservedInstanceInitStepState (lit "web-1") 0) = none ∧
      migratingWeb.table.value (keyDerivedInstanceInitPhase (lit "web-1")) = none ∧
      (Map.ofPairs ((migratingWeb.table.scanned (scanDesiredServiceInitSteps (lit "web"))).map
        (fun fact => (fact.key.trimPrefix (scanDesiredServiceInitSteps (lit "web")),
          fact.value)))).keys.Perm [lit "0", lit "0/exec"]) ∧
    (blindToSteps.replay (plainAgent.reconcileDesiredInstance firstWeb)
      migratingWeb).2.history.all (fun entry => !entry.1.asksForStep) ∧
    (blindToSteps.replay (plainAgent.reconcileDesiredInstance firstWeb)
      migratingWeb).2.history.any (fun entry => entry.1.startsInstance (lit "web-1")) := by
  decide +kernel

theorem migratingWeb_numbered : InitStepsNumbered migratingWeb.table (lit "web") 1 := by
  have hpresent : ∀ rest,
      (migratingWeb.table.value (scanDesiredServiceInitSteps (lit "web") ++ rest)).isSome ↔
        rest = lit "0" ∨ rest = lit "0/exec" := by
    intro rest
    rw [← ValidTable.lookup_scanned (scanDesiredServiceInitSteps_ne_nil _), AList.lookup_isSome,
      AList.mem_keys, migratingWeb_evaluates.1.2.2.mem_iff, mem_pair]
  have hdesired : ∀ stepIndex, DesiredInitStep migratingWeb.table (lit "web") stepIndex ↔
      stepIndex < 1 := by
    intro stepIndex
    rw [DesiredInitStep, keyDesiredServiceInitStep, hpresent, Nat.lt_one_iff]
    constructor
    · intro ⟨_, hname⟩
      rcases hname with hzero | hfield
      · exact @itoa_inj stepIndex 0 hzero
      · have hslash := slash_notMem_itoa stepIndex
        rw [hfield] at hslash
        exact absurd (by decide) hslash
    · intro hzero
      subst hzero
      exact ⟨by decide, Or.inl (by decide)⟩
  refine ⟨hdesired, fun rest hrest hnumeral => ?_⟩
  rcases (hpresent rest).mp hrest with rfl | rfl
  · exact ⟨0, (hdesired 0).mpr Nat.zero_lt_one, by decide⟩
  · exact absurd hnumeral (by decide)

/-- A failed scan opens the gate before the migration. -/
theorem started_before_init_step :
    ∃ result final, (plainAgent.reconcileDesiredInstance firstWeb).Runs (journaled AllMayFail)
        ⟨migratingWeb, []⟩ result final ∧
      DesiredInitStep migratingWeb.table firstWeb.service 0 ∧
      ∃ before spec reply after, final.history = before ++ ⟨.start spec, reply⟩ :: after ∧
        ¬ StepsDone migratingWeb.table firstWeb before 1 := by
  obtain ⟨⟨hstate, -⟩, hall, hany⟩ := migratingWeb_evaluates
  obtain ⟨spec, reply, hentry, -⟩ := exists_start_of_any hany
  obtain ⟨before, after, hsplit⟩ := append_of_mem hentry
  refine ⟨_, _, blindToSteps.runs_replay (fun _ _ => trivial) _ _,
    (migratingWeb_numbered.desired 0).mpr Nat.zero_lt_one, before, spec, reply, after, hsplit, ?_⟩
  intro hdone
  have hquiet : ∀ entry ∈ before, entry.1.asksForStep = false := by
    intro entry hmem
    have hmem' := all_eq_true.mp hall entry (hsplit ▸ mem_append_left _ hmem)
    simpa using hmem'
  cases hdone with
  | recorded _ hrecorded =>
    cases hrecorded
  | shown _ hmem hshows =>
    have hasks := hquiet _ (mem_append_right _ hmem)
    cases hshows with
    | reported => exact absurd hasks (by simp [AgentCall.asksForStep, firstWeb])
    | command => cases hasks
    | connection => cases hasks

/-- When every request is answered, the migration comes first. -/
theorem started_after_migration : InitStepsNumbered migratingWeb.table (lit "web") 1 ∧
    ∀ before spec reply after,
      (Surroundings.calm.replay (plainAgent.reconcileDesiredInstance firstWeb)
        migratingWeb).2.history = before ++ ⟨.start spec, reply⟩ :: after →
      StepsDone migratingWeb.table firstWeb before 1 := by
  refine ⟨migratingWeb_numbered, fun before spec reply after hsplit => ?_⟩
  obtain ⟨info, hinfo, -, hgated⟩ := (started_after_init_steps plainAgent migratingWeb).1 firstWeb
    _ _ (Surroundings.runs_replay_calm AllMayFail _ _) before spec reply after hsplit
  obtain rfl := mem_singleton.mp hinfo
  refine (hgated 1 migratingWeb_numbered (fun hcomplete => by cases hcomplete)).resolve_left ?_
  intro ⟨message, hentry⟩
  have hrun := Surroundings.runs_replay_calm reliable
    (plainAgent.reconcileDesiredInstance firstWeb) migratingWeb
  rcases hrun.answered (hsplit ▸ mem_append_left _ hentry) with hinitial | ⟨_, _, hanswer, -⟩
  · cases hinitial
  · rcases hanswer with ⟨hreply, -⟩ | ⟨hfail, -, -⟩
    · cases hreply
    · exact hfail.elim

end CCattler.NodeAgent
