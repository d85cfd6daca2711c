import CCattler.Agent.Footprint

/-! # Stop markers and failing reads

The agent looks for four markers of every placed instance, and a read that fails
counts as an absent fact. So a marker is overlooked exactly when its read fails.
-/

namespace CCattler.NodeAgent

open Go Store Concurrency CCattler.Types CCattler.Controllers AgentProgram
open Concurrency.Proc (Makes ensures_pure yields_bind yields_pure)

/-- Single keys may be unreadable; scans and writes succeed. -/
def ReadsMayFail : StoreRequest → Prop
  | .get _ => True
  | _ => False

/-- A fact, under the given key, for which the node must not start the instance. -/
inductive StopMarker (nodeID : Str) (table : ValidTable) (instanceID : Str) : Str → Prop
  | nodeFailure (h : (table.value (keyDerivedInstanceNodeFailure instanceID)).isSome) :
      StopMarker nodeID table instanceID (keyDerivedInstanceNodeFailure instanceID)
  | controllerStopped (h : (table.value (keyDerivedInstanceControllerStopped instanceID)).isSome) :
      StopMarker nodeID table instanceID (keyDerivedInstanceControllerStopped instanceID)
  | drainEvict (h : (table.value (keyDerivedNodeDrainEvict nodeID instanceID)).isSome) :
      StopMarker nodeID table instanceID (keyDerivedNodeDrainEvict nodeID instanceID)
  | state (h : table.value (keyObservedInstanceState instanceID) = some instanceStopped ∨
        table.value (keyObservedInstanceState instanceID) = some instanceFailed) :
      StopMarker nodeID table instanceID (keyObservedInstanceState instanceID)

/-! ## Placed instances -/

variable {final : Journal} {key : Str}

section Placed

variable (agent : Agent)

/-- Every marker of the instance was overlooked. -/
def Overlooked (journal : Journal) (instanceID : Str) : Prop :=
  ∀ key, StopMarker agent.nodeID journal.state.table instanceID key → ReadFailed journal.history key

theorem Overlooked.later {before after : Journal} (h : Unmoved before after) {instanceID : Str}
    (hoverlooked : Overlooked agent before instanceID) : Overlooked agent after instanceID := by
  intro key hmarker
  rw [h.state] at hmarker
  exact (hoverlooked key hmarker).later h

variable {agent} {mayFail : StoreRequest → Prop} {journal : Journal}

/-- A stored value that is not found was read in vain. -/
theorem readFailed_of_notFound {found : Option Str} (hread : found = journal.state.table.value key ∨
      mayFail (.get key) ∧ found = none ∧ ReadFailed final.history key) (hnone : found = none)
    (hpresent : (journal.state.table.value key).isSome) : ReadFailed final.history key := by
  rcases hread with hvalue | ⟨-, -, hfailed⟩
  · rw [← hvalue, hnone] at hpresent
    cases hpresent
  · exact hfailed

/-- A marker is missed only by a failed read. -/
theorem ensures_isInstanceMarkedForSkip (instanceID : Str) :
    (isInstanceMarkedForSkip instanceID).Ensures (journaled mayFail) (fun marked final =>
      Unmoved journal final ∧ (marked = false →
        ((journal.state.table.value (keyDerivedInstanceNodeFailure instanceID)).isSome →
          ReadFailed final.history (keyDerivedInstanceNodeFailure instanceID)) ∧
        ((journal.state.table.value (keyDerivedInstanceControllerStopped instanceID)).isSome →
          ReadFailed final.history (keyDerivedInstanceControllerStopped instanceID)))) journal := by
  refine (ensures_lookup_recorded _).seq ?_
  intro failure middle ⟨hmiddle, hfailure⟩
  cases failure with
  | some value => exact ensures_pure ⟨hmiddle, fun hmarked => nomatch hmarked⟩
  | none =>
    refine (ensures_lookup_recorded _).seq ?_
    intro stopped final ⟨hfinal, hstopped⟩
    refine ensures_pure ⟨hmiddle.trans hfinal, fun hmarked => ⟨fun hpresent => ?_, ?_⟩⟩
    · exact (readFailed_of_notFound hfailure rfl hpresent).later hfinal
    · intro hpresent
      rw [← hmiddle.state] at hpresent
      exact readFailed_of_notFound hstopped (Option.not_isSome_iff_eq_none.mp (by simp [hmarked]))
        hpresent

theorem ensures_findPlacedInstance (instanceID : Str) :
    (agent.findPlacedInstance instanceID).Ensures (journaled mayFail) (fun found final =>
      Unmoved journal final ∧ ∀ info, found = some info →
        info.id = instanceID ∧ Overlooked agent final instanceID) journal := by
  refine (ensures_isInstanceMarkedForSkip instanceID).seq ?_
  intro marked first ⟨hfirst, hmarked⟩
  cases marked with
  | true => exact ensures_pure ⟨hfirst, fun _ hnone => nomatch hnone⟩
  | false =>
  obtain ⟨hnodeFailure, hstopped⟩ := hmarked rfl
  refine (ensures_lookup_recorded _).seq ?_
  intro state second ⟨hsecond, hstate⟩
  split
  · exact ensures_pure ⟨hfirst.trans hsecond, fun _ hnone => nomatch hnone⟩
  next hother =>
  refine (ensures_lookup_recorded _).seq ?_
  intro eviction third ⟨hthird, heviction⟩
  have hthree := (hfirst.trans hsecond).trans hthird
  split
  · exact ensures_pure ⟨hthree, fun _ hnone => nomatch hnone⟩
  next hevicted =>
  apply Proc.Ensures.bind
  have hservice : (lookupServiceOfInstance instanceID).Ensures (journaled mayFail)
      (fun _ final => Unmoved third final) third := by
    refine (ensures_lookup_recorded _).seq ?_
    intro service final ⟨hfinal, _⟩
    cases service <;> exact ensures_pure hfinal
  refine hservice.mono ?_
  intro service final hfinal
  have hall := hthree.trans hfinal
  split
  · exact ensures_pure ⟨hall, fun _ hnone => nomatch hnone⟩
  · refine ensures_pure ⟨hall, fun info hinfo => ?_⟩
    cases hinfo
    refine ⟨rfl, fun key hmarker => ?_⟩
    rw [hall.state] at hmarker
    -- each of the four reads was answered with no marker
    cases hmarker with
    | nodeFailure hpresent =>
      exact (hnodeFailure hpresent).later (hsecond.trans (hthird.trans hfinal))
    | controllerStopped hpresent =>
      exact (hstopped hpresent).later (hsecond.trans (hthird.trans hfinal))
    | drainEvict hpresent =>
      rw [← (hfirst.trans hsecond).state] at hpresent
      exact (readFailed_of_notFound heviction (Option.not_isSome_iff_eq_none.mp hevicted)
        hpresent).later hfinal
    | state hvalue =>
      rcases hstate with hfound | ⟨-, -, hfailed⟩
      · rw [hfirst.state] at hfound
        rw [hfound] at hother
        exact absurd hvalue hother
      · exact hfailed.later (hthird.trans hfinal)

theorem ensures_findPlacedInstances (instanceIDs : List Str) :
    (agent.findPlacedInstances instanceIDs).Ensures (journaled mayFail) (fun found final =>
      Unmoved journal final ∧ ∀ info ∈ found, Overlooked agent final info.id) journal := by
  induction instanceIDs generalizing journal with
  | nil => exact ensures_pure ⟨Unmoved.refl journal, fun _ hmem => nomatch hmem⟩
  | cons instanceID rest ih =>
    refine (ensures_findPlacedInstance instanceID).seq ?_
    intro found middle ⟨hmiddle, hfound⟩
    refine ih.seq ?_
    intro following final ⟨hfinal, hfollowing⟩
    refine ensures_pure ⟨hmiddle.trans hfinal, fun info hmem => ?_⟩
    rcases List.mem_append.mp hmem with hhead | hrest
    · obtain ⟨hid, hoverlooked⟩ := hfound info (Option.mem_toList.mp hhead)
      rw [hid]
      exact hoverlooked.later agent hfinal
    · exact hfollowing info hrest

theorem ensures_findInstancesPlacedOnThisNode :
    agent.findInstancesPlacedOnThisNode.Ensures (journaled mayFail) (fun found final =>
      final.state = journal.state ∧ ∀ desired, found = .ok desired →
        ∀ info ∈ desired, Overlooked agent final info.id) journal := by
  refine (ensures_scan _).seq ?_
  intro reply middle ⟨hmiddle, _⟩
  cases reply with
  | error error => exact ensures_pure ⟨hmiddle.state, fun _ hok => nomatch hok⟩
  | ok placements =>
    refine (ensures_findPlacedInstances _).seq ?_
    intro found final ⟨hfinal, hfound⟩
    refine ensures_pure ⟨(hmiddle.trans hfinal).state, fun desired hdesired => ?_⟩
    cases hdesired
    exact hfound

end Placed

/-! ## Whole cycles -/

variable {site : Site}

variable {mayFail : StoreRequest → Prop}

section Cycle

variable (agent : Agent)

variable (desired : List PlacedInstance)

theorem startsOnly_reconcileLists (running : List Status) :
    (agent.reconcileLists desired running).Calls
      (StartsOnly (fun spec => ∃ info ∈ desired, spec.id = info.id)) := by
  refine Proc.Calls.bind_of_yields Makes.calls (yields_sliceStable _ desired [])
    fun sorted hsorted => ?_
  have heach : Makes (StartsOnly fun spec => ∃ info ∈ desired, spec.id = info.id)
      (each (agent.reconcileInstance (Map.ofPairs (running.map
        fun runtimeStatus => (runtimeStatus.id, runtimeStatus)))) sorted) := by
    refine makes_each fun info hinfo => ⟨(startsOnly_reconcileInstance agent info _).mono ?_⟩
    intro call hcall
    cases call with
    | start spec => exact ⟨info, by simpa using hsorted.mem_iff.mp hinfo, hcall⟩
    | _ => exact hcall
  exact Makes.calls

theorem startsOnly_reconcileWithRuntime : (agent.reconcileWithRuntime desired).Calls
      (StartsOnly (fun spec => ∃ info ∈ desired, spec.id = info.id)) := by
  refine Proc.Calls.bind Makes.calls fun running => ?_
  cases running with
  | error message => exact Makes.calls
  | ok running => exact (startsOnly_reconcileLists agent desired running).bind_pure

/-- Starting a stopped instance takes a failed read of its marker. -/
theorem readFailed_of_started {result : Except Str Unit}
    (hrun : agent.executeReconciliationCycle.Runs (journaled mayFail) ⟨site, []⟩ result final)
    {spec : Spec} {reply : AgentReply (.start spec)}
    (hstarted : ⟨.start spec, reply⟩ ∈ final.history)
    (hmarker : StopMarker agent.nodeID site.table spec.id key) : ReadFailed final.history key := by
  obtain ⟨placed, middle, hfind, hrest⟩ := Proc.runs_bind.mp hrun
  obtain ⟨hstate, hplaced⟩ := ensures_findInstancesPlacedOnThisNode placed middle hfind
  cases placed with
  | error error =>
    obtain ⟨-, rfl⟩ := hrest
    exact absurd hstarted (not_started_of_routine hfind)
  | ok desired =>
    rcases (startsOnly_reconcileWithRuntime agent desired).allowed_of_mem hrest hstarted with
      hbefore | hstarts
    · exact absurd hbefore (not_started_of_routine hfind)
    · obtain ⟨info, hinfo, hid⟩ := hstarts
      rw [hid, show site.table = middle.state.table by rw [hstate]] at hmarker
      obtain ⟨message, hentry⟩ := hplaced desired rfl info hinfo key hmarker
      exact ⟨message, hrest.mem_history hentry⟩

/-- While one marker of every marked instance is read, no marked instance is
started. -/
theorem no_marked_instance_started {site : Site} {result : Except Str Unit} {final : Journal}
    (hrun : agent.executeReconciliationCycle.Runs (journaled ReadsMayFail) ⟨site, []⟩ result final)
    (hread : ∀ instanceID, (∃ key, StopMarker agent.nodeID site.table instanceID key) →
      ∃ key, StopMarker agent.nodeID site.table instanceID key ∧ ¬ ReadFailed final.history key) :
    ∀ spec reply, ⟨.start spec, reply⟩ ∈ final.history →
      ¬ ∃ key, StopMarker agent.nodeID site.table spec.id key := by
  intro spec reply hstarted hmarked
  obtain ⟨key, hmarker, hanswered⟩ := hread spec.id hmarked
  exact hanswered (readFailed_of_started agent hrun hstarted hmarker)

end Cycle

/-! ## A marker that cannot be read -/

/-- An instance that a controller has stopped, on the node on which it ran. -/
def stoppedWeb : Site where
  table := holding [(scanPlacementsForNode (lit "n1") ++ lit "web-1", []),
      (keyDerivedInstanceControllerStopped (lit "web-1"), lit "true"),
      (keyDesiredServiceImage (lit "web"), lit "web:1")]
  memory := AgentMemory.new

/-- A node without containers on which the reads of some keys fail. -/
def emptyNode (fails : Str → Bool) : Surroundings := ⟨[], ∅, fails, fun _ => false, []⟩

theorem emptyNode_mayFail {fails : Str → Bool} (request : StoreRequest)
    (h : (emptyNode fails).MayFail request) : ReadsMayFail request := by
  cases request with
  | get key => exact trivial
  | scan scanPrefix => exact nomatch h
  | _ => exact h.elim

/-- The marker is there, and one failing read is enough for the cycle to start the
instance. -/
theorem stoppedWeb_evaluates :
    ((stoppedWeb.table.value (keyDerivedInstanceControllerStopped (lit "web-1"))).isSome ∧
      stoppedWeb.table.value (keyDerivedInstanceNodeFailure (lit "web-1")) = none) ∧
    ((emptyNode (fun key => key = keyDerivedInstanceControllerStopped (lit "web-1"))).replay
      plainAgent.executeReconciliationCycle stoppedWeb).2.history.any (fun entry =>
        entry.1.startsInstance (lit "web-1")) := by
  decide +kernel

theorem stopped_instance_started_after_failed_read :
    ∃ result final, plainAgent.executeReconciliationCycle.Runs (journaled ReadsMayFail)
        ⟨stoppedWeb, []⟩ result final ∧
      ∃ spec reply, ⟨.start spec, reply⟩ ∈ final.history ∧
        ∃ key, StopMarker plainAgent.nodeID stoppedWeb.table spec.id key := by
  obtain ⟨⟨hpresent, -⟩, hstarts⟩ := stoppedWeb_evaluates
  obtain ⟨spec, reply, hentry, hid⟩ := exists_start_of_any hstarts
  refine ⟨_, _, Surroundings.runs_replay _ emptyNode_mayFail _ _, spec, reply, hentry, ?_⟩
  rw [hid]
  exact ⟨_, StopMarker.controllerStopped hpresent⟩

theorem StopMarker.isSome {nodeID : Str} {table : ValidTable} {instanceID : Str}
    (h : StopMarker nodeID table instanceID key) : (table.value key).isSome := by
  cases h with
  | state hvalue => rcases hvalue with hvalue | hvalue <;> rw [hvalue] <;> rfl
  | _ hpresent => exact hpresent

theorem mayFail_of_readFailed {Result : Type} {program : AgentProgram Result} {result : Result}
    (hrun : program.Runs (journaled mayFail) ⟨site, []⟩ result final)
    (h : ReadFailed final.history key) : mayFail (.get key) := by
  obtain ⟨_, hentry⟩ := h
  rcases hrun.answered hentry with hinitial | ⟨before, _, hanswer, -⟩
  · cases hinitial
  rcases hanswer with ⟨hreply, -⟩ | ⟨hfail, -⟩
  · -- the table itself says that there is no such key, never that a read failed
    simp only [ValidTable.perform, FactTable.get] at hreply
    cases hfact : before.table.facts key with
    | none =>
      rw [hfact] at hreply
      cases hreply
    | some fact =>
      rw [hfact] at hreply
      cases hreply
  · exact hfail

/-- The marker of a failed node cannot be read, but that of the controller can. -/
theorem stopped_instance_not_started :
    stoppedWeb.table.value (keyDerivedInstanceNodeFailure (lit "web-1")) = none ∧
    ∀ spec reply, ⟨.start spec, reply⟩ ∈
        ((emptyNode (fun key => key = keyDerivedInstanceNodeFailure (lit "web-1"))).replay
          plainAgent.executeReconciliationCycle stoppedWeb).2.history →
      ¬ ∃ key, StopMarker plainAgent.nodeID stoppedWeb.table spec.id key := by
  refine ⟨stoppedWeb_evaluates.1.2, no_marked_instance_started plainAgent
    (Surroundings.runs_replay _ emptyNode_mayFail _ _) ?_⟩
  intro instanceID ⟨key, hmarker⟩
  refine ⟨key, hmarker, fun hfailed => ?_⟩
  have hkey := mayFail_of_readFailed (Surroundings.runs_replay _ (fun _ h => h) _ _) hfailed
  rw [of_decide_eq_true hkey] at hmarker
  have hpresent := hmarker.isSome
  cases hpresent

end CCattler.NodeAgent
