import CCattler.Agent.Cycle
import CCattler.Store.MemoryContract
import CCattler.Store.WriteLoops

/-! # Running the agent

A site is the facts of the store and the agent's own memory. Store requests may fail,
and everything else may answer in any way. Runs are recorded.
-/

namespace CCattler.Store

open Go Concurrency ValidTable

/-- A request leaves at the keys it operates on the outcome of one of its operations. -/
theorem perform_value_cases {request : StoreRequest} (h : request.usesLease = false)
    (table : ValidTable) (key : Str) :
    (perform request table).2.value key = table.value key ∨
      ∃ operation ∈ request.operations, operation.key = key ∧
        (perform request table).2.value key = FactTable.outcome operation := by
  have hafter := fun operation => table.perform_value_cases operation key
  cases request with
  | put asked value => exact hafter (.put asked value)
  | delete asked => exact hafter (.delete asked)
  | transaction compares onSuccess onFailure =>
    refine (hafter (.transaction compares onSuccess onFailure)).imp id ?_
    rintro ⟨part, hmem, hrest⟩
    exact ⟨part, FactTable.mem_of_mem_branchOf hmem, hrest⟩
  | putWithLease _ _ _ | revokeLease _ => cases h
  | _ => exact Or.inl rfl

/-- What a store may answer; a failed write may have taken effect or not. -/
def StoreAnswers (mayFail : StoreRequest → Prop) (before : ValidTable) (request : StoreRequest)
    (reply : StoreReply request) (after : ValidTable) : Prop :=
  (reply = (before.perform request).1 ∧ after = (before.perform request).2) ∨
    (mayFail request ∧ (∃ message, reply = .error (.failed message)) ∧
      (after = before ∨ after = (before.perform request).2))

variable {mayFail : StoreRequest → Prop} {before after : ValidTable} {request : StoreRequest}
  {reply : StoreReply request}

variable (h : StoreAnswers mayFail before request reply after) (hlease : request.usesLease = false)
include h hlease

theorem StoreAnswers.value_cases (key : Str) : after.value key = before.value key ∨
      ∃ operation ∈ request.operations, operation.key = key ∧
        after.value key = FactTable.outcome operation := by
  rcases h with ⟨-, rfl⟩ | ⟨-, -, rfl | rfl⟩
  · exact perform_value_cases hlease before key
  · exact Or.inl rfl
  · exact perform_value_cases hlease before key

theorem StoreAnswers.value_of_notMem {key : Str}
    (hkey : ∀ operation ∈ request.operations, operation.key ≠ key) :
    after.value key = before.value key := by
  rcases h.value_cases hlease key with hsame | ⟨operation, hmem, heq, -⟩
  · exact hsame
  · exact absurd heq (hkey operation hmem)

end CCattler.Store

namespace CCattler.NodeAgent

open Go Store Concurrency CCattler.Types AgentProgram
open Concurrency.Proc (ensures_pure ensures_request)

/-- What a cycle acts on. -/
structure Site where
  table : ValidTable
  memory : AgentMemory

/-- The answers that the calls of the agent can get. -/
def Site.answers (mayFail : StoreRequest → Prop) : Environment AgentCall AgentReply Site :=
  fun before call reply after =>
    match call, reply with
    | .store request, reply =>
      StoreAnswers mayFail before.table request reply after.table ∧ after.memory = before.memory
    | .readMemory, reply => reply = before.memory ∧ after = before
    | .modify change, _ => after = { before with memory := change before.memory }
    | _, _ => after = before

/-- A site with the calls made so far. -/
abbrev Journal : Type := Recorded AgentCall AgentReply Site

/-- A store on which no request fails. -/
def reliable : StoreRequest → Prop := fun _ => False

/-- The calls of the agent, answered and recorded. -/
abbrev journaled (mayFail : StoreRequest → Prop) : Environment AgentCall AgentReply Journal :=
  (Site.answers mayFail).recorded

/-! ## Store calls

What the wrappers around the store return and leave, on a store that may fail and
on one that does not. A read that fails is found in the history. -/

variable (history : List (Sigma AgentReply))

/-- A read of the key failed along the way. -/
def ReadFailed (key : Str) : Prop :=
  ∃ message, ⟨.store (.get key), .error (.failed message)⟩ ∈ history

/-- A scan below the prefix failed along the way. -/
def ScanFailed (scanPrefix : Str) : Prop :=
  ∃ message, ⟨.store (.scan scanPrefix), .error (.failed message)⟩ ∈ history

/-- Nothing but the history has changed, and it has only grown. -/
structure Unmoved (before after : Journal) : Prop where
  state : after.state = before.state
  history : ∀ entry ∈ before.history, entry ∈ after.history

theorem Unmoved.refl (journal : Journal) : Unmoved journal journal :=
  ⟨rfl, fun _ hentry => hentry⟩

theorem Unmoved.trans {first second third : Journal} (h : Unmoved first second)
    (hnext : Unmoved second third) : Unmoved first third where
  state := hnext.state.trans h.state
  history entry hentry := hnext.history entry (h.history entry hentry)

theorem ReadFailed.later {before after : Journal} (h : Unmoved before after) {key : Str}
    (hfailed : ReadFailed before.history key) : ReadFailed after.history key := by
  obtain ⟨message, hentry⟩ := hfailed
  exact ⟨message, h.history _ hentry⟩

section Calls

variable {mayFail : StoreRequest → Prop} {journal : Journal}

theorem site_of_read (request : StoreRequest) (hread : request.IsRead)
    {reply : StoreReply request} {before after : Site}
    (h : Site.answers mayFail before (.store request) reply after) : after = before := by
  obtain ⟨hanswer, _⟩ := h
  have htable : after.table = before.table := by
    rcases hanswer with ⟨-, htable⟩ | ⟨-, -, htable | htable⟩
    · rw [htable, ValidTable.perform_of_isRead hread]
    · exact htable
    · rw [htable, ValidTable.perform_of_isRead hread]
  cases before
  cases after
  simp_all

/-- A read moves nothing and answers from the table, or fails. -/
theorem ensures_read {request : StoreRequest} (hread : request.IsRead) :
    (Proc.request (AgentCall.store request) : AgentProgram _).Ensures (journaled mayFail)
      (fun reply final => Unmoved journal final ∧
        (reply = (ValidTable.perform request journal.state.table).1 ∨
          mayFail request ∧ ∃ message, reply = .error (.failed message) ∧
            ⟨.store request, .error (.failed message)⟩ ∈ final.history)) journal := by
  apply ensures_request
  intro reply after ⟨hanswer, hhistory⟩
  refine ⟨⟨site_of_read request hread hanswer, fun entry hentry => ?_⟩, ?_⟩
  · rw [hhistory]
    exact List.mem_append_left _ hentry
  · rcases hanswer.1 with ⟨hreply, -⟩ | ⟨hfail, ⟨message, hreply⟩, -⟩
    · exact Or.inl hreply
    · subst hreply
      refine Or.inr ⟨hfail, message, rfl, ?_⟩
      rw [hhistory]
      exact List.mem_append_right _ (List.mem_singleton_self _)

/-- `get` answers the stored value, its absence, or a failure. -/
theorem ensures_get (key : Str) :
    (get key).Ensures (journaled mayFail) (fun reply final => Unmoved journal final ∧
      ((∃ fact, reply = .ok fact ∧ journal.state.table.value key = some fact.value) ∨
        (reply = .error .keyNotFound ∧ journal.state.table.value key = none) ∨
        (mayFail (.get key) ∧ ∃ message, reply = .error (.failed message) ∧
          ⟨.store (.get key), .error (.failed message)⟩ ∈ final.history))) journal := by
  refine Proc.Ensures.mono (ensures_read trivial) ?_
  intro reply final ⟨hunmoved, hreply⟩
  refine ⟨hunmoved, ?_⟩
  rcases hreply with hreply | hfailed
  · rw [hreply]
    simp only [ValidTable.perform, FactTable.get, FactTable.value]
    cases hfact : journal.state.table.facts key with
    | none => exact Or.inr (Or.inl ⟨rfl, rfl⟩)
    | some fact => exact Or.inl ⟨fact, rfl, rfl⟩
  · exact Or.inr (Or.inr hfailed)

theorem ensures_lookup_recorded (key : Str) :
    (lookup key).Ensures (journaled mayFail) (fun found final => Unmoved journal final ∧
      (found = journal.state.table.value key ∨
        mayFail (.get key) ∧ found = none ∧ ReadFailed final.history key)) journal := by
  refine (ensures_get key).seq ?_
  intro _ final hget
  obtain ⟨hunmoved, ⟨_, hreply, hvalue⟩ | ⟨hreply, hvalue⟩ | ⟨hfail, _, hreply, hentry⟩⟩ := hget
  all_goals subst hreply
  · exact ensures_pure ⟨hunmoved, Or.inl hvalue.symm⟩
  · exact ensures_pure ⟨hunmoved, Or.inl hvalue.symm⟩
  · exact ensures_pure ⟨hunmoved, Or.inr ⟨hfail, rfl, _, hentry⟩⟩

theorem ensures_lookup (key : Str) :
    (lookup key).Ensures (journaled mayFail) (fun found final => final.state = journal.state ∧
      (found = journal.state.table.value key ∨ (mayFail (.get key) ∧ found = none))) journal := by
  refine (ensures_lookup_recorded key).mono ?_
  intro found final ⟨hunmoved, hfound⟩
  exact ⟨hunmoved.state, hfound.imp_right fun h => ⟨h.1, h.2.1⟩⟩

variable (scanPrefix : Str)

theorem ensures_scan :
    (scan scanPrefix).Ensures (journaled mayFail) (fun reply final => Unmoved journal final ∧
      (reply = .ok (journal.state.table.scanned scanPrefix) ∨
        (mayFail (.scan scanPrefix) ∧ ∃ message, reply = .error (.failed message) ∧
          ⟨.store (.scan scanPrefix), .error (.failed message)⟩ ∈ final.history))) journal :=
  ensures_read trivial

/-- An incomplete scan is a recorded failure. -/
theorem ensures_scanned :
    (scanned scanPrefix).Ensures (journaled mayFail) (fun facts final => Unmoved journal final ∧
      (facts = journal.state.table.scanned scanPrefix ∨
        mayFail (.scan scanPrefix) ∧ facts = [] ∧ ScanFailed final.history scanPrefix))
      journal := by
  refine (ensures_scan scanPrefix).seq ?_
  intro _ final hscan
  obtain ⟨hunmoved, hreply | ⟨hfail, _, hreply, hentry⟩⟩ := hscan
  all_goals subst hreply
  · exact ensures_pure ⟨hunmoved, Or.inl rfl⟩
  · exact ensures_pure ⟨hunmoved, Or.inr ⟨hfail, rfl, _, hentry⟩⟩

theorem ensures_lookup_reliable (key : Str) : (lookup key).Ensures (journaled reliable)
      (fun found final => final.state = journal.state ∧ found = journal.state.table.value key)
      journal := by
  refine (ensures_lookup key).mono ?_
  intro found final ⟨hstate, hfound⟩
  exact ⟨hstate, hfound.resolve_right (fun h => h.1)⟩

theorem ensures_scanned_reliable :
    (scanned scanPrefix).Ensures (journaled reliable) (fun facts final =>
      final.state = journal.state ∧ facts = journal.state.table.scanned scanPrefix) journal := by
  refine (ensures_scanned scanPrefix).mono ?_
  intro facts final ⟨hunmoved, hfacts⟩
  exact ⟨hunmoved.state, hfacts.resolve_right (fun h => h.1)⟩

/-- A value found was read in this very history. -/
theorem ensures_lookup_shows (key : Str) :
    (lookup key).Ensures (journaled mayFail) (fun found final => ∀ value, found = some value →
      Recorded.Shows (fun entry => ∃ fact, entry = ⟨.store (.get key), .ok fact⟩ ∧
        fact.value = value) journal final) journal := by
  apply Proc.Ensures.bind
  apply ensures_request
  intro reply after ⟨_, hhistory⟩
  cases reply with
  | error error => exact ensures_pure fun _ hnone => nomatch hnone
  | ok fact =>
    refine ensures_pure fun value hvalue => ?_
    exact ⟨_, hhistory, _, List.mem_singleton_self _, fact, rfl, Option.some.inj hvalue⟩

end Calls

/-! ## Surroundings that always answer in the same way

With these a program of the agent can be evaluated. -/

/-- The table after puts into an empty store. -/
def holding (entries : List (Str × Str)) : ValidTable :=
  ⟨FactTable.new.putAll entries, FactTable.valid_new.run _⟩

/-- The call starts a container of the instance. -/
def AgentCall.startsInstance (instanceID : Str) : AgentCall → Bool
  | .start spec => spec.id = instanceID
  | _ => false

theorem exists_start_of_any {history : List (Sigma AgentReply)} {instanceID : Str}
    (h : history.any (fun entry => entry.1.startsInstance instanceID) = true) :
    ∃ spec reply, ⟨.start spec, reply⟩ ∈ history ∧ spec.id = instanceID := by
  obtain ⟨⟨call, reply⟩, hentry, hstarts⟩ := List.any_eq_true.mp h
  cases call with
  | start spec => exact ⟨spec, reply, hentry, of_decide_eq_true hstarts⟩
  | _ => cases hstarts

/-- What the runtime lists, the secrets that are delivered and the reads that fail. -/
structure Surroundings where
  containers : List Status
  secrets : Map Str
  getFails : Str → Bool
  scanFails : Str → Bool
  visitedFirst : Str

variable {Result : Type}

namespace Surroundings

variable (surroundings : Surroundings)

/-- A container that was started runs; others are as listed. -/
def statusOf (journal : Journal) (instanceID : Str) : Except Str Status :=
  if journal.history.any (fun entry => entry.1.startsInstance instanceID) then
    .ok ⟨instanceID, true, 0, [], []⟩
  else
    match surroundings.containers.find? (fun container => container.id = instanceID) with
    | some container => .ok container
    | none => .error (lit "not found")

def storeAnswer (table : ValidTable) : (request : StoreRequest) → StoreReply request × ValidTable
  | .get key =>
    if surroundings.getFails key then (.error (.failed (lit "unavailable")), table)
    else table.perform (.get key)
  | .scan scanPrefix =>
    if surroundings.scanFails scanPrefix then (.error (.failed (lit "unavailable")), table)
    else table.perform (.scan scanPrefix)
  | request => table.perform request

def answer (journal : Journal) : (call : AgentCall) → AgentReply call × Site
  | .store request =>
    let answered := surroundings.storeAnswer journal.state.table request
    (answered.1, { journal.state with table := answered.2 })
  | .readMemory => (journal.state.memory, journal.state)
  | .modify change => ((), { journal.state with memory := change journal.state.memory })
  | .now => ((0 : Int), journal.state)
  | .visit keys => (⟨_, List.filter_append_perm (fun key => key = surroundings.visitedFirst) keys⟩,
      journal.state)
  | .list => (.ok surroundings.containers, journal.state)
  | .status instanceID => (surroundings.statusOf journal instanceID, journal.state)
  | .start _ | .stop _ | .stopWithGracePeriod _ _ | .exec _ _ | .execInit _ _ _ | .pullImage _ _ =>
    (.ok (), journal.state)
  | .resize _ _ _ => (.ok (), journal.state)
  | .hostPortsForInstance _ => ([], journal.state)
  | .isImageCached _ => (true, journal.state)
  | .createVolume _ _ | .detachVolume _ _ _ => (.ok (), journal.state)
  | .attachVolume _ volumeName _ => (.ok (lit "/volumes/" ++ volumeName), journal.state)
  | .volumeUsage _ _ => ((0, 0), journal.state)
  | .allocateIP _ _ => (.ok (lit "10.0.0.1"), journal.state)
  | .releaseIP _ _ | .registerEndpointIdentity _ _ _ | .retryBridgeAttachment | .dial _ _ =>
    (.ok (), journal.state)
  | .lookupHost _ => (.ok [], journal.state)
  | .fetchInstanceSecrets _ => (.ok surroundings.secrets, journal.state)
  | .readInstanceSecrets _ => (none, journal.state)
  | .writeInstanceSecrets _ _ => (.ok (), journal.state)
  | .writeConnectionFile _ name _ => (.ok (lit "/secrets/" ++ name), journal.state)
  | .removeInstanceSecrets _ | .revokeInstanceToken _ | .cleanupProbes _ | .panic =>
    ((), journal.state)
  | .listInstancesWithSecrets => ([], journal.state)
  | .registerInstanceToken _ _ => (.ok (lit "token"), journal.state)

def perform (call : AgentCall) (journal : Journal) : AgentReply call × Journal :=
  let answered := surroundings.answer journal call
  (answered.1, ⟨answered.2, journal.history ++ [⟨call, answered.1⟩]⟩)

/-- What a program does in the surroundings, from a site. -/
def replay {Result : Type} (program : AgentProgram Result) (site : Site) : Result × Journal :=
  program.eval surroundings.perform ⟨site, []⟩

/-- The requests that fail in the surroundings. -/
def MayFail : StoreRequest → Prop
  | .get key => surroundings.getFails key
  | .scan scanPrefix => surroundings.scanFails scanPrefix
  | _ => False

theorem storeAnswers_storeAnswer (table : ValidTable) (request : StoreRequest) :
    StoreAnswers surroundings.MayFail table request (surroundings.storeAnswer table request).1
      (surroundings.storeAnswer table request).2 := by
  cases request with
  | get _ | scan _ =>
    dsimp only [storeAnswer]
    split
    next hfails => exact Or.inr ⟨hfails, ⟨_, rfl⟩, Or.inl rfl⟩
    next => exact Or.inl ⟨rfl, rfl⟩
  | _ => exact Or.inl ⟨rfl, rfl⟩

/-- The answers of the surroundings, and no others. -/
def answers : Environment AgentCall AgentReply Journal :=
  fun before call reply after =>
    reply = (surroundings.perform call before).1 ∧ after = (surroundings.perform call before).2

variable {mayFail : StoreRequest → Prop}

/-- The answers of the surroundings are possible, wherever the requests that fail
may fail. -/
theorem journaled_of_answers
    (h : ∀ request, surroundings.MayFail request → mayFail request) (before : Journal)
    (call : AgentCall) (reply : AgentReply call) (after : Journal)
    (hanswer : surroundings.answers before call reply after) :
    journaled mayFail before call reply after := by
  obtain ⟨rfl, rfl⟩ := hanswer
  refine ⟨?_, rfl⟩
  cases call with
  | store request =>
    refine ⟨?_, rfl⟩
    rcases surroundings.storeAnswers_storeAnswer before.state.table request with
      hanswer | ⟨hfails, hanswer⟩
    · exact Or.inl hanswer
    · exact Or.inr ⟨h request hfails, hanswer⟩
  | readMemory => exact ⟨rfl, rfl⟩
  | _ => exact rfl

theorem runs_answers (program : AgentProgram Result) (journal : Journal) :
    program.Runs surroundings.answers journal (program.eval surroundings.perform journal).1
      (program.eval surroundings.perform journal).2 := by
  apply Proc.runs_eval
  exact fun _ _ => ⟨rfl, rfl⟩

/-- Every replay is a run of the program. -/
theorem runs_replay
    (h : ∀ request, surroundings.MayFail request → mayFail request) (program : AgentProgram Result)
    (site : Site) :
    program.Runs (journaled mayFail) ⟨site, []⟩ (surroundings.replay program site).1
      (surroundings.replay program site).2 :=
  (surroundings.runs_answers program _).of_narrower (surroundings.journaled_of_answers h)

/-- No containers, no secrets, and every request is answered. -/
def calm : Surroundings := ⟨[], ∅, fun _ => false, fun _ => false, []⟩

theorem calm_mayFail (request : StoreRequest)
    (h : calm.MayFail request) : mayFail request := by
  cases request with
  | get _ | scan _ => exact nomatch h
  | _ => exact h.elim

theorem journaled_of_calm (mayFail : StoreRequest → Prop) (before : Journal) (call : AgentCall)
    (reply : AgentReply call) (after : Journal) (h : calm.answers before call reply after) :
    journaled mayFail before call reply after :=
  calm.journaled_of_answers calm_mayFail before call reply after h

theorem runs_replay_calm (mayFail : StoreRequest → Prop) (program : AgentProgram Result)
    (site : Site) :
    program.Runs (journaled mayFail) ⟨site, []⟩ (calm.replay program site).1
      (calm.replay program site).2 :=
  (calm.runs_answers program _).of_narrower (journaled_of_calm mayFail)

end Surroundings

def plainLibraries : Libraries where
  rfc3339 _ := []
  quote text := text
  parseDuration _ := none
  parseCores _ := none
  sha256Hex _ := []
  isIP _ := false
  splitPort _ := none
  registryCredentials _ := none
  marshalPullStatus _ := none
  marshalInitProgress _ := none
  marshalSecretWait _ := []

/-- The agent of node `n1`, with nothing but a runtime. -/
def plainAgent : Agent where
  nodeID := lit "n1"
  supportsPull := false
  supportsGracefulStop := false
  providesHostPorts := false
  storageProvider := none
  localStorageProvider := none
  hasNetworkProvider := false
  registersEndpoints := false
  retriesBridge := false
  hasSecretDeliveryClient := false
  secretMaterialDirectory := none
  secretAPIBaseURL := none
  libraries := plainLibraries

end CCattler.NodeAgent
