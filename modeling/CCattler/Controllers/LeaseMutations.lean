import CCattler.Concurrency.History
import CCattler.Controllers.LeaderAgreement

/-! # Mutations of the leader lease

Every transaction of the election compares a key with a revision that was read before,
and revisions are never reused. Two acquisitions of one lease exclude each other because
the first one gives it a new revision.
-/

namespace CCattler.Controllers

open Go Store Concurrency List ElectionState
open Cluster (machine)

/-- A performed call of an election. -/
abbrev ElectionPerformed (Node : Type) : Type :=
  Performed Node ElectionCall StoreFault (ElectionState Node)

variable {compare : Compare} {onSuccess : List Op}

namespace ElectionCall

/-- The transaction of `renewLeaseWithCAS`. -/
def IsRenewal (request : ElectionCall) : Prop :=
  ∃ compares stamp, request = .transaction compares [⟨.put, leaderLeaseKey, stamp⟩]

/-- The transaction of `release`. -/
def IsRelease (request : ElectionCall) : Prop :=
  ∃ compares, request = .transaction compares
    [⟨.delete, leaderLeaseKey, []⟩, ⟨.delete, leaderLeaseHolderKey, []⟩]

/-- The transaction of an acquisition, of a missing lease or of an expired one. -/
def IsAcquisition (request : ElectionCall) : Prop :=
  ∃ compares stamp holder, request = .transaction compares
    [⟨.put, leaderLeaseKey, stamp⟩, ⟨.put, leaderLeaseHolderKey, holder⟩]

end ElectionCall

section Calls

variable {Node : Type}

/-- The call is a transaction that reached the store and met its compares. -/
def Commits (entry : ElectionPerformed Node) : Prop :=
  ∃ compares onSuccess, entry.request = .transaction compares onSuccess ∧
    entry.fault ≠ .requestLost ∧
    (entry.before.table.transaction compares onSuccess []).result = .ok true

theorem Commits.meets {entry : ElectionPerformed Node} (h : Commits entry)
    (hrequest : entry.request = .transaction [compare] onSuccess) :
    entry.before.table.meets compare = true := by
  obtain ⟨_, _, hcall, -, hresult⟩ := h
  rw [hrequest] at hcall
  obtain ⟨rfl, rfl⟩ := ElectionCall.transaction.inj hcall
  simp only [FactTable.transaction] at hresult
  split at hresult
  · cases hresult
  · simpa [FactTable.evaluateTransactionPreconditions] using hresult

/-- The tables of two states, the second one later. -/
def ElectionState.GrowsTo (state later : ElectionState Node) : Prop :=
  state.table.toFactTable.GrowsTo later.table.toFactTable

theorem ElectionState.growsTo_applied (state : ElectionState Node) (compares : List Compare)
    (onSuccess : List Op) : state.GrowsTo (state.applied compares onSuccess) :=
  state.table.growsTo_perform (.transaction compares onSuccess [])

theorem holder_of_meets {state later : ElectionState Node} {holderFact : Fact}
    (hgrows : state.GrowsTo later)
    (hread : state.table.facts leaderLeaseHolderKey = some holderFact)
    (hmeets : later.table.meets ⟨leaderLeaseHolderKey, holderFact.revision⟩ = true) :
    later.holder = some holderFact.value := by
  have hfact := FactTable.GrowsTo.facts_of_meets hgrows state.table.valid.stamped hread hmeets
  simp only [ElectionState.holder, hfact, Option.map_some]

theorem lease_disturbed (change : Surroundings) (state : ElectionState Node)
    (h : state.table.facts leaderLeaseKey ≠ none) :
    (Cluster.disturb change state).table.facts leaderLeaseKey ≠ none := by
  cases change with
  | tick target => exact h
  | write operation =>
    simp only [Cluster.disturb]
    split
    · exact h
    · rename_i hother
      rw [withTable_table]
      rw [FactTable.perform_facts_of_notMem (fun hmem => hother (Or.inl hmem))]
      exact h

variable [DecidableEq Node]

/-- What a read of the lease key returned; the outer `none` is any other call. -/
def leaseRead : ElectionPerformed Node → Option (Option Fact)
  | ⟨node, fault, .get key, before⟩ =>
    if key = leaderLeaseKey then some (ElectionState.perform node fault (.get key) before).1
    else none
  | _ => none

/-- What a node may ask of the store after its own calls so far. -/
inductive Sanctioned (cluster : Cluster Node) (node : Node) (own : List (ElectionPerformed Node))
    (state : ElectionState Node) : ElectionCall → Prop
  | now : Sanctioned cluster node own state .now
  | since (earlier : Time) : Sanctioned cluster node own state (.since earlier)
  | get (key : Str) : Sanctioned cluster node own state (.get key)
  | renewal {compare : Compare} {stamp : Str}
      (held : state.table.meets compare = true → state.holder = some (cluster.nodeID node)) :
      Sanctioned cluster node own state (.transaction [compare] [⟨.put, leaderLeaseKey, stamp⟩])
  | release {compare : Compare}
      (held : state.table.meets compare = true → state.holder = some (cluster.nodeID node)) :
      Sanctioned cluster node own state (.transaction [compare]
        [⟨.delete, leaderLeaseKey, []⟩, ⟨.delete, leaderLeaseHolderKey, []⟩])
  | acquisition {compare : Compare} {stamp : Str} {read : ElectionPerformed Node}
      {found : Option Fact} (last : own.getLast? = some read) (reads : leaseRead read = some found)
      (current : state.table.meets compare = true → state.table.facts leaderLeaseKey = found)
      (fresh : 999999 ≤ cluster.leaseDuration node → ∀ fact, found = some fact →
        fact.value ≠ stamp) :
      Sanctioned cluster node own state (.transaction [compare]
        [⟨.put, leaderLeaseKey, stamp⟩, ⟨.put, leaderLeaseHolderKey, cluster.nodeID node⟩])

theorem growsTo_perform (node : Node) (fault : StoreFault) (request : ElectionCall)
    (state : ElectionState Node) :
    state.GrowsTo (ElectionState.perform node fault request state).2 := by
  cases request with
  | now => exact FactTable.GrowsTo.refl _
  | since earlier => exact FactTable.GrowsTo.refl _
  | get key =>
    rw [perform_get_state]
    exact FactTable.GrowsTo.refl _
  | transaction compares onSuccess =>
    have happlied := state.growsTo_applied compares onSuccess
    simp only [ElectionState.perform]
    split
    · exact FactTable.GrowsTo.refl _
    · exact happlied
    · simpa only [ElectionState.GrowsTo, acknowledge_table] using happlied
    · exact happlied
    · exact happlied

theorem election_growth : Growth (machine : Machine Node ElectionCall ElectionReply StoreFault
      (ElectionState Node) ElectionEntry Surroundings LeaderElection Returned)
      ElectionState.GrowsTo where
  refl _ := FactTable.GrowsTo.refl _
  trans := FactTable.GrowsTo.trans
  perform := growsTo_perform
  disturb change state := by
    cases change with
    | tick target => exact FactTable.GrowsTo.refl _
    | write operation =>
      simp only [machine, Cluster.disturb]
      split
      · exact FactTable.GrowsTo.refl _
      · exact state.table.growsTo_perform operation

end Calls

/-! ## The programs -/

section Programs

variable {Node : Type} [DecidableEq Node] (cluster : Cluster Node)

/-- The identity and the lease duration of an election never change. -/
def Configured (node : Node) (election : LeaderElection) : Prop :=
  election.nodeID = cluster.nodeID node ∧ election.leaseDuration = cluster.leaseDuration node

/-- The program makes sanctioned calls only. -/
abbrev Sanctions (node : Node) {Answer : Type} (program : ElectionProc Answer)
    (post : List (ElectionPerformed Node) → Answer → ElectionState Node → Prop)
    (own : List (ElectionPerformed Node)) (state : ElectionState Node) : Prop :=
  Follows machine ElectionState.GrowsTo
    (fun node own request state => Sanctioned cluster node own state request) node program post
    own state

variable {cluster} {node : Node} {own : List (ElectionPerformed Node)} {state : ElectionState Node}

theorem sanctions_bind {First Second : Type} {first : ElectionProc First}
    {rest : First → ElectionProc Second}
    {post : List (ElectionPerformed Node) → Second → ElectionState Node → Prop}
    (h : Sanctions cluster node first
      (fun own result => Sanctions cluster node (rest result) post own) own state) :
    Sanctions cluster node (first >>= rest) post own state :=
  Follows.bind election_growth h

/-- The rule for a single call. -/
theorem sanctions_request {request : ElectionCall}
    {post : List (ElectionPerformed Node) → ElectionReply request → ElectionState Node → Prop}
    (hallowed : ∀ later, state.GrowsTo later → Sanctioned cluster node own later request)
    (hpost : ∀ own reply later, post own reply later) :
    Sanctions cluster node (Proc.request request) post own state :=
  follows_request fun later hlater _ => ⟨hallowed later hlater, fun _ _ => hpost _ _ _⟩

/-- The rule for a read. -/
theorem sanctions_get {key : Str}
    {post : List (ElectionPerformed Node) → Option Fact → ElectionState Node → Prop}
    (hnone : ∀ (read : ElectionPerformed Node) last,
      (key = leaderLeaseKey → leaseRead read = some none) → post (own ++ [read]) none last)
    (hsome : ∀ (read : ElectionPerformed Node) fact (later last : ElectionState Node),
      later.table.facts key = some fact → later.GrowsTo last →
      (key = leaderLeaseKey → leaseRead read = some (some fact)) →
      post (own ++ [read]) (some fact) last) :
    Sanctions cluster node (ElectionProc.get key) post own state := by
  refine follows_request fun later _ fault => ⟨.get key, fun last hlast => ?_⟩
  have hgrows : later.GrowsTo last := by
    have hsame := perform_get_state node fault key later
    simpa only [machine, hsame] using hlast
  have hreads : ∀ reply, (ElectionState.perform node fault (.get key) later).1 = reply →
      key = leaderLeaseKey → leaseRead ⟨node, fault, .get key, later⟩ = some reply := by
    intro reply hreply hkey
    simp only [leaseRead, if_pos hkey, hreply]
  cases hreply : (ElectionState.perform node fault (.get key) later).1 with
  | none =>
    simp only [machine, hreply]
    exact hnone _ last (hreads none hreply)
  | some fact =>
    simp only [machine, hreply]
    exact hsome _ fact later last (facts_of_perform_get node hreply) hgrows
      (hreads (some fact) hreply)

/-- The result keeps the configuration. -/
abbrev KeepsConfiguration (cluster : Cluster Node) (node : Node) :
    List (ElectionPerformed Node) → LeaderElection → ElectionState Node → Prop :=
  fun _ election _ => Configured cluster node election

variable {election : LeaderElection}

section

variable (h : Configured cluster node election)
include h

theorem acquired_sanctions (reply : Option Bool) :
    Sanctions cluster node (election.acquired reply) (KeepsConfiguration cluster node) own
      state := by
  unfold LeaderElection.acquired
  split
  · refine sanctions_bind (sanctions_request (fun _ _ => .now) fun _ _ _ => ?_)
    exact follows_pure fun _ _ => h
  all_goals exact follows_pure fun _ _ => h

theorem handleTransientRenewalFailure_sanctions :
    Sanctions cluster node election.handleTransientRenewalFailure
      (KeepsConfiguration cluster node) own state := by
  refine sanctions_bind (sanctions_request (fun _ _ => .since _) fun _ _ _ => ?_)
  split
  all_goals exact follows_pure fun _ _ => h

theorem renewed_sanctions (reply : Option Bool) :
    Sanctions cluster node (election.renewed reply) (KeepsConfiguration cluster node) own
      state := by
  unfold LeaderElection.renewed
  split
  · exact handleTransientRenewalFailure_sanctions h
  · exact follows_pure fun _ _ => h
  · refine sanctions_bind (sanctions_request (fun _ _ => .now) fun _ _ _ => ?_)
    exact follows_pure fun _ _ => h

theorem renewLeaseWithCAS_sanctions (nowStr : Str) :
    Sanctions cluster node (election.renewLeaseWithCAS nowStr) (KeepsConfiguration cluster node)
      own state := by
  refine sanctions_bind (sanctions_get ?_ ?_)
  · intro _ _ _
    exact handleTransientRenewalFailure_sanctions h
  · intro _ _ _ _ hread hlast _
    dsimp only
    split
    next => exact follows_pure fun _ _ => h
    next hown =>
      rw [not_not] at hown
      refine sanctions_bind (sanctions_request (fun final hfinal => .renewal fun hmeets => ?_)
        fun _ reply _ => renewed_sanctions h reply)
      rw [← h.1, ← hown]
      exact holder_of_meets (hlast.trans hfinal) hread hmeets

theorem release_sanctions :
    Sanctions cluster node election.release (KeepsConfiguration cluster node) own state := by
  unfold LeaderElection.release
  split
  next => exact follows_pure fun _ _ => h
  next =>
    refine sanctions_bind (sanctions_get ?_ ?_)
    · intro _ _ _
      exact follows_pure fun _ _ => h
    · intro _ _ _ _ hread hlast _
      dsimp only
      split
      next => exact follows_pure fun _ _ => h
      next hown =>
        rw [not_not] at hown
        refine sanctions_bind (sanctions_request (fun final hfinal => .release fun hmeets => ?_)
          fun _ _ _ => follows_pure fun _ _ => h)
        rw [← h.1, ← hown]
        exact holder_of_meets (hlast.trans hfinal) hread hmeets

end

theorem value_ne_of_expired {now : Time} {fact : Fact} {duration : Int}
    (hlong : 999999 ≤ duration) (hexpired : now.sub (parseLeaseTimestamp fact.value) > duration) :
    fact.value ≠ itoa now.unixMilli := by
  intro hsame
  rw [hsame, parseLeaseTimestamp_itoa] at hexpired
  have hnear := now.nanos_lt_milli
  simp only [Time.sub, minInt64] at hexpired
  omega

theorem acquireOrRenewAt_sanctions (h : Configured cluster node election) (now : Time) :
    Sanctions cluster node (election.acquireOrRenewAt now) (KeepsConfiguration cluster node)
      own state := by
  unfold LeaderElection.acquireOrRenewAt
  split
  next => exact renewLeaseWithCAS_sanctions h _
  next =>
    refine sanctions_bind (sanctions_get ?_ ?_)
    · -- no lease was read, and the compare asks for none
      intro read last hreads
      refine sanctions_bind (sanctions_request (fun final _ => ?_)
        fun _ reply _ => acquired_sanctions h reply)
      rw [LeaderElection.acquisition, h.1]
      refine .acquisition (List.getLast?_concat ..) (hreads rfl) ?_ (by simp)
      intro hmeets
      simpa [FactTable.meets] using hmeets
    · intro read _ later last hread hlast hreads
      dsimp only
      split
      next hexpired =>
        refine sanctions_bind (sanctions_request (fun final hfinal => ?_)
          fun _ reply _ => acquired_sanctions h reply)
        rw [LeaderElection.acquisition, h.1]
        refine .acquisition (List.getLast?_concat ..) (hreads rfl) ?_ ?_
        · intro hmeets
          exact FactTable.GrowsTo.facts_of_meets (hlast.trans hfinal) later.table.valid.stamped
            hread hmeets
        · rintro hlong fact ⟨⟩
          exact value_ne_of_expired (h.2 ▸ hlong) hexpired
      next => exact follows_pure fun _ _ => h

/-- Every call of the election is sanctioned. -/
theorem election_sanctions (cluster : Cluster Node) : RuleObligations machine ElectionState.GrowsTo
      (fun node own request state => Sanctioned cluster node own state request)
      (fun node _ election => Configured cluster node election)
      (fun node _ returned _ => Configured cluster node returned.election) where
  growth := election_growth
  enter state entry h := by
    cases entry with
    | tryAcquireOrRenew =>
      refine sanctions_bind (sanctions_request (fun _ _ => .now) fun own now later => ?_)
      refine sanctions_bind ((acquireOrRenewAt_sanctions h now).imp ?_)
      exact fun _ _ _ hafter => follows_pure fun _ _ => hafter
    | release =>
      refine sanctions_bind ((release_sanctions h).imp ?_)
      exact fun _ _ _ hafter => follows_pure fun _ _ => hafter
  leave h := h

end Programs

/-! ## Histories of the election -/

section Histories

variable {Node : Type} [DecidableEq Node]

/-- The last of the calls that the node made is a read of the lease that returned
`found`. -/
def LastReadLease (node : Node) (calls : List (ElectionPerformed Node)) (found : Option Fact) :
    Prop :=
  ∃ read, (ownCalls node calls).getLast? = some read ∧ leaseRead read = some found

/-- What holds of the mutations of the lease in a history. -/
structure LeaseMutationSafety (cluster : Cluster Node) (history : List (ElectionPerformed Node)) :
    Prop where
  renewal : ∀ entry ∈ history, entry.request.IsRenewal → Commits entry →
    entry.before.holder = some (cluster.nodeID entry.node)
  release : ∀ entry ∈ history, entry.request.IsRelease → Commits entry →
    entry.before.holder = some (cluster.nodeID entry.node)
  -- the node read the lease right before, and it is still the one it read
  acquisition : ∀ earlier entry later, history = earlier ++ entry :: later →
    entry.request.IsAcquisition → Commits entry →
    LastReadLease entry.node earlier (entry.before.table.facts leaderLeaseKey)
  extends_own : ∀ entry ∈ history, (entry.after machine).table.facts leaderLeaseKey ≠
      entry.before.table.facts leaderLeaseKey →
    (entry.after machine).holder = entry.before.holder →
    entry.before.holder = some (cluster.nodeID entry.node)
  deletes_own : ∀ entry ∈ history, entry.before.table.facts leaderLeaseKey ≠ none →
    (entry.after machine).table.facts leaderLeaseKey = none →
    entry.before.holder = some (cluster.nodeID entry.node)
  -- of two acquisitions the second one read the lease after the first one
  -- committed, or a release committed in between
  exclusive : ∀ earlier first middle second later,
    history = earlier ++ first :: (middle ++ second :: later) →
    first.request.IsAcquisition → Commits first → second.request.IsAcquisition → Commits second →
    999999 ≤ cluster.leaseDuration first.node →
    LastReadLease second.node middle (second.before.table.facts leaderLeaseKey) ∨
      ∃ entry ∈ middle, entry.request.IsRelease ∧ Commits entry

variable {cluster : Cluster Node} {own : List (ElectionPerformed Node)}
  {entry : ElectionPerformed Node}

section

variable (h : Sanctioned cluster entry.node own entry.before entry.request)
include h

/-- Only the holder renews or releases. -/
theorem Sanctioned.holder_of_commits (hown : entry.request.IsRenewal ∨ entry.request.IsRelease)
    (hcommits : Commits entry) : entry.before.holder = some (cluster.nodeID entry.node) := by
  generalize hcall : entry.request = request at h hown
  cases h with
  | renewal held | release held => exact held (hcommits.meets hcall)
  | _ => simp [ElectionCall.IsRenewal, ElectionCall.IsRelease] at hown

/-- A committed acquisition finds the lease it read and writes another timestamp. -/
theorem Sanctioned.acquires (hacquisition : entry.request.IsAcquisition)
    (hcommits : Commits entry) :
    (∃ read, own.getLast? = some read ∧
      leaseRead read = some (entry.before.table.facts leaderLeaseKey)) ∧
    ∃ compare stamp, entry.request = .transaction [compare]
        [⟨.put, leaderLeaseKey, stamp⟩, ⟨.put, leaderLeaseHolderKey, cluster.nodeID entry.node⟩] ∧
      (999999 ≤ cluster.leaseDuration entry.node → ∀ fact,
        entry.before.table.facts leaderLeaseKey = some fact → fact.value ≠ stamp) := by
  obtain ⟨_, stamp, _, hrequest⟩ := hacquisition
  generalize hcall : entry.request = request at h
  cases h with
  | acquisition last reads current fresh =>
    have hfound := current (hcommits.meets hcall)
    refine ⟨⟨_, last, by rw [hfound]; exact reads⟩, _, _, rfl, fun hlong fact hfact => ?_⟩
    exact fresh hlong fact (hfound.symm.trans hfact)
  | _ => simp [hcall] at hrequest

end

theorem after_table_cases (hrequest : entry.request = .transaction [compare] onSuccess)
    (hsize : [compare].length + onSuccess.length ≤ memoryStoreTransactionOperationLimit) :
    (entry.after machine).table = entry.before.table ∨ Commits entry ∧
        (entry.after machine).table = (entry.before.applied [compare] onSuccess).table := by
  obtain ⟨node, fault, request, before⟩ := entry
  obtain rfl : request = .transaction [compare] onSuccess := hrequest
  cases fault with
  | requestLost => exact Or.inl rfl
  | _ =>
    simp only [Performed.after, machine]
    rcases perform_transaction_cases hsize node _ before with
      ⟨-, hsame⟩ | ⟨hmet, ⟨-, happlied⟩ | ⟨-, happlied⟩⟩
    · exact Or.inl (congrArg ElectionState.table hsame)
    all_goals
      right
      refine ⟨⟨_, _, rfl, by simp, ?_⟩, ?_⟩
      · rw [transaction_result hsize, hmet]
      · simp [happlied]

theorem Commits.value_after (h : Commits entry)
    (hrequest : entry.request = .transaction [compare] onSuccess)
    (hsize : [compare].length + onSuccess.length ≤ memoryStoreTransactionOperationLimit)
    (hnodup : (onSuccess.map Op.key).Nodup) (operation : Op) (hmem : operation ∈ onSuccess) :
    ((entry.after machine).table.facts operation.key).map Fact.value =
      FactTable.outcome operation := by
  have hmet : entry.before.table.evaluateTransactionPreconditions [compare] = true := by
    simpa [FactTable.evaluateTransactionPreconditions] using h.meets hrequest
  have htable : (entry.after machine).table = (entry.before.applied [compare] onSuccess).table := by
    obtain ⟨_, fault, request, before⟩ := entry
    obtain rfl : request = .transaction [compare] onSuccess := hrequest
    obtain ⟨_, _, hcall, hsent, hresult⟩ := h
    obtain ⟨rfl, rfl⟩ := ElectionCall.transaction.inj hcall
    cases fault with
    | requestLost => exact absurd rfl hsent
    | replyLost => rfl
    | none => simp [Performed.after, machine, ElectionState.perform, hresult]
  rw [htable]
  exact applied_value hsize hmet hnodup operation hmem

/-- A committed acquisition leaves the lease with its timestamp, in the name of
its node. -/
theorem Commits.after_acquisition (h : Commits entry) {stamp holder : Str}
    (hrequest : entry.request = .transaction [compare]
      [⟨.put, leaderLeaseKey, stamp⟩, ⟨.put, leaderLeaseHolderKey, holder⟩]) :
    ((entry.after machine).table.facts leaderLeaseKey).map Fact.value = some stamp ∧
      (entry.after machine).holder = some holder := by
  have hvalue := h.value_after hrequest (by simp [memoryStoreTransactionOperationLimit])
    (by simp [leaderLeaseKey_ne])
  exact ⟨hvalue ⟨.put, leaderLeaseKey, stamp⟩ (by simp),
    hvalue ⟨.put, leaderLeaseHolderKey, holder⟩ (by simp)⟩

section

variable (h : Sanctioned cluster entry.node own entry.before entry.request)
include h

/-- A call that changes the lease is one of the three transactions, and it
commits. -/
theorem Sanctioned.lease_changed (hchanged : (entry.after machine).table.facts leaderLeaseKey ≠
      entry.before.table.facts leaderLeaseKey) :
    Commits entry ∧ ((∃ compare stamp, entry.request =
          .transaction [compare] [⟨.put, leaderLeaseKey, stamp⟩]) ∨
        entry.request.IsRelease ∨ entry.request.IsAcquisition) := by
  have hcommits : ∀ {compare onSuccess}, entry.request = .transaction [compare] onSuccess →
      [compare].length + onSuccess.length ≤ memoryStoreTransactionOperationLimit →
      Commits entry := by
    intro compare onSuccess hrequest hsize
    rcases after_table_cases hrequest hsize with hsame | hdone
    · exact absurd (congrArg (fun table => table.facts leaderLeaseKey) hsame) hchanged
    · exact hdone.1
  -- the other calls leave the state as it is
  have hreads : (entry.after machine) ≠ entry.before := fun hsame =>
    hchanged (by rw [hsame])
  obtain ⟨node, fault, request, before⟩ := entry
  simp only at h
  cases h with
  | now => exact absurd rfl hreads
  | since earlier => exact absurd rfl hreads
  | get key => exact absurd (perform_get_state node fault key before) hreads
  | renewal held =>
    exact ⟨hcommits rfl (by simp [memoryStoreTransactionOperationLimit]), .inl ⟨_, _, rfl⟩⟩
  | release held =>
    exact ⟨hcommits rfl (by simp [memoryStoreTransactionOperationLimit]), .inr (.inl ⟨_, rfl⟩)⟩
  | acquisition last reads current fresh =>
    exact ⟨hcommits rfl (by simp [memoryStoreTransactionOperationLimit]),
      .inr (.inr ⟨_, _, _, rfl⟩)⟩

theorem Sanctioned.lease_removed (hbefore : entry.before.table.facts leaderLeaseKey ≠ none)
    (hafter : (entry.after machine).table.facts leaderLeaseKey = none) :
    entry.request.IsRelease ∧ Commits entry := by
  obtain ⟨hcommits, ⟨_, stamp, hrequest⟩ | hrelease | hacquisition⟩ :=
    h.lease_changed (by rw [hafter]; exact hbefore.symm)
  · have hvalue := hcommits.value_after hrequest (by simp [memoryStoreTransactionOperationLimit])
      (by simp) ⟨.put, leaderLeaseKey, stamp⟩ (by simp)
    simp [hafter, FactTable.outcome] at hvalue
  · exact ⟨hrelease, hcommits⟩
  · obtain ⟨-, _, _, hrequest, -⟩ := h.acquires hacquisition hcommits
    have hvalue := (hcommits.after_acquisition hrequest).1
    simp [hafter] at hvalue

end

/-- A lease is found again by a later acquisition only if it was released in between. -/
theorem acquisition_fresh {world : Cluster.ElectionWorld Node}
    {actions : List (Cluster.ElectionAction Node)}
    {earlier middle later : List (ElectionPerformed Node)}
    {first second read : ElectionPerformed Node} (hsplit : machine.history world actions =
      earlier ++ first :: (middle ++ second :: later)) {stamp holder : Str}
    (hrequest : first.request = .transaction [compare]
      [⟨.put, leaderLeaseKey, stamp⟩, ⟨.put, leaderLeaseHolderKey, holder⟩])
    (hcommits : Commits first)
    (hfresh : ∀ fact, first.before.table.facts leaderLeaseKey = some fact → fact.value ≠ stamp)
    (hread : read ∈ earlier)
    (hreads : leaseRead read = some (second.before.table.facts leaderLeaseKey)) :
    ∃ ended ∈ middle, ended.before.table.facts leaderLeaseKey ≠ none ∧
      (ended.after machine).table.facts leaderLeaseKey = none := by
  have hstamped := (hcommits.after_acquisition hrequest).1
  have hpairwise := election_growth.history_pairwise world actions
  rw [hsplit, pairwise_append, pairwise_cons] at hpairwise
  obtain ⟨-, ⟨hafter, -⟩, hcross⟩ := hpairwise
  cases hfound : second.before.table.facts leaderLeaseKey with
  | none =>
    obtain ⟨next, _, hshared, hrest⟩ := history_after hsplit
    obtain ⟨ended, hmem, hbefore, hnot⟩ := exists_ended lease_disturbed hrest
      (by rw [hshared]; intro hnone; simp [hnone] at hstamped) (by simp [hfound])
    exact ⟨ended, hmem, hbefore, not_not.mp hnot⟩
  | some fact =>
    -- the fact was there before the first acquisition and carries its timestamp
    rw [hfound] at hreads
    have hheld : read.before.table.facts leaderLeaseKey = some fact := by
      obtain ⟨node, _, request, before⟩ := read
      cases request with
      | get key =>
        simp only [leaseRead] at hreads
        split at hreads
        next hkey =>
          rw [← hkey]
          exact facts_of_perform_get node (Option.some.inj hreads)
        next => cases hreads
      | _ => cases hreads
    have hgrowsRead : read.before.GrowsTo first.before :=
      (growsTo_perform ..).trans (hcross read hread first mem_cons_self)
    have hgrowsFirst : first.before.GrowsTo (first.after machine) :=
      growsTo_perform ..
    have hgrowsSecond : (first.after machine).GrowsTo second.before :=
      hafter second (by simp)
    have hold : fact.revision ≤ first.before.table.currentRevision :=
      (read.before.table.valid.stamped.revision_le hheld).trans hgrowsRead.revision_le
    have hleft := hgrowsSecond.persisted hfound (hold.trans hgrowsFirst.revision_le)
    have hmet := hgrowsFirst.persisted hleft hold
    rw [hleft] at hstamped
    exact absurd (Option.some.inj hstamped) (hfresh fact hmet)

theorem leaseRead_of_acquisition (h : entry.request.IsAcquisition) : leaseRead entry = none := by
  obtain ⟨_, _, request, _⟩ := entry
  obtain ⟨_, _, _, rfl⟩ := h
  rfl

/-- The last call of a node is in the later part of a history or, without one, before. -/
theorem getLast_ownCalls_cases {node : Node} {earlier middle : List (ElectionPerformed Node)}
    {first read : ElectionPerformed Node}
    (h : (ownCalls node (earlier ++ first :: middle)).getLast? = some read) :
    (ownCalls node middle).getLast? = some read ∨ read = first ∨ read ∈ earlier := by
  have hcons : ownCalls node (first :: middle) = ownCalls node [first] ++ ownCalls node middle := by
    rw [← ownCalls_append, singleton_append]
  rw [ownCalls_append, hcons, List.getLast?_append, List.getLast?_append] at h
  cases hmiddle : (ownCalls node middle).getLast? with
  | some last =>
    left
    simpa [hmiddle] using h
  | none =>
    right
    rw [hmiddle] at h
    rcases Option.or_eq_some_iff.mp h with hfirst | ⟨-, hearlier⟩
    · left
      simpa using (mem_of_mem_ownCalls (mem_of_getLast? hfirst)).1
    · right
      exact (mem_of_mem_ownCalls (mem_of_getLast? hearlier)).1

/-- Every history of every cluster, from any content of the store. -/
theorem lease_mutation_safety (cluster : Cluster Node) (table : ValidTable) (time : Time)
    (actions : List (Cluster.ElectionAction Node)) :
    LeaseMutationSafety cluster (machine.history (cluster.start table time) actions) := by
  have hstart : WorldFollows machine ElectionState.GrowsTo
      (fun node own request state => Sanctioned cluster node own state request)
      (fun node _ election => Configured cluster node election)
      (fun node _ returned _ => Configured cluster node returned.election)
      (cluster.start table time) [] := fun node => ⟨rfl, rfl⟩
  have hobeys := (hstart.run (election_sanctions cluster) actions).1
  have hsanctioned : ∀ entry ∈ machine.history (cluster.start table time) actions,
      ∃ own, Sanctioned cluster entry.node own entry.before entry.request := by
    intro entry hmem
    obtain ⟨earlier, later, hsplit⟩ := append_of_mem hmem
    exact ⟨_, hobeys earlier entry later hsplit⟩
  refine ⟨?_, ?_, ?_, ?_, ?_, ?_⟩
  · intro entry hmem hrenewal hcommits
    obtain ⟨own, hentry⟩ := hsanctioned entry hmem
    exact hentry.holder_of_commits (Or.inl hrenewal) hcommits
  · intro entry hmem hrelease hcommits
    obtain ⟨own, hentry⟩ := hsanctioned entry hmem
    exact hentry.holder_of_commits (Or.inr hrelease) hcommits
  · intro earlier entry later hsplit hacquisition hcommits
    exact ((hobeys earlier entry later hsplit).acquires hacquisition hcommits).1
  · intro entry hmem hchanged hsame
    obtain ⟨own, hentry⟩ := hsanctioned entry hmem
    obtain ⟨hcommits, ⟨compare, stamp, hrequest⟩ | hrelease | hacquisition⟩ :=
      hentry.lease_changed hchanged
    · exact hentry.holder_of_commits (Or.inl ⟨_, _, hrequest⟩) hcommits
    · exact hentry.holder_of_commits (Or.inr hrelease) hcommits
    · obtain ⟨-, _, _, hrequest, -⟩ := hentry.acquires hacquisition hcommits
      rw [← hsame]
      exact (hcommits.after_acquisition hrequest).2
  · intro entry hmem hbefore hafter
    obtain ⟨own, hentry⟩ := hsanctioned entry hmem
    obtain ⟨hrelease, hcommits⟩ := hentry.lease_removed hbefore hafter
    exact hentry.holder_of_commits (Or.inr hrelease) hcommits
  · intro earlier first middle second later hsplit hfirst hfirstCommits hsecond hsecondCommits hlong
    obtain ⟨-, compare, stamp, hrequest, hfresh⟩ :=
      (hobeys earlier first _ hsplit).acquires hfirst hfirstCommits
    have hsecondSplit : machine.history (cluster.start table time) actions =
        (earlier ++ first :: middle) ++ second :: later := by simpa using hsplit
    obtain ⟨⟨read, hlast, hreads⟩, -⟩ :=
      (hobeys _ second later hsecondSplit).acquires hsecond hsecondCommits
    rcases getLast_ownCalls_cases hlast with hmiddle | rfl | hearlier
    · exact Or.inl ⟨read, hmiddle, hreads⟩
    · simp [leaseRead_of_acquisition hfirst] at hreads
    · obtain ⟨ended, hmem, hbefore, hafter⟩ := acquisition_fresh hsplit hrequest hfirstCommits
        (hfresh hlong) hearlier hreads
      obtain ⟨own, hended⟩ := hsanctioned ended (by rw [hsplit]; simp [hmem])
      exact Or.inr ⟨ended, hmem, hended.lease_removed hbefore hafter⟩

/-- A second acquisition read the lease after the first one committed. -/
def AcquisitionsExclude (history : List (ElectionPerformed Node)) : Prop :=
  ∀ earlier first middle second later, history = earlier ++ first :: (middle ++ second :: later) →
    first.request.IsAcquisition → Commits first → second.request.IsAcquisition → Commits second →
    LastReadLease second.node middle (second.before.table.facts leaderLeaseKey)

end Histories

/-- The first node acquires and releases before the second one acquires. -/
def releasedBetween : List (Cluster.ElectionAction Bool) :=
  attempt false [.none, .none] ++ attempt true [.none, .none] ++
    [.run false .none, .run false .none, .run false .none, .enter false .release,
      .run false .none, .run false .none, .run false .none, .run true .none]

/-- Two nodes that hold a lease for a nanosecond. -/
def hastyNodes : Cluster Bool := { twoNodes with configured := fun _ => 1 }

/-- They find a lease that ran out in the millisecond it was written. -/
def hastyStart : Cluster.ElectionWorld Bool :=
  hastyNodes.start ⟨_, FactTable.valid_new.perform (.put leaderLeaseKey (lit "0"))⟩
    ⟨2, by decide, by decide⟩

/-- Both read the lease, and then both take it. -/
def bothTake : List (Cluster.ElectionAction Bool) :=
  attempt false [.none, .none] ++ attempt true [.none, .none] ++ [.run false .none, .run true .none]

/-- Both acquisitions commit, although both nodes had read the lease before: with a release in
between, and with nothing in between if the first one writes the timestamp that is there. -/
theorem acquisitions_both_commit :
    ¬ AcquisitionsExclude (machine.history twoNodesStart releasedBetween) ∧
      ∃ earlier first second, machine.history hastyStart bothTake = earlier ++ [first, second] ∧
        first.request.IsAcquisition ∧ Commits first ∧ second.request.IsAcquisition ∧
          Commits second := by
  constructor
  · intro hexclude
    obtain ⟨_, hlast, -⟩ := hexclude ((machine.history twoNodesStart releasedBetween).take 4) _
      (((machine.history twoNodesStart releasedBetween).drop 5).take 3) _ [] rfl
      ⟨_, _, _, rfl⟩ ⟨_, _, rfl, by decide, rfl⟩ ⟨_, _, _, rfl⟩ ⟨_, _, rfl, by decide, rfl⟩
    cases hlast
  · refine ⟨(machine.history hastyStart bothTake).take 4, _, _, rfl, ?_⟩
    exact ⟨⟨_, _, _, rfl⟩, ⟨_, _, rfl, by decide, rfl⟩, ⟨_, _, _, rfl⟩, ⟨_, _, rfl, by decide, rfl⟩⟩

end CCattler.Controllers
