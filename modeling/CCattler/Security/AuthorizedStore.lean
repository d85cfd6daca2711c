import CCattler.Go.Strconv
import CCattler.Security.Audit
import CCattler.Security.Rbac
import CCattler.Store.MemoryContract

/-! # The store behind authorization

A caller sees only facts it may read and changes only keys it may write. All requests
are mediated but the two that go through a lease.
-/

namespace CCattler.Security

open Go Store List

/-- What the context of a call carries. -/
structure CallContext where
  principal : Str
  authMethod : Str

/-- `AuthorizedStore`; `audited` tells whether there is an audit log. -/
structure AuthorizedStore (State Error : Type) where
  inner : StateStore State Error
  authorizer : RBACAuthorizer
  audited : Bool
  servicePrincipal : Str

/-- The error of an authorized request: a refusal, or the error of the store. -/
inductive AccessError (Error : Type) where
  | denied (reason : RBACError)
  | store (error : Error)

/-- One question to the authorizer, and the action named when it is refused. -/
structure Check where
  permission : Permission
  action : Str
  key : Str

/-- What a request leaves: the reply, the state of the inner store and the
entries for the audit log. -/
structure Authorized (State Error : Type) (request : StoreRequest) where
  reply : Except (AccessError Error) (StoreResult request)
  state : State
  audit : List AuditEntry

/-- The permission that an operation of a transaction needs. -/
def operationPermission (operation : Op) : Permission :=
  match operation.type with
  | .delete => .delete
  | .put => .write

variable {permission : Permission}

namespace AuthorizedStore

variable {State Error : Type} (store : AuthorizedStore State Error) (ctx : CallContext)
  (order : IterationOrder)

def authorizingPrincipal : Str :=
  if store.servicePrincipal ≠ [] then store.servicePrincipal else ctx.principal

def onBehalfOf : Str :=
  if store.servicePrincipal = [] then [] else sanitizeForAudit ctx.principal

/-- `logAllowed` and `logDenied`. -/
def log (decision : AuditDecision) (action target : Str) : List AuditEntry :=
  if store.audited then
    [{ principal := sanitizeForAudit (store.authorizingPrincipal ctx)
       action := sanitizeForAudit action
       target := sanitizeForAudit target
       decision := decision
       authMethod := ctx.authMethod
       policy := []
       onBehalfOf := store.onBehalfOf ctx }]
  else []

/-- Hand a request on to the inner store. -/
def delegate (request : StoreRequest) (audit : List AuditEntry) (state : State) :
    Authorized State Error request :=
  let performed := store.inner.perform request state
  ⟨performed.1.mapError AccessError.store, performed.2, audit⟩

/-- The checks of a method, one after the other; the first one that is refused
ends the call. -/
def mediate (request : StoreRequest) (action target : Str) (state : State) :
    List Check → Authorized State Error request
  | [] => store.delegate request (store.log ctx .allow action target) state
  | check :: rest =>
    match store.authorizer.authorize order (store.authorizingPrincipal ctx) check.permission
        check.key with
    | .error reason => ⟨.error (.denied reason), state, store.log ctx .deny check.action check.key⟩
    | .ok () => mediate request action target state rest

/-- The checks of `Transaction`: the compares, then both branches. -/
def transactionChecks (compares : List Compare) (onSuccess onFailure : List Op) : List Check :=
  compares.map (fun compareItem => ⟨.read, lit "transaction-compare", compareItem.key⟩) ++
    onSuccess.map (fun operation =>
      ⟨operationPermission operation, lit "transaction-op", operation.key⟩) ++
    onFailure.map (fun operation =>
      ⟨operationPermission operation, lit "transaction-op", operation.key⟩)

/-- The methods of `AuthorizedStore`. -/
def perform : (request : StoreRequest) → State → Authorized State Error request
  | .get key, state =>
    store.mediate ctx order (.get key) (lit "get") key state [⟨.read, lit "get", key⟩]
  | .put key value, state =>
    store.mediate ctx order (.put key value) (lit "put") key state [⟨.write, lit "put", key⟩]
  | .delete key, state =>
    store.mediate ctx order (.delete key) (lit "delete") key state [⟨.delete, lit "delete", key⟩]
  | .scan scanPrefix, state =>
    store.mediate ctx order (.scan scanPrefix) (lit "scan") scanPrefix state
      [⟨.read, lit "scan", scanPrefix⟩]
  | .scanWithRevision scanPrefix, state =>
    store.mediate ctx order (.scanWithRevision scanPrefix) (lit "scan") scanPrefix state
      [⟨.read, lit "scan", scanPrefix⟩]
  | .watch key opts, state =>
    store.mediate ctx order (.watch key opts) (lit "watch") key state [⟨.watch, lit "watch", key⟩]
  | .transaction compares onSuccess onFailure, state =>
    store.mediate ctx order (.transaction compares onSuccess onFailure) (lit "transaction")
      (itoa (onSuccess.length + onFailure.length) ++ lit " ops") state
      (transactionChecks compares onSuccess onFailure)
  -- these are handed on without a check
  | .revision, state => store.delegate .revision [] state
  | .grantLease ttlSeconds, state => store.delegate (.grantLease ttlSeconds) [] state
  | .putWithLease key value leaseID, state =>
    store.delegate (.putWithLease key value leaseID) [] state
  | .renewLease leaseID, state => store.delegate (.renewLease leaseID) [] state
  | .revokeLease leaseID, state => store.delegate (.revokeLease leaseID) [] state
  | .close, state => store.delegate .close [] state

/-- The authorizing principal may do this to the key on its own. -/
def May (permission : Permission) (key : Str) : Prop :=
  ∀ order, store.authorizer.authorize order (store.authorizingPrincipal ctx) permission key = .ok ()

/-- Complete mediation of a request. -/
structure Mediated (contract : store.inner.Contract) (request : StoreRequest) (state : State) :
    Prop where
  shown : ∀ result, (store.perform ctx order request state).reply = .ok result →
    ∀ fact ∈ request.shown result, store.May ctx .read fact.key
  watched : ∀ key opts, request = .watch key opts → ∀ channel last,
    (store.perform ctx order (.watch key opts) state).reply = .ok channel →
    contract.later (store.perform ctx order (.watch key opts) state).state last →
    ∀ event ∈ contract.handed last channel, event.IsMarker ∨
      ∀ fact ∈ event.carried, store.May ctx .watch fact.key
  changed : ∀ key value, contract.value (store.perform ctx order request state).state key =
      some value → contract.value state key ≠ some value → store.May ctx .write key
  removed : ∀ key, contract.value (store.perform ctx order request state).state key = none →
    contract.value state key ≠ none → store.May ctx .delete key

/-- What a request that uses a lease needs and nobody asks for. -/
def LeasePermitted (contract : store.inner.Contract) (state : State) : StoreRequest → Prop
  | .putWithLease key value _ => contract.accepts state = true →
      contract.value state key ≠ some value → store.May ctx .write key
  | .revokeLease leaseID => contract.accepts state = true → ∀ key,
      contract.attached state leaseID key = true → contract.value state key ≠ none →
        store.May ctx .delete key
  | _ => True

variable {store ctx order} {request : StoreRequest} {state : State}

theorem may_iff {key : Str} : store.May ctx permission key ↔
    store.authorizer.Permits (store.authorizingPrincipal ctx) permission key := by
  constructor
  · intro h
    exact (RBACAuthorizer.authorize_ok_iff ⟨id, fun _ => .refl _⟩).mp (h _)
  · intro h order
    exact (RBACAuthorizer.authorize_ok_iff order).mpr h

theorem May.below {key longer : Str} (h : store.May ctx permission key) (hstarts : key <+: longer) :
    store.May ctx permission longer :=
  may_iff.mpr ((may_iff.mp h).below hstarts)

/-- A mediated request is refused and does nothing, or every check is granted and
it is handed on. -/
theorem mediate_cases (action target : Str) (state : State) (checks : List Check) :
    (∃ reason audit, store.mediate ctx order request action target state checks =
        ⟨.error (.denied reason), state, audit⟩) ∨
      ((∀ check ∈ checks, store.May ctx check.permission check.key) ∧
        ∃ audit, store.mediate ctx order request action target state checks =
          store.delegate request audit state) := by
  induction checks with
  | nil => exact Or.inr ⟨by simp, _, rfl⟩
  | cons check rest ih =>
    simp only [mediate]
    cases hcheck : store.authorizer.authorize order (store.authorizingPrincipal ctx)
        check.permission check.key with
    | error reason => exact Or.inl ⟨reason, _, rfl⟩
    | ok granted =>
      have hmay : store.May ctx check.permission check.key :=
        may_iff.mpr ((RBACAuthorizer.authorize_ok_iff order).mp hcheck)
      refine ih.imp id ?_
      rintro ⟨hrest, hdelegated⟩
      refine ⟨?_, hdelegated⟩
      intro other hother
      rcases mem_cons.mp hother with rfl | hmem
      · exact hmay
      · exact hrest other hmem

/-- What a request needs in order to be handed on. -/
structure Granted (store : AuthorizedStore State Error) (ctx : CallContext)
    (request : StoreRequest) : Prop where
  reads : ∀ key, request.reads key → store.May ctx .read key
  watches : ∀ watched opts, request = .watch watched opts → ∀ key, opts.covers watched key →
    store.May ctx .watch key
  writes : ∀ operation ∈ request.operations,
    store.May ctx (operationPermission operation) operation.key

/-- Every request is refused and does nothing, or all that it names is granted and
it is handed on. -/
theorem perform_cases (store : AuthorizedStore State Error) (ctx : CallContext)
    (order : IterationOrder) (request : StoreRequest) (state : State) :
    (∃ reason audit, store.perform ctx order request state =
        ⟨.error (.denied reason), state, audit⟩) ∨
      (Granted store ctx request ∧
        ∃ audit, store.perform ctx order request state = store.delegate request audit state) := by
  cases request with
  | get key =>
    refine (mediate_cases _ _ state _).imp id fun h =>
      ⟨⟨?_, by simp, by simp [StoreRequest.operations]⟩, h.2⟩
    rintro _ rfl
    exact h.1 _ mem_cons_self
  | put _ _ | delete _ =>
    refine (mediate_cases _ _ state _).imp id fun h => ⟨⟨fun _ => False.elim, by simp, ?_⟩, h.2⟩
    intro operation hmem
    obtain rfl := mem_singleton.mp hmem
    exact h.1 _ mem_cons_self
  | scan _ | scanWithRevision _ =>
    refine (mediate_cases _ _ state _).imp id fun h =>
      ⟨⟨?_, by simp, by simp [StoreRequest.operations]⟩, h.2⟩
    exact fun key hstarts => (h.1 _ mem_cons_self).below hstarts
  | watch key opts =>
    refine (mediate_cases _ _ state _).imp id fun h => ⟨⟨fun _ => False.elim, ?_,
      by simp [StoreRequest.operations]⟩, h.2⟩
    rintro watched opts' ⟨⟩ other hcovers
    have hmay := h.1 _ mem_cons_self
    unfold WatchOption.covers at hcovers
    split at hcovers
    · exact hmay.below hcovers
    · exact hcovers ▸ hmay
  | transaction compares onSuccess onFailure =>
    refine (mediate_cases _ _ state _).imp id fun h => ⟨⟨fun _ => False.elim, by simp, ?_⟩, h.2⟩
    intro operation hmem
    refine h.1 ⟨operationPermission operation, lit "transaction-op", operation.key⟩ ?_
    simp only [transactionChecks, mem_append, mem_map]
    rcases mem_append.mp hmem with hsuccess | hfailure
    · exact Or.inl (Or.inr ⟨operation, hsuccess, rfl⟩)
    · exact Or.inr ⟨operation, hfailure, rfl⟩
  | _ =>
    exact Or.inr ⟨⟨fun _ => False.elim, by simp, by simp [StoreRequest.operations]⟩, _, rfl⟩

theorem delegate_reply {audit : List AuditEntry} {result : StoreResult request}
    (h : (store.delegate request audit state).reply = .ok result) :
    (store.inner.perform request state).1 = .ok result := by
  simp only [delegate] at h
  cases hreply : (store.inner.perform request state).1 with
  | error error => simp [hreply, Except.mapError] at h
  | ok value => simpa [hreply, Except.mapError] using h

section

variable (contract : store.inner.Contract)

theorem mediated_of_not_usesLease (hlease : request.usesLease = false) :
    store.Mediated ctx order contract request state := by
  rcases store.perform_cases ctx order request state with
    ⟨_, audit, hdenied⟩ | ⟨hgranted, audit, hperformed⟩
  · refine ⟨?_, ?_, ?_, ?_⟩
    · intro result hreply
      simp [hdenied] at hreply
    · rintro key opts rfl channel last hreply
      simp [hdenied] at hreply
    · intro key value hafter hbefore
      rw [hdenied] at hafter
      exact absurd hafter hbefore
    · intro key hafter hbefore
      rw [hdenied] at hafter
      exact absurd hafter hbefore
  · have hstate : (store.perform ctx order request state).state =
        (store.inner.perform request state).2 := by rw [hperformed]; rfl
    have hwritten : ∀ {key after},
        contract.value (store.perform ctx order request state).state key = after →
        contract.value state key ≠ after → ∃ operation : Op, operation.key = key ∧
          FactTable.outcome operation = after ∧
          store.May ctx (operationPermission operation) key := by
      intro key after hafter hbefore
      rw [hstate] at hafter
      rcases contract.changes request state key hlease with hsame | ⟨operation, hmem, rfl, houtcome⟩
      · exact absurd (hsame.symm.trans hafter) hbefore
      · exact ⟨operation, rfl, houtcome.symm.trans hafter, hgranted.writes operation hmem⟩
    refine ⟨?_, ?_, ?_, ?_⟩
    · intro result hreply fact hfact
      rw [hperformed] at hreply
      exact hgranted.reads _ (contract.shown_key (delegate_reply hreply) fact hfact)
    · rintro key opts rfl channel last hreply hlater event hevent
      rw [hstate] at hlater
      rw [hperformed] at hreply
      refine (contract.watch_handed (delegate_reply hreply) hlater event hevent).imp id ?_
      exact fun hcovers fact hfact => hgranted.watches key opts rfl _ (hcovers fact hfact)
    · intro key value hafter hbefore
      obtain ⟨operation, rfl, houtcome, hmay⟩ := hwritten hafter hbefore
      cases htype : operation.type with
      | put => simpa [operationPermission, htype] using hmay
      | delete => simp [FactTable.outcome, htype] at houtcome
    · intro key hafter hbefore
      obtain ⟨operation, rfl, houtcome, hmay⟩ := hwritten hafter hbefore
      cases htype : operation.type with
      | put => simp [FactTable.outcome, htype] at houtcome
      | delete => simpa [operationPermission, htype] using hmay

theorem mediated_putWithLease_iff (key value : Str) (leaseID : Int) :
    store.Mediated ctx order contract (.putWithLease key value leaseID) state ↔
      store.LeasePermitted ctx contract state (.putWithLease key value leaseID) := by
  have hstate : ∀ other,
      contract.value (store.perform ctx order (.putWithLease key value leaseID) state).state other =
        if contract.accepts state = true ∧ other = key then some value
        else contract.value state other :=
    contract.putWithLease_value key value leaseID state
  constructor
  · intro h haccepts hbefore
    exact h.changed key value (by rw [hstate, if_pos ⟨haccepts, rfl⟩]) hbefore
  · intro h
    refine ⟨fun result _ fact hfact => (by simp [StoreRequest.shown] at hfact), by simp, ?_, ?_⟩
    · intro other _ hafter hbefore
      rw [hstate] at hafter
      split at hafter
      next hcase =>
        obtain ⟨haccepts, rfl⟩ := hcase
        obtain rfl := Option.some.inj hafter
        exact h haccepts hbefore
      next => exact absurd hafter hbefore
    · intro other hafter hbefore
      rw [hstate] at hafter
      split at hafter
      next => cases hafter
      next => exact absurd hafter hbefore

theorem mediated_revokeLease_iff (leaseID : Int) :
    store.Mediated ctx order contract (.revokeLease leaseID) state ↔
      store.LeasePermitted ctx contract state (.revokeLease leaseID) := by
  have hstate : ∀ key,
      contract.value (store.perform ctx order (.revokeLease leaseID) state).state key =
        if contract.accepts state = true ∧ contract.attached state leaseID key = true then none
        else contract.value state key :=
    contract.revokeLease_value leaseID state
  constructor
  · intro h haccepts key hattached hbefore
    exact h.removed key (by rw [hstate, if_pos ⟨haccepts, hattached⟩]) hbefore
  · intro h
    refine ⟨fun result _ fact hfact => (by simp [StoreRequest.shown] at hfact), by simp, ?_, ?_⟩
    · intro key value hafter hbefore
      rw [hstate] at hafter
      split at hafter
      next => cases hafter
      next => exact absurd hafter hbefore
    · intro key hafter hbefore
      rw [hstate] at hafter
      split at hafter
      next hcase => exact h hcase.1 key hcase.2 hbefore
      next => exact absurd hafter hbefore

end

/-- For every store that keeps the contract, a request is mediated exactly if it uses no
lease or its effects through the lease are permitted. -/
theorem mediated_iff (store : AuthorizedStore State Error) (contract : store.inner.Contract)
    (ctx : CallContext) (order : IterationOrder) (request : StoreRequest) (state : State) :
    store.Mediated ctx order contract request state ↔
      store.LeasePermitted ctx contract state request := by
  cases request with
  | putWithLease key value leaseID => exact mediated_putWithLease_iff contract key value leaseID
  | revokeLease leaseID => exact mediated_revokeLease_iff contract leaseID
  | _ => exact iff_of_true (mediated_of_not_usesLease contract rfl) trivial

end AuthorizedStore

/-- The in-memory store, on which users may read and watch everything. -/
def readersStore : AuthorizedStore LiveStore StoreError where
  inner := LiveStore.stateStore
  authorizer :=
    { roles := Map.set ∅ (lit "api-reader") ⟨lit "api-reader", [⟨[], [.read, .watch]⟩]⟩
      bindings := Map.set ∅ (lit "user:*") [lit "api-reader"] }
  audited := false
  servicePrincipal := []

/-- A user without any permission to write puts a fact through a lease. -/
theorem readersStore_putWithLease_unmediated : ¬ readersStore.Mediated ⟨lit "user:a", []⟩
    ⟨id, fun _ => .refl _⟩ LiveStore.contract
    (.putWithLease (lit "desired/service/web/replicas") (lit "0") 1) LiveStore.new := by
  intro h
  have hmay := h.changed (lit "desired/service/web/replicas") (lit "0") (by decide) (by decide)
  exact absurd (hmay ⟨id, fun _ => .refl _⟩) (by decide)

end CCattler.Security
