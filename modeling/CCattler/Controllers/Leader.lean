import CCattler.Concurrency.RelyGuarantee
import CCattler.Go.Time
import CCattler.Store.Valid

/-! # Leader election

The election as a program over the shared store and the clock. Calls may fail, a
transaction also after it was applied, and a node runs one call at a time.
-/

namespace CCattler.Controllers

open Go Store Concurrency

def leaderLeaseKey : Str := lit "leader/controlplane"

def leaderLeaseHolderKey : Str := lit "leader/controlplane/holder"

def defaultLeaderLeaseDuration : Int := 15 * second

structure LeaderElection where
  nodeID : Str
  leaseDuration : Int
  isLeader : Bool
  lastSuccessfulRenewal : Time
  deriving DecidableEq

/-- `NewLeaderElection`: a zero duration asks for the default. -/
def LeaderElection.new (nodeID : Str) (configured : Int) : LeaderElection where
  nodeID := nodeID
  leaseDuration := if configured = 0 then defaultLeaderLeaseDuration else configured
  isLeader := false
  lastSuccessfulRenewal := Time.zero

inductive ElectionCall where
  | now
  | since (earlier : Time)
  | get (key : Str)
  | transaction (compares : List Compare) (onSuccess : List Op)

/-- The replies to a call; `none` is an error of the store. -/
abbrev ElectionReply : ElectionCall → Type
  | .now => Time
  | .since _ => Int
  | .get _ => Option Fact
  | .transaction _ _ => Option Bool

abbrev ElectionProc (Result : Type) : Type := Proc ElectionCall ElectionReply Result

namespace ElectionProc

/-- `time.Now()`. -/
def now : ElectionProc Time := Proc.request ElectionCall.now

/-- `time.Since(earlier)`. -/
def since (earlier : Time) : ElectionProc Int := Proc.request (ElectionCall.since earlier)

def get (key : Str) : ElectionProc (Option Fact) := Proc.request (ElectionCall.get key)

def transaction (compares : List Compare) (onSuccess : List Op) : ElectionProc (Option Bool) :=
  Proc.request (ElectionCall.transaction compares onSuccess)

end ElectionProc

def parseLeaseTimestamp (value : Str) : Time where
  nanos := sscanfDecimal value * 1000000
  low := by
    have := (sscanfDecimal_range value).1
    omega
  high := by
    have := (sscanfDecimal_range value).2
    omega

theorem parseLeaseTimestamp_itoa (now : Time) :
    parseLeaseTimestamp (itoa now.unixMilli) = now.milli := by
  apply Time.ext
  simp only [parseLeaseTimestamp, Time.unixMilli, Time.milli, sscanfDecimal_itoa now.low now.high]

namespace LeaderElection

variable (election : LeaderElection)

def acquisition (nowStr : Str) : List Op :=
  [⟨.put, leaderLeaseKey, nowStr⟩, ⟨.put, leaderLeaseHolderKey, election.nodeID⟩]

def acquired : Option Bool → ElectionProc LeaderElection
  | some true => do
      let stamp ← ElectionProc.now
      return { election with isLeader := true, lastSuccessfulRenewal := stamp }
  | some false | none => return election

def acquireLease (nowStr : Str) : ElectionProc LeaderElection := do
  let ok ← ElectionProc.transaction [⟨leaderLeaseKey, 0⟩] (election.acquisition nowStr)
  election.acquired ok

def relinquishLeadership : LeaderElection :=
  { election with isLeader := false }

def handleTransientRenewalFailure : ElectionProc LeaderElection := do
  let sinceLast ← ElectionProc.since election.lastSuccessfulRenewal
  if sinceLast > election.leaseDuration then return election.relinquishLeadership
  else return election

def renewed : Option Bool → ElectionProc LeaderElection
  | none => election.handleTransientRenewalFailure
  | some false => return election.relinquishLeadership
  | some true => do
      let stamp ← ElectionProc.now
      return { election with lastSuccessfulRenewal := stamp }

def renewLeaseWithCAS (nowStr : Str) : ElectionProc LeaderElection := do
  match ← ElectionProc.get leaderLeaseHolderKey with
  | none => election.handleTransientRenewalFailure
  | some holderFact =>
    if holderFact.value ≠ election.nodeID then return election.relinquishLeadership
    else
      let reply ← ElectionProc.transaction [⟨leaderLeaseHolderKey, holderFact.revision⟩]
        [⟨.put, leaderLeaseKey, nowStr⟩]
      election.renewed reply

/-- The branches of `tryAcquireOrRenew` once the clock was read. -/
def acquireOrRenewAt (now : Time) : ElectionProc LeaderElection :=
  let nowStr := itoa now.unixMilli
  if election.isLeader then election.renewLeaseWithCAS nowStr
  else do
    match ← ElectionProc.get leaderLeaseKey with
    -- an error of the store is taken for a missing lease
    | none => election.acquireLease nowStr
    | some leaseFact =>
      let leaseAge := now.sub (parseLeaseTimestamp leaseFact.value)
      if leaseAge > election.leaseDuration then
        let ok ← ElectionProc.transaction [⟨leaderLeaseKey, leaseFact.revision⟩]
          (election.acquisition nowStr)
        election.acquired ok
      else return election

def release : ElectionProc LeaderElection :=
  if election.isLeader = false then return election
  else do
    match ← ElectionProc.get leaderLeaseHolderKey with
    | none => return election.relinquishLeadership
    | some holderFact =>
      if holderFact.value ≠ election.nodeID then return election.relinquishLeadership
      else
        -- the reply only decides what is logged
        let _ ← ElectionProc.transaction [⟨leaderLeaseHolderKey, holderFact.revision⟩]
          [⟨.delete, leaderLeaseKey, []⟩, ⟨.delete, leaderLeaseHolderKey, []⟩]
        return election.relinquishLeadership

end LeaderElection

structure Returned where
  election : LeaderElection
  readClock : Option Time
  deriving DecidableEq

def tryAcquireOrRenew (election : LeaderElection) : ElectionProc Returned := do
  let now ← ElectionProc.now
  let after ← election.acquireOrRenewAt now
  return ⟨after, some now⟩

inductive ElectionEntry where
  | tryAcquireOrRenew
  | release
  deriving DecidableEq

/-! ## Nodes sharing a store -/

structure Cluster (Node : Type) where
  nodeID : Node → Str
  distinct : Function.Injective nodeID
  configured : Node → Int

inductive StoreFault where
  | none
  | requestLost
  | replyLost
  deriving DecidableEq

/-- The store and the clock; since when the holder key has had its value, and the
timestamp each node last knows to have written. -/
structure ElectionState (Node : Type) where
  table : ValidTable
  time : Time
  holderSince : Time
  written : Node → Time

namespace ElectionState

variable {Node : Type}

section

variable (state : ElectionState Node)

def holder : Option Str :=
  (state.table.facts leaderLeaseHolderKey).map Fact.value

def leaseStamp : Option Time :=
  (state.table.facts leaderLeaseKey).map (fun fact => parseLeaseTimestamp fact.value)

def withTable (table : ValidTable) : ElectionState Node :=
  let next := { state with table := table }
  { next with
    holderSince := if next.holder = state.holder then state.holderSince else state.time }

end

def acknowledge [DecidableEq Node] (state : ElectionState Node) (node : Node) :
    ElectionState Node :=
  match state.leaseStamp with
  | none => state
  | some stamp => { state with written := Function.update state.written node stamp }

def applied (state : ElectionState Node) (compares : List Compare) (onSuccess : List Op) :
    ElectionState Node :=
  state.withTable ⟨_, state.table.valid.perform (.transaction compares onSuccess [])⟩

def perform [DecidableEq Node] (node : Node) (fault : StoreFault) :
    (request : ElectionCall) → ElectionState Node → ElectionReply request × ElectionState Node
  | .now, state => (state.time, state)
  | .since earlier, state => (state.time.sub earlier, state)
  | .get key, state =>
    match fault with
    | .none => ((state.table.get key).toOption, state)
    | .requestLost | .replyLost => (none, state)
  | .transaction compares onSuccess, state =>
    match fault, (state.table.transaction compares onSuccess []).result with
    | .requestLost, _ => (none, state)
    -- the transaction ran, but the node sees an error
    | .replyLost, _ => (none, state.applied compares onSuccess)
    | .none, .ok true => (some true, (state.applied compares onSuccess).acknowledge node)
    | .none, .ok false => (some false, state.applied compares onSuccess)
    | .none, .error _ => (none, state.applied compares onSuccess)

end ElectionState

inductive Surroundings where
  | tick (target : Time)
  | write (operation : Operation)

namespace Cluster

variable {Node : Type}

def leaseDuration (cluster : Cluster Node) (node : Node) : Int :=
  (LeaderElection.new (cluster.nodeID node) (cluster.configured node)).leaseDuration

def disturb : Surroundings → ElectionState Node → ElectionState Node
  | .tick target, state => { state with time := state.time.later target }
  | .write operation, state =>
    if leaderLeaseKey ∈ operation.writtenKeys ∨
        leaderLeaseHolderKey ∈ operation.writtenKeys then state
    else state.withTable ⟨_, state.table.valid.perform operation⟩

def machine [DecidableEq Node] :
    Machine Node ElectionCall ElectionReply StoreFault (ElectionState Node)
      ElectionEntry Surroundings LeaderElection Returned where
  perform := ElectionState.perform
  enter := fun _ entry election =>
    match entry with
    | .tryAcquireOrRenew => tryAcquireOrRenew election
    | .release => do return ⟨← election.release, none⟩
  leave := Returned.election
  disturb := disturb

abbrev ElectionWorld (Node : Type) : Type :=
  World Node ElectionCall ElectionReply (ElectionState Node) LeaderElection Returned

abbrev ElectionAction (Node : Type) : Type :=
  Action Node StoreFault ElectionEntry Surroundings

def start (cluster : Cluster Node) (table : ValidTable) (time : Time) : ElectionWorld Node where
  shared := ⟨table, time, time, fun _ => Time.zero⟩
  threads := fun node =>
    .idle (LeaderElection.new (cluster.nodeID node) (cluster.configured node))

end Cluster

end CCattler.Controllers
