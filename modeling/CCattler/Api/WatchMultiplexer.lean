import CCattler.Go.Channel
import CCattler.Store.Types
import Mathlib.Data.Finset.Basic

/-! # The watch multiplexer

Subscribers of one prefix share a store watch, and the goroutine of a subscription
cleans up in several steps. A newcomer in between may open another watch, which the
cleanup of the former one takes out of the map.
-/

namespace CCattler.Api

open Go Store

/-- How far the goroutine of a subscription is, which waits for the end of its context. -/
inductive Leaving where
  | subscribed
  | removed
  | closed
  | finished
  deriving DecidableEq, Repr

structure Subscription where
  watcher : Nat
  ctxDone : Bool
  progress : Leaving
  channel : Channel Event

/-- `sharedPrefixWatcher`. A subscriber goes by the number of its subscription. -/
structure SharedPrefixWatcher where
  watchPrefix : Str
  subscribers : Finset Nat
  cancelled : Bool

structure WatchMultiplexer where
  sharedWatchers : Str → Option Nat
  watchers : Nat → Option SharedPrefixWatcher
  subscriptions : Nat → Option Subscription

/-- What can happen. A call of `Subscribe` comes with unused numbers for what it may
allocate. -/
inductive WatchAction where
  | subscribe (watchPrefix : Str) (watcher subscription : Nat)
  | watchFails (watchPrefix : Str)
  | cancelContext (subscription : Nat)
  | removeSubscriber (subscription : Nat)
  | closeChannel (subscription : Nat)
  | cleanUp (subscription : Nat)
  | fanOut (watcher : Nat) (event : Event)

variable {number subscription : Nat} {watcher : SharedPrefixWatcher}

namespace WatchMultiplexer

def defaultWatchSubscriberBuffer : Nat := 64

/-- `NewWatchMultiplexer`. -/
def new : WatchMultiplexer := ⟨fun _ => none, fun _ => none, fun _ => none⟩

variable (mux : WatchMultiplexer)

def setWatcher (number : Nat) (watcher : SharedPrefixWatcher) : WatchMultiplexer :=
  { mux with watchers := Function.update mux.watchers number (some watcher) }

def setSubscription (number : Nat) (subscription : Subscription) : WatchMultiplexer :=
  { mux with
    subscriptions := Function.update mux.subscriptions number (some subscription) }

/-- `addSubscriber` with a new channel, and the goroutine that is started for it. -/
def addSubscriber (number subscription : Nat) (watcher : SharedPrefixWatcher) : WatchMultiplexer :=
  (mux.setWatcher number
    { watcher with subscribers := insert subscription watcher.subscribers }).setSubscription
      subscription ⟨number, false, .subscribed, Channel.make defaultWatchSubscriberBuffer⟩

/-- `createSharedWatcher`, and its registration. -/
def createSharedWatcher (watchPrefix : Str) (number : Nat) : WatchMultiplexer :=
  { mux.setWatcher number ⟨watchPrefix, ∅, false⟩ with
    sharedWatchers := Function.update mux.sharedWatchers watchPrefix (some number) }

/-- The last critical section of the goroutine unregisters whichever watcher is there. -/
def stopIfUnused (number : Nat) (watcher : SharedPrefixWatcher) : WatchMultiplexer :=
  if watcher.subscribers = ∅ then
    { mux.setWatcher number { watcher with cancelled := true } with
      sharedWatchers := Function.update mux.sharedWatchers watcher.watchPrefix none }
  else mux

/-- What a goroutine does with its subscription and the watcher that it belongs to. -/
def withSubscription (number : Nat)
    (act : Subscription → SharedPrefixWatcher → WatchMultiplexer) : WatchMultiplexer :=
  match mux.subscriptions number with
  | some subscription =>
    match mux.watchers subscription.watcher with
    | some watcher => act subscription watcher
    | none => mux
  | none => mux

/-- A step; one that cannot happen yet changes nothing. -/
def step : WatchAction → WatchMultiplexer
  | .subscribe watchPrefix number subscription =>
    if (mux.watchers number).isNone ∧ (mux.subscriptions subscription).isNone then
      match mux.sharedWatchers watchPrefix with
      | some shared =>
        match mux.watchers shared with
        | some watcher => mux.addSubscriber shared subscription watcher
        | none => mux
      | none =>
        (mux.createSharedWatcher watchPrefix number).addSubscriber number subscription
          ⟨watchPrefix, ∅, false⟩
    else mux
  | .watchFails _ => mux
  | .cancelContext number => mux.withSubscription number fun subscription _ =>
    mux.setSubscription number { subscription with ctxDone := true }
  | .removeSubscriber number => mux.withSubscription number fun subscription watcher =>
    if subscription.ctxDone = true ∧ subscription.progress = .subscribed then
      (mux.setWatcher subscription.watcher
        { watcher with subscribers := watcher.subscribers.erase number }).setSubscription
          number { subscription with progress := .removed }
    else mux
  | .closeChannel number => mux.withSubscription number fun subscription _ =>
    if subscription.progress = .removed then
      mux.setSubscription number
        { subscription with channel := subscription.channel.close, progress := .closed }
    else mux
  | .cleanUp number => mux.withSubscription number fun subscription watcher =>
    if subscription.progress = .closed then
      (mux.stopIfUnused subscription.watcher watcher).setSubscription number
        { subscription with progress := .finished }
    else mux
  | .fanOut number event =>
    match mux.watchers number with
    | some watcher =>
      { mux with
        subscriptions := fun subscription =>
          if subscription ∈ watcher.subscribers then
            (mux.subscriptions subscription).map (fun found =>
              { found with channel := (found.channel.trySend event).1 })
          else mux.subscriptions subscription }
    | none => mux

/-- The state after some actions. -/
def run (actions : List WatchAction) : WatchMultiplexer :=
  actions.foldl step mux

/-- What the multiplexer promises. -/
structure Tidy : Prop where
  shared : ∀ number watcher, mux.watchers number = some watcher →
    watcher.subscribers.Nonempty → watcher.cancelled = false ∧
      mux.sharedWatchers watcher.watchPrefix = some number ∧
      ∀ other second, mux.watchers other = some second →
        second.watchPrefix = watcher.watchPrefix → second.cancelled = false → other = number
  stopped : ∀ number watcher, mux.watchers number = some watcher → watcher.subscribers = ∅ →
    (∀ former subscription, mux.subscriptions former = some subscription →
      subscription.watcher = number → subscription.progress = .finished) →
    watcher.cancelled = true ∧ mux.sharedWatchers watcher.watchPrefix ≠ some number
  channels : ∀ number watcher subscriber subscription,
    mux.watchers number = some watcher → subscriber ∈ watcher.subscribers →
    mux.subscriptions subscriber = some subscription →
    subscription.channel.closed = false

/-- A cleanup that finds its watcher without subscribers finds no other one registered. -/
def CleansOwn : WatchAction → Prop
  | .cleanUp number => ∀ subscription watcher, mux.subscriptions number = some subscription →
      mux.watchers subscription.watcher = some watcher → watcher.subscribers = ∅ →
      ∀ other, mux.sharedWatchers watcher.watchPrefix = some other → other = subscription.watcher
  | _ => True

/-- Every cleanup of a run does so. -/
def CleansOwnAlong : WatchMultiplexer → List WatchAction → Prop
  | _, [] => True
  | mux, action :: rest =>
      mux.CleansOwn action ∧ CleansOwnAlong (mux.step action) rest

/-- Watchers, subscribers and subscriptions know each other, and unused watchers are
looked after. -/
structure Kept : Prop where
  registered : ∀ {watchPrefix number}, mux.sharedWatchers watchPrefix = some number →
    ∃ watcher, mux.watchers number = some watcher ∧ watcher.watchPrefix = watchPrefix ∧
      watcher.cancelled = false
  uncancelled : ∀ {number watcher}, mux.watchers number = some watcher →
    watcher.cancelled = false → mux.sharedWatchers watcher.watchPrefix = some number
  unused : ∀ {number watcher}, mux.watchers number = some watcher →
    watcher.cancelled = true → watcher.subscribers = ∅
  joined : ∀ {number subscription}, mux.subscriptions number = some subscription →
    ∃ watcher, mux.watchers subscription.watcher = some watcher ∧
      (number ∈ watcher.subscribers ↔ subscription.progress = .subscribed)
  known : ∀ {number watcher subscriber}, mux.watchers number = some watcher →
    subscriber ∈ watcher.subscribers → ∃ subscription,
      mux.subscriptions subscriber = some subscription ∧ subscription.watcher = number
  closed : ∀ {number subscription}, mux.subscriptions number = some subscription →
    subscription.channel.closed = true →
    subscription.progress = .closed ∨ subscription.progress = .finished
  pending : ∀ {number watcher}, mux.watchers number = some watcher →
    watcher.subscribers = ∅ → watcher.cancelled = false → ∃ former subscription,
      mux.subscriptions former = some subscription ∧ subscription.watcher = number ∧
        subscription.progress ≠ .finished

variable {mux}

theorem Kept.tidy (h : mux.Kept) : mux.Tidy := by
  have hopen : ∀ {number watcher}, mux.watchers number = some watcher →
      watcher.subscribers.Nonempty → watcher.cancelled = false := by
    intro number watcher hwatcher hsome
    by_contra hcancelled
    rw [Bool.not_eq_false] at hcancelled
    exact hsome.ne_empty (h.unused hwatcher hcancelled)
  refine ⟨fun number watcher hwatcher hsome => ?_, fun number watcher hwatcher hnone hdone => ?_,
    fun number watcher subscriber subscription hwatcher hmem hsubscription => ?_⟩
  · have hshared := h.uncancelled hwatcher (hopen hwatcher hsome)
    refine ⟨hopen hwatcher hsome, hshared, ?_⟩
    intro _ _ hsecond hsame huncancelled
    have hother := h.uncancelled hsecond huncancelled
    rw [hsame, hshared] at hother
    exact (Option.some.inj hother).symm
  · have hcancelled : watcher.cancelled = true := by
      by_contra hopen
      rw [Bool.not_eq_true] at hopen
      obtain ⟨former, subscription, hformer, howner, hpending⟩ := h.pending hwatcher hnone hopen
      exact hpending (hdone former subscription hformer howner)
    refine ⟨hcancelled, fun hshared => ?_⟩
    obtain ⟨found, hfound, -, hopen⟩ := h.registered hshared
    rw [hwatcher] at hfound
    rw [← Option.some.inj hfound, hcancelled] at hopen
    cases hopen
  · by_contra hclosed
    rw [Bool.not_eq_false] at hclosed
    obtain ⟨found, hfound, howner⟩ := h.known hwatcher hmem
    obtain ⟨joined, hjoined, hiff⟩ := h.joined hsubscription
    rw [hsubscription] at hfound
    rw [Option.some.inj hfound, howner, hwatcher] at hjoined
    rw [← Option.some.inj hjoined] at hiff
    rcases h.closed hsubscription hclosed with hstate | hstate <;>
      simp [hiff.mp hmem] at hstate

theorem kept_new : new.Kept := by
  constructor <;> intros <;> contradiction

section

variable (h : mux.Kept)
include h

theorem Kept.joins (hwatcher : mux.watchers number = some watcher)
    (hopen : watcher.cancelled = false) (hfresh : mux.subscriptions subscription = none) :
    (mux.addSubscriber number subscription watcher).Kept := by
  cases h
  constructor <;>
    simp only [addSubscriber, setWatcher, setSubscription, Function.update_apply]
  case known =>
    intro _ _ subscriber _ _
    by_cases hnew : subscriber = subscription
    · -- a subscriber of another watcher would have a subscription already
      refine ⟨_, if_pos hnew, ?_⟩
      grind
    · grind
  case closed => grind [Channel.make]
  case pending => grind [Finset.insert_ne_empty]
  all_goals grind

/-- A first subscriber's new watcher keeps the invariant. -/
theorem Kept.creates {watchPrefix : Str} (hnone : mux.sharedWatchers watchPrefix = none)
    (hnumber : mux.watchers number = none) (hfresh : mux.subscriptions subscription = none) :
    ((mux.createSharedWatcher watchPrefix number).addSubscriber number subscription
      ⟨watchPrefix, ∅, false⟩).Kept := by
  cases h
  constructor <;> simp only [createSharedWatcher, addSubscriber, setWatcher, setSubscription,
    Function.update_apply]
  case registered =>
    intro other found hfound
    by_cases hsame : other = watchPrefix
    · rw [if_pos hsame] at hfound
      exact ⟨_, if_pos (Option.some.inj hfound).symm, hsame.symm, rfl⟩
    · grind
  case joined =>
    intro other found hfound
    by_cases hnew : other = subscription
    · rw [if_pos hnew] at hfound
      obtain rfl := Option.some.inj hfound
      exact ⟨_, if_pos rfl, by simp [hnew]⟩
    · grind
  case known =>
    intro other found subscriber hfound _
    by_cases hnew : subscriber = subscription
    · refine ⟨_, if_pos hnew, ?_⟩
      grind
    · grind
  case closed => grind [Channel.make]
  all_goals grind

theorem Kept.subscribe (watchPrefix : Str) (number subscription : Nat) :
    (mux.step (.subscribe watchPrefix number subscription)).Kept := by
  simp only [step]
  split
  next hfresh =>
    obtain ⟨hnumber, hsubscription⟩ := hfresh
    rw [Option.isNone_iff_eq_none] at hnumber hsubscription
    split
    next _ hshared =>
      obtain ⟨_, hwatcher, -, hopen⟩ := h.registered hshared
      rw [hwatcher]
      exact h.joins hwatcher hopen hsubscription
    next hnone => exact h.creates hnone hnumber hsubscription
  next => exact h

theorem Kept.proceeds {subscription next : Subscription}
    (hsubscription : mux.subscriptions number = some subscription)
    (howner : next.watcher = subscription.watcher)
    (hlisted : next.progress = .subscribed ↔ subscription.progress = .subscribed)
    (hnext : next.channel.closed = true → next.progress = .closed ∨ next.progress = .finished)
    (hleft : next.progress = .finished → ∀ watcher,
      mux.watchers subscription.watcher = some watcher → watcher.subscribers = ∅ →
        watcher.cancelled = true ∨ subscription.progress = .finished) :
    (mux.setSubscription number next).Kept := by
  cases h
  constructor <;> simp only [setSubscription, Function.update_apply]
  all_goals grind

theorem Kept.withSubscription {act : Subscription → SharedPrefixWatcher → WatchMultiplexer}
    (hact : ∀ subscription watcher, mux.subscriptions number = some subscription →
      mux.watchers subscription.watcher = some watcher → (act subscription watcher).Kept) :
    (mux.withSubscription number act).Kept := by
  unfold WatchMultiplexer.withSubscription
  split
  next subscription hsubscription =>
    split
    next watcher hwatcher => exact hact subscription watcher hsubscription hwatcher
    next => exact h
  next => exact h

theorem Kept.cancelContext (number : Nat) : (mux.step (.cancelContext number)).Kept := by
  apply h.withSubscription
  intro _ _ hsubscription _
  have hclosed := h.closed hsubscription
  exact h.proceeds hsubscription rfl Iff.rfl hclosed fun hfinished _ _ _ => Or.inr hfinished

theorem Kept.closeChannel (number : Nat) : (mux.step (.closeChannel number)).Kept := by
  apply h.withSubscription
  intro _ _ hsubscription _
  split
  next hremoved =>
    exact h.proceeds hsubscription rfl (by simp [hremoved]) (fun _ => Or.inl rfl)
      fun hfinished => nomatch hfinished
  next => exact h

theorem Kept.removeSubscriber (number : Nat) : (mux.step (.removeSubscriber number)).Kept := by
  apply h.withSubscription
  intro _ _ _ _
  split
  next =>
    cases h
    constructor <;> simp only [setWatcher, setSubscription, Function.update_apply]
    all_goals grind
  next => exact h

/-- A watcher is stopped and unregistered if it is the one registered, or if it was
cancelled before. -/
theorem Kept.stopIfUnused (hwatcher : mux.watchers number = some watcher)
    (hown : watcher.subscribers = ∅ →
      ∀ other, mux.sharedWatchers watcher.watchPrefix = some other → other = number) :
    (mux.stopIfUnused number watcher).Kept := by
  unfold WatchMultiplexer.stopIfUnused
  split
  next =>
    cases h
    constructor <;> simp only [setWatcher]
    all_goals grind
  next => exact h

theorem Kept.cleanUp (hown : mux.CleansOwn (.cleanUp number)) :
    (mux.step (.cleanUp number)).Kept := by
  apply h.withSubscription
  intro subscription watcher hsubscription hwatcher
  split
  next hclosed =>
    have hstopped := h.stopIfUnused hwatcher (hown subscription watcher hsubscription hwatcher)
    have hkept : (mux.stopIfUnused subscription.watcher watcher).subscriptions number =
        some subscription := by
      unfold WatchMultiplexer.stopIfUnused
      split <;> exact hsubscription
    refine hstopped.proceeds hkept rfl (by simp [hclosed]) (fun _ => Or.inr rfl) ?_
    -- the watcher of the subscription is in use or was stopped just now
    intro _ found hfound hempty
    unfold WatchMultiplexer.stopIfUnused at hfound
    split at hfound
    next =>
      have hnow : some { watcher with cancelled := true } = some found := by
        simpa [setWatcher] using hfound
      rw [← Option.some.inj hnow]
      exact Or.inl rfl
    next hused =>
      rw [hwatcher] at hfound
      rw [Option.some.inj hfound] at hused
      exact absurd hempty hused
  next => exact h

end

theorem closed_trySend (channel : Channel Event) (event : Event) :
    (channel.trySend event).1.closed = channel.closed := by
  unfold Channel.trySend
  split
  · rfl
  · split <;> rfl

theorem Kept.fanOut (h : mux.Kept) (number : Nat) (event : Event) :
    (mux.step (.fanOut number event)).Kept := by
  simp only [step]
  split
  next watcher _ =>
    obtain ⟨_, _, _, _, _, _, hpending⟩ := h
    constructor <;> simp only
    case closed => grind [closed_trySend]
    case pending =>
      intro _ _ hfound hempty hopen
      obtain ⟨former, subscription, hformer, howner, hprogress⟩ := hpending hfound hempty hopen
      by_cases hmem : former ∈ watcher.subscribers
      · exact ⟨former, { subscription with channel := (subscription.channel.trySend event).1 },
          by rw [if_pos hmem, hformer]; rfl, howner, hprogress⟩
      · exact ⟨former, subscription, by rw [if_neg hmem]; exact hformer, howner, hprogress⟩
    all_goals grind
  next => exact h

theorem Kept.step (h : mux.Kept) {action : WatchAction}
    (hown : mux.CleansOwn action) : (mux.step action).Kept := by
  cases action with
  | subscribe watchPrefix number subscription => exact h.subscribe watchPrefix number subscription
  | watchFails watchPrefix => exact h
  | cancelContext number => exact h.cancelContext number
  | removeSubscriber number => exact h.removeSubscriber number
  | closeChannel number => exact h.closeChannel number
  | cleanUp number => exact h.cleanUp hown
  | fanOut number event => exact h.fanOut number event

theorem Kept.run (h : mux.Kept) {actions : List WatchAction}
    (hown : mux.CleansOwnAlong actions) : (mux.run actions).Kept := by
  induction actions generalizing mux with
  | nil => exact h
  | cons action rest ih => exact ih (h.step hown.1) hown.2

end WatchMultiplexer

/-- The multiplexer is tidy if each cleanup finds its own watcher or none registered. -/
theorem multiplexer_tidy {actions : List WatchAction}
    (hown : WatchMultiplexer.new.CleansOwnAlong actions) :
    (WatchMultiplexer.new.run actions).Tidy :=
  (WatchMultiplexer.kept_new.run hown).tidy

/-- What a subscriber does that leaves. -/
def leaves (number : Nat) : List WatchAction :=
  [.cancelContext number, .removeSubscriber number, .closeChannel number, .cleanUp number]

/-- Two subscribers share a watch and leave one after the other. -/
def twoLeave : List WatchAction :=
  [.subscribe (lit "a/") 0 0, .subscribe (lit "a/") 1 1] ++ leaves 0 ++ leaves 1

theorem twoLeave_tidy : (WatchMultiplexer.new.run twoLeave).Tidy := by
  apply multiplexer_tidy
  refine ⟨trivial, trivial, trivial, trivial, trivial, ?_, trivial, trivial, trivial, ?_, trivial⟩
  -- the first cleanup finds the watch in use, the second one finds it unused and registered
  all_goals
    intro subscription watcher hsubscription hwatcher hempty other hother
    obtain rfl := Option.some.inj hsubscription
    obtain rfl := Option.some.inj hwatcher
  · exact absurd hempty (by decide)
  · exact (Option.some.inj hother).symm

/-- A newcomer's watcher is unregistered by the second cleanup of the one before. -/
def twoLeaveOneComes : List WatchAction :=
  [.subscribe (lit "a/") 0 0, .subscribe (lit "a/") 1 1, .cancelContext 0, .cancelContext 1,
    .removeSubscriber 0, .removeSubscriber 1, .closeChannel 0, .closeChannel 1, .cleanUp 0,
    .subscribe (lit "a/") 1 2, .cleanUp 1]

/-- The next subscriber opens a second store watch for the same prefix. -/
theorem newcomer_unregistered :
    let after := WatchMultiplexer.new.run twoLeaveOneComes
    let later := after.step (.subscribe (lit "a/") 2 3)
    after.watchers 1 = some ⟨lit "a/", {2}, false⟩ ∧ after.sharedWatchers (lit "a/") = none ∧
      later.watchers 1 = some ⟨lit "a/", {2}, false⟩ ∧
      later.watchers 2 = some ⟨lit "a/", {3}, false⟩ := by
  refine ⟨?_, ?_, ?_, ?_⟩ <;> rfl

end CCattler.Api
