import MarketBlocks.PaperTrading.TickOrder
import MarketBlocks.Runner.RunToEnd

/-!
# Which orders are watched

An order is evaluated while its pair is among the trade subscriptions of the stream. `add_order`
sees to that, but it shares the subscriptions with the strategy: what the strategy unsubscribes is
gone for the orders of the account as well. As long as the strategy leaves the trades of pairs with
open orders alone, every order is watched, and no order that a notification leaves open triggers at
the prices of its tick.
-/

namespace MarketBlocks

open Library PaperTradeApi

/-- The subscription up to the `operator==` of the source, which compares the parameter for candles
only. -/
def BasicWebsocketSubscription.canonical {PairItem : Type}
    (subscription : BasicWebsocketSubscription PairItem) : BasicWebsocketSubscription PairItem :=
  { subscription with
    parameter := if subscription.channel = .ohlcv then subscription.parameter else none }

/-- The entry of the set for one pair. -/
def BasicWebsocketSubscription.entry (subscription : WebsocketSubscription) (pair : TradablePair) :
    UniqueWebsocketSubscription :=
  { channel := subscription.channel, pairItem := pair, parameter := subscription.parameter }

/-- Exactly the candle channel carries an interval. The hash of the set throws for a candle
subscription without one. -/
def BasicWebsocketSubscription.WellFormed {PairItem : Type}
    (subscription : BasicWebsocketSubscription PairItem) : Prop :=
  subscription.channel = .ohlcv ↔ subscription.parameter.isSome = true

instance {PairItem : Type} (subscription : BasicWebsocketSubscription PairItem) :
    Decidable subscription.WellFormed :=
  inferInstanceAs (Decidable (_ ↔ _))

namespace BackTest

/-- `unsubscribe`: the entry of each pair is erased. -/
def unsubscribe (subscription : WebsocketSubscription)
    (subscriptions : List UniqueWebsocketSubscription) : List UniqueWebsocketSubscription :=
  subscription.pairItem.foldl
    (fun subscriptions pair => subscriptions.erase (subscription.entry pair)) subscriptions

/-- What happens in a back test: the notification of a tick, the calls that the strategy makes of
its account and of the stream, and the end of the round. -/
inductive Event where
  | notify (order : WalkOrder)
  | call (call : StrategyCall)
  | subscribe (subscription : WebsocketSubscription)
  | unsubscribe (subscription : WebsocketSubscription)
  | finish (raises : Option String)

/-- What an event does to the back test. -/
def step (w : BackTest) : Event → BackTest
  | .notify order => (notify (order.walk w.subscriptions) w).2
  | .call call => performCall w call
  | .subscribe subscription =>
    { w with subscriptions := subscribe subscription.canonical w.subscriptions }
  | .unsubscribe subscription =>
    { w with subscriptions := unsubscribe subscription.canonical w.subscriptions }
  | .finish raises =>
    let w :=
      match raises with
      | some _ => w
      | none => { w with logger := w.logger.flushTrades [w.api] }
    { w with data := w.data.increment }

/-! ## The set of subscriptions -/

variable {subscription : WebsocketSubscription} {subscriptions : List UniqueWebsocketSubscription}
  {entry : UniqueWebsocketSubscription}

/-- Subscribing adds the entries of the pairs. -/
theorem mem_subscribe : entry ∈ subscribe subscription subscriptions ↔
    entry ∈ subscriptions ∨ ∃ pair ∈ subscription.pairItem, entry = subscription.entry pair := by
  unfold subscribe
  induction subscription.pairItem generalizing subscriptions with
  | nil => simp
  | cons pair rest ih =>
    rw [List.foldl_cons, ih]
    simp only [List.exists_mem_cons_iff, ← or_assoc]
    exact or_congr_left mem_of_added

/-- Subscribing makes no second entry. -/
theorem nodup_subscribe (h : subscriptions.Nodup) :
    (subscribe subscription subscriptions).Nodup := by
  refine foldl_invariant (I := List.Nodup) ?_ subscription.pairItem h
  exact fun subscriptions pair h => nodup_of_added h _

/-- Unsubscribing removes entries only. -/
theorem unsubscribe_sublist (subscription : WebsocketSubscription)
    (subscriptions : List UniqueWebsocketSubscription) :
    (unsubscribe subscription subscriptions).Sublist subscriptions := by
  refine foldl_invariant (I := fun left : List UniqueWebsocketSubscription =>
    left.Sublist subscriptions) ?_ subscription.pairItem (List.Sublist.refl _)
  exact fun left pair h => (List.erase_sublist).trans h

/-- Unsubscribing removes the entries of the pairs. -/
theorem mem_unsubscribe (h : subscriptions.Nodup) :
    entry ∈ unsubscribe subscription subscriptions ↔
      entry ∈ subscriptions ∧ ∀ pair ∈ subscription.pairItem, entry ≠ subscription.entry pair := by
  unfold unsubscribe
  induction subscription.pairItem generalizing subscriptions with
  | nil => simp
  | cons pair rest ih =>
    rw [List.foldl_cons, ih (h.erase _), h.mem_erase_iff, List.forall_mem_cons]
    tauto

/-! ## Watched orders -/

/-- The pair of every open order is subscribed. -/
def Watched (w : BackTest) : Prop :=
  ∀ id request, w.api.openOrders.lookup id = some request →
    .createTradeSub request.pair ∈ w.subscriptions

/-- No open order triggers at the price that its pair has now. -/
def Settled (w : BackTest) : Prop :=
  ∀ id request, w.api.openOrders.lookup id = some request →
    w.api.trigger w.feed id request = none

/-- The strategy does not unsubscribe from the trades of a pair that has an open order. -/
def KeepsWatch (w : BackTest) : Event → Prop
  | .unsubscribe subscription => subscription.channel = .trade →
      ∀ id request, w.api.openOrders.lookup id = some request →
        request.pair ∉ subscription.pairItem
  | .notify _ | .call _ | .subscribe _ | .finish _ => True

/-- A notification that returns leaves no order open that triggers at its tick. -/
def TickSettles (w : BackTest) : Event → Prop
  | .notify order => (notify (order.walk w.subscriptions) w).1 = .ok () →
      (step w (.notify order)).Settled
  | .call _ | .subscribe _ | .unsubscribe _ | .finish _ => True

variable {w : BackTest}

/-- Every event keeps the state steady. -/
theorem Steady.next (h : w.Steady) (event : Event) : (BackTest.step w event).Steady := by
  cases event with
  | notify order => exact (h.notify order).1
  | call call => exact (h.performCall call).1
  | subscribe subscription =>
    refine ⟨h.cache, h.step, h.known, ?_, nodup_subscribe h.nodup⟩
    intro entry hmem htrade
    rcases mem_subscribe.mp hmem with hold | ⟨pair, -, rfl⟩
    · exact h.trades entry hold htrade
    · have hchannel : subscription.channel = .trade := htrade
      simp [BasicWebsocketSubscription.entry, BasicWebsocketSubscription.canonical, hchannel,
        BasicWebsocketSubscription.createTradeSub]
  | unsubscribe subscription =>
    have hsub := unsubscribe_sublist subscription.canonical w.subscriptions
    exact ⟨h.cache, h.step, h.known, fun entry hmem => h.trades entry (hsub.subset hmem),
      hsub.nodup h.nodup⟩
  | finish raises =>
    cases raises <;> exact ⟨h.cache.increment h.step, h.step, h.known, h.trades, h.nodup⟩

/-- An event that unsubscribes from no open order keeps every order watched. -/
theorem Watched.next (hwatched : w.Watched) (h : w.Steady) {event : Event}
    (hkeeps : w.KeepsWatch event) : (step w event).Watched := by
  obtain ⟨s, hapi, hwell⟩ := h.known
  cases event with
  | notify order =>
    obtain ⟨pairs, data, hpairs, -, hnotify, -, -⟩ := h.notify_eq order
    intro id request hopen
    rw [BackTest.step, hnotify] at hopen ⊢
    exact hwatched id request (handleUpdates_lookup_of_some hpairs hopen)
  | call call =>
    intro id request hopen
    have hperformed : (s.step (w.feed, call.toCall)).api.openOrders.lookup id = some request := by
      rw [← hopen, BackTest.step, performCall, ← hapi]
      cases call.toCall.request? <;> rfl
    have hcall : ∀ pair, call.toCall ≠ .tradeUpdate pair := by cases call <;> simp [StrategyCall.toCall]
    rcases hwell.lookup_of_step hcall hperformed with hadded | hold
    · exact mem_performCall.mpr (.inr ⟨request, hadded, rfl⟩)
    · exact mem_performCall.mpr (.inl (hwatched id request (hapi ▸ hold)))
  | subscribe subscription =>
    exact fun id request hopen => mem_subscribe.mpr (.inl (hwatched id request hopen))
  | unsubscribe subscription =>
    intro id request hopen
    refine (mem_unsubscribe h.nodup).mpr ⟨hwatched id request hopen, fun pair hpair heq => ?_⟩
    have hchannel : WebsocketChannel.trade = subscription.channel :=
      congrArg BasicWebsocketSubscription.channel heq
    have hsame : request.pair = pair := congrArg BasicWebsocketSubscription.pairItem heq
    exact hkeeps hchannel.symm id request hopen (hsame ▸ hpair)
  | finish raises => cases raises <;> exact hwatched

/-- Unsubscribing from the trades of an open order leaves it unwatched. -/
theorem not_watched_step (h : w.Steady) {event : Event} (hbreaks : ¬w.KeepsWatch event) :
    ¬(step w event).Watched := by
  cases event with
  | notify | call | subscribe | finish => exact absurd trivial hbreaks
  | unsubscribe subscription =>
    simp only [KeepsWatch, not_forall, not_not] at hbreaks
    obtain ⟨hchannel, id, request, hopen, hpair⟩ := hbreaks
    intro hwatched
    obtain ⟨-, hleft⟩ := (mem_unsubscribe h.nodup).mp (hwatched id request hopen)
    refine hleft request.pair hpair ?_
    simp [BasicWebsocketSubscription.entry, BasicWebsocketSubscription.canonical, hchannel,
      BasicWebsocketSubscription.createTradeSub]

/-- When every order is watched, a notification that returns settles them all. -/
theorem Watched.tickSettles (hwatched : w.Watched) (h : w.Steady) (event : Event) :
    w.TickSettles event := by
  cases event with
  | call | subscribe | unsubscribe | finish => trivial
  | notify order =>
    obtain ⟨pairs, data, hpairs, htrades, hnotify, hbounded, hround⟩ := h.notify_eq order
    obtain ⟨s, hapi, hwell⟩ := h.known
    intro hok id request hopen
    have hfeed : (step w (.notify order)).feed = w.feed := by
      rw [step, hnotify]
      exact feed_eq h.cache hbounded ⟨hround.dataTime, hround.stepSize, hround.series⟩ rfl
    rw [hfeed]
    rw [hnotify] at hok
    rw [step, hnotify, ← hapi] at hopen ⊢
    rw [← hapi] at hok
    have hwatch := hwatched id request (hapi ▸ handleUpdates_lookup_of_some hpairs hopen)
    have hpair : request.pair ∈ pairs := by
      have hentry : .createTradeSub request.pair ∈
          (order.walk w.subscriptions).filter (·.channel = .trade) :=
        List.mem_filter.mpr ⟨(order.perm _).mem_iff.mpr hwatch, by
          simp [BasicWebsocketSubscription.createTradeSub]⟩
      rw [htrades] at hentry
      obtain ⟨pair, hmem, heq⟩ := List.mem_map.mp hentry
      have hsame : pair = request.pair := congrArg BasicWebsocketSubscription.pairItem heq
      exact hsame ▸ hmem
    exact hwell.handleUpdates_settles hpairs hok hpair hopen

/-! ## Runs -/

/-- A new back test is steady, and it has no orders to watch. -/
theorem Steady.create (config : PaperTradingConfig) {data : BackTestingData}
    (hcache : data.iteratorCache = ∅) (hstep : 0 ≤ data.stepSize) :
    (create config data).Steady ∧ (BackTest.create config data).Watched :=
  ⟨(Sound.create config hcache hstep).steady, by simp [Watched, BackTest.create, PaperTradeApi.create]⟩

/-- The strategy leaves the trades of pairs with open orders alone exactly when every open order is
watched in every state of the run; and then every notification that returns leaves no order open
that triggers at the prices of its tick. -/
theorem run_tickSettles (config : PaperTradingConfig) (tradablePairs : List TradablePair)
    (data : UnorderedMap TradablePair (List OhlcvData)) (startTime endTime stepSize timeSteps : ℤ)
    (hstep : 0 ≤ stepSize) (dataSource : Option (TradablePair → ℤ → List OhlcvData))
    (events : List Event) :
    let start := create config (BackTestingData.create tradablePairs data startTime endTime stepSize
      timeSteps dataSource)
    (EveryStep step KeepsWatch start events ↔
        ∀ before, before <+: events → (before.foldl step start).Watched) ∧
      (EveryStep step KeepsWatch start events → EveryStep step TickSettles start events) := by
  intro start
  obtain ⟨hsteady, hwatched⟩ : start.Steady ∧ start.Watched := Steady.create config rfl hstep
  have hnext : ∀ (w : BackTest) event, w.Steady ∧ w.Watched → w.KeepsWatch event →
      (step w event).Steady ∧ (step w event).Watched :=
    fun w event h hkeeps => ⟨h.1.next event, h.2.next h.1 hkeeps⟩
  constructor
  · exact everyStep_iff_of_invariant hnext (fun _ h => h.2) (fun _ _ h => not_watched_step h.1)
      ⟨hsteady, hwatched⟩ events
  · intro hkeeps
    exact hkeeps.imp_of_invariant hnext (fun w event h _ => h.2.tickSettles h.1 event)
      ⟨hsteady, hwatched⟩

/-- A strategy that gives up the candles of a pair keeps the order of the pair watched, and the
order is filled when the price falls below its limit. -/
theorem run_tickSettles_candles :
    let pair : TradablePair := ⟨"BTC", "GBP"⟩
    let inOrder : WalkOrder := ⟨id, fun _ => List.Perm.refl _⟩
    let candles : List OhlcvData := [⟨60, 20, 20, 20, 20, 1⟩, ⟨120, 9, 9, 9, 9, 1⟩]
    let start := create ⟨0, [("GBP", 100)]⟩ (BackTestingData.create [pair]
      ((∅ : UnorderedMap _ _).insert pair candles) 60 120 60 2 none)
    let events : List Event := [.notify inOrder, .subscribe (.createOhlcvSub [pair] .m1),
      .call (.addOrder (createLimitOrder pair .buy 10 5)),
      .unsubscribe (.createOhlcvSub [pair] .m1), .finish none, .notify inOrder]
    EveryStep step TickSettles start events ∧ (events.foldl step start).api.closedIds = ["1"] := by
  intro pair inOrder candles start events
  refine ⟨(run_tickSettles ⟨0, [("GBP", 100)]⟩ [pair] _ 60 120 60 2 (by decide) none events).2 ?_,
    by decide +kernel⟩
  have hcandles : WebsocketChannel.ohlcv ≠ .trade := by decide
  exact ⟨trivial, trivial, trivial, fun htrade => absurd htrade hcandles, trivial, trivial, trivial⟩

/-- A strategy that watches some trades for itself, adds an order of their pair and then stops
watching, in the first of two rounds. -/
def stopsWatching (pair : TradablePair) (request : OrderRequest) : List Event :=
  let inOrder : WalkOrder := ⟨id, List.Perm.refl⟩
  [.notify inOrder, .subscribe (.createTradeSub [pair]), .call (.addOrder request),
    .unsubscribe (.createTradeSub [pair]), .finish none, .notify inOrder]

/-- The price falls below the limit of an order that is paid for, and the notification of that tick
leaves it open: the strategy's own subscription was the only one, and it has been removed. -/
theorem run_leaves_unwatched :
    let pair : TradablePair := ⟨"BTC", "GBP"⟩
    let request := createLimitOrder pair .buy 10 5
    let candles : List OhlcvData := [⟨60, 20, 20, 20, 20, 1⟩, ⟨120, 9, 9, 9, 9, 1⟩]
    let start := create ⟨0, [("GBP", 100)]⟩ (BackTestingData.create [pair]
      ((∅ : UnorderedMap _ _).insert pair candles) 60 120 60 2 none)
    let last := (stopsWatching pair request).foldl step start
    last.api.openOrders.lookup "1" = some request ∧
      last.api.trigger last.feed "1" request = some 10 ∧ last.api.covers request 10 = true ∧
      ¬EveryStep step TickSettles start (stopsWatching pair request) := by
  intro pair request candles start last
  have hopen : last.api.openOrders.lookup "1" = some request := by decide +kernel
  have htrigger : last.api.trigger last.feed "1" request = some 10 := by decide +kernel
  refine ⟨hopen, htrigger, by decide +kernel, ?_⟩
  intro hsettles
  have hreturns : (notify ((stopsWatching pair request).dropLast.foldl step start).subscriptions
      ((stopsWatching pair request).dropLast.foldl step start)).1 = .ok () := by decide +kernel
  have hlast := ((everyStep_append start (stopsWatching pair request).dropLast _).mp hsettles).2.1
    hreturns "1" request hopen
  rw [show last.api.trigger last.feed "1" request = none from hlast] at htrigger
  cases htrigger

end BackTest

end MarketBlocks
