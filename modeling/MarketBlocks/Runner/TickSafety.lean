import MarketBlocks.Runner.ErasedFeeds

/-!
# Notifying every subscriber

Between two ticks the set of subscriptions stays well formed whatever the strategy does. A tick then
delivers every message exactly when each of them can be read when the walk comes to it, and no handler
inserts anything into the set or takes out what the walk stands on or has yet to come to. Nothing in the
walk sees to it: the first ask is taken of an order book that may not have begun, and an order for a new
pair subscribes to its trades on the way.
-/

namespace MarketBlocks

open Library

namespace BackTest

variable {w : BackTest}

/-! ## The set between two ticks -/

/-- `subscribe` as the factory functions of the subscriptions are passed to it. -/
def watchTrades (pairs : List TradablePair) : HandlerCall :=
  .subscribe ⟨.createTradeSub pairs, by
    simp [BasicWebsocketSubscription.WellFormed, BasicWebsocketSubscription.canonical,
      BasicWebsocketSubscription.createTradeSub]⟩

/-- A handler subscribes to candles. -/
def watchCandles (pairs : List TradablePair) (interval : OhlcvInterval) : HandlerCall :=
  .subscribe ⟨.createOhlcvSub pairs interval, by
    simp [BasicWebsocketSubscription.WellFormed, BasicWebsocketSubscription.canonical,
      BasicWebsocketSubscription.createOhlcvSub]⟩

/-- A handler subscribes to order books. -/
def watchOrderBook (pairs : List TradablePair) : HandlerCall :=
  .subscribe ⟨.createOrderBookSub pairs, by
    simp [BasicWebsocketSubscription.WellFormed, BasicWebsocketSubscription.canonical,
      BasicWebsocketSubscription.createOrderBookSub]⟩

/-- The entries of a subscription are as well formed as it is. -/
theorem wellFormed_entry {subscription : WebsocketSubscription} (h : subscription.WellFormed)
    (pair : TradablePair) : (subscription.entry pair).WellFormed := h

/-- A new back test has nothing to walk over. -/
theorem Streaming.create (config : PaperTradingConfig) {data : BackTestingData}
    (hcache : data.iteratorCache = ∅) (hstep : 0 ≤ data.stepSize) :
    (create config data).Streaming where
  cache := BackTestingData.cacheBounded_of_empty hcache
  step := hstep
  nodup := List.nodup_nil
  wellFormed := fun _ h => absurd h List.not_mem_nil

/-- The calls of the stream and the account keep the set well formed. -/
theorem Streaming.step_call (h : w.Streaming) (call : HandlerCall) :
    (w.step call.toEvent).Streaming := by
  obtain ⟨hround, hbounded⟩ := sameRound_step h.cache call
  refine ⟨hbounded, hround.stepSize ▸ h.step, ?_, ?_⟩
  · cases call with
    | subscribe subscription => exact nodup_subscribe h.nodup
    | unsubscribe subscription => exact (unsubscribe_sublist _ _).nodup h.nodup
    | cancelOrder orderId => exact h.nodup
    | addOrder request =>
      change (w.subscribeForOrder request).Nodup
      rw [subscribeForOrder_eq]
      exact nodup_of_added h.nodup _
  · intro entry hentry
    cases call with
    | subscribe subscription =>
      rcases mem_subscribe.mp hentry with hold | ⟨pair, -, rfl⟩
      · exact h.wellFormed entry hold
      · exact wellFormed_entry subscription.property pair
    | unsubscribe subscription =>
      exact h.wellFormed entry ((unsubscribe_sublist _ _).subset hentry)
    | cancelOrder orderId => exact h.wellFormed entry hentry
    | addOrder request =>
      rcases mem_performCall.mp hentry with hold | ⟨_, -, rfl⟩
      · exact h.wellFormed entry hold
      · simp [BasicWebsocketSubscription.WellFormed, BasicWebsocketSubscription.createTradeSub]

/-- What the strategy has called before a tick. -/
def afterCalls (calls : List HandlerCall) (w : BackTest) : BackTest :=
  calls.foldl (fun w call => w.step call.toEvent) w

/-- Calls of the handlers keep the back test streaming. -/
theorem Streaming.afterCalls (h : w.Streaming) (calls : List HandlerCall) :
    (w.afterCalls calls).Streaming := by
  refine foldl_invariant (I := Streaming) ?_ calls h
  exact fun w call h => h.step_call call

/-! ## Every subscriber -/

/-- The tick returns, and each subscription whose channel has handlers has got its message. -/
def DeliversAll (handlers : UpdateHandlers) (order : WalkOrder) (w : BackTest) : Prop :=
  (w.notifyHandlers handlers order).1 = .ok () ∧
    ((w.notifyHandlers handlers order).2.delivered.map UpdateMessage.subscription).Perm
      (w.subscriptions.filter (Notification.Handled handlers))

/-- In the tick every handler returns normally from every message. -/
def HandlersReturn (handlers : UpdateHandlers) (order : WalkOrder) (w : BackTest) : Prop :=
  EveryStep (Notification.next handlers) (Notification.Returns handlers) { backTest := w }
    (order.walk w.subscriptions)

/-- The set is left alone throughout the walk, and each subscription whose channel has handlers has
got its message. -/
def WalksSafely (handlers : UpdateHandlers) (order : WalkOrder) (w : BackTest) : Prop :=
  (w.notifyHandlers handlers order).2.changed = false ∧
    ((w.notifyHandlers handlers order).2.delivered.map UpdateMessage.subscription).Perm
      (w.subscriptions.filter (Notification.Handled handlers))

variable {handlers : UpdateHandlers} {order : WalkOrder}

/-- What a notification begins with. -/
theorem Streaming.atTick (h : w.Streaming) : Notification.AtTick w { backTest := w } :=
  ⟨h.cache, rfl, rfl, rfl⟩

/-- At its beginning a notification has changed nothing. -/
theorem Streaming.unchanged (h : w.Streaming) : Notification.Unchanged w { backTest := w } :=
  ⟨h.atTick, rfl, rfl, rfl⟩

/-- When a tick returns and leaves the set as it is, and what it has done then. -/
theorem Streaming.notifyHandlers (h : w.Streaming) (handlers : UpdateHandlers) (order : WalkOrder) :
    ((w.notifyHandlers handlers order).1 = .ok () ∧
        (w.notifyHandlers handlers order).2.changed = false ↔
      (∀ subscription ∈ w.subscriptions, Notification.Harmless handlers w subscription) ∧
        HandlersReturn handlers order w) ∧
    ((w.notifyHandlers handlers order).1 = .ok () →
      (w.notifyHandlers handlers order).2.changed = false → WalksSafely handlers order w) := by
  have hperm := order.perm w.subscriptions
  obtain ⟨hiff, hreached⟩ :=
    @Notification.Unchanged.visitAll w { backTest := w } handlers h.unchanged h _ hperm.subset
  have hall : (∀ subscription ∈ order.walk w.subscriptions,
        Notification.Harmless handlers w subscription) ↔
      ∀ subscription ∈ w.subscriptions, Notification.Harmless handlers w subscription :=
    forall_congr' fun subscription => by rw [hperm.mem_iff]
  rw [hall] at hiff
  refine ⟨hiff, fun hok hsame => ⟨hsame, ?_⟩⟩
  have hdelivered := hreached hok hsame
  rw [BackTest.notifyHandlers, hdelivered]
  exact hperm.filter _

/-- A walk that is safe has come to its end. -/
theorem WalksSafely.returns (h : WalksSafely handlers order w) (hstream : w.Streaming) :
    (w.notifyHandlers handlers order).1 = .ok () := by
  obtain ⟨hsame, hdelivered⟩ := h
  by_contra hfails
  have hshort := hstream.unchanged.length_delivered_lt hstream (order.perm w.subscriptions).subset
    hfails hsame
  have hlength := hdelivered.length_eq
  have hwalk := ((order.perm w.subscriptions).filter (Notification.Handled handlers)).length_eq
  rw [List.length_map, BackTest.notifyHandlers] at hlength
  simp only [List.length_nil, zero_add] at hshort
  omega

/-- Handlers that return are all notified of a tick exactly when the walk comes to every entry that has
any, can read the message of each, and goes on from it. -/
theorem notify_deliversAll_iff (h : w.Streaming) (hreturns : HandlersReturn handlers order w) :
    DeliversAll handlers order w ↔
      Notification.Deliverable handlers w w.subscriptions (order.walk w.subscriptions) := by
  have hperm := (order.perm w.subscriptions).filter (Notification.Handled handlers)
  have hwell : ∀ entry ∈ order.walk w.subscriptions, entry.WellFormed := fun entry hentry =>
    h.wellFormed entry ((order.perm w.subscriptions).subset hentry)
  constructor
  · intro hdelivers
    have hlength := hdelivers.2.length_eq
    rw [List.length_map, ← hperm.length_eq, BackTest.notifyHandlers] at hlength
    refine (h.atTick.deliverable_of_visitAll rfl hwell hdelivers.1 ?_).1
    rw [hlength, List.length_nil, zero_add]
  · intro hdeliverable
    obtain ⟨hok, hdelivered⟩ := h.atTick.visitAll_of_deliverable rfl hwell hdeliverable hreturns
    refine ⟨hok, ?_⟩
    rw [BackTest.notifyHandlers, hdelivered]
    exact hperm

/-- The order in which the subscriptions were made. -/
def inOrder : WalkOrder := ⟨id, List.Perm.refl⟩

/-- Handlers of the strategy that look at every message and do nothing. -/
def watchfulHandlers : UpdateHandlers where
  tradeUpdateHandlers := [.strategy fun _ => { calls := [] }]
  ohlcvUpdateHandlers := [fun _ => { calls := [] }]
  orderBookUpdateHandlers := [fun _ => { calls := [] }]

/-- Handlers that look at every message, and leave the trades of a pair with its first order book. -/
def leavingHandlers (pair : TradablePair) : UpdateHandlers where
  tradeUpdateHandlers := [.strategy fun _ => { calls := [] }]
  ohlcvUpdateHandlers := [fun _ => { calls := [] }]
  orderBookUpdateHandlers := [fun _ => { calls := [.unsubscribe (.createTradeSub [pair])] }]

/-- All channels of a pair whose candles have begun. The trades are left when the walk has passed them. -/
theorem notify_deliversAll_begun :
    let pair : TradablePair := ⟨"BTC", "GBP"⟩
    let w := (create ⟨0, []⟩ (.create [pair]
      ((∅ : UnorderedMap _ _).insert pair [⟨60, 20, 21, 19, 20, 1⟩]) 60 120 60 2)).afterCalls
        [watchTrades [pair], watchCandles [pair] .m5, watchOrderBook [pair]]
    w.subscriptions.length = 3 ∧ DeliversAll (leavingHandlers pair) inOrder w ∧
      (w.notifyHandlers (leavingHandlers pair) inOrder).2.backTest.subscriptions.length = 2 := by
  intro pair w
  have hstream : w.Streaming := (Streaming.create ⟨0, []⟩ rfl (by decide)).afterCalls _
  have hreturns : HandlersReturn (leavingHandlers pair) inOrder w :=
    ⟨fun _ _ _ _ => rfl, fun _ _ _ _ => rfl, fun _ _ _ _ => rfl, trivial⟩
  refine ⟨by decide +kernel, (notify_deliversAll_iff hstream hreturns).mpr ?_, by decide +kernel⟩
  have hsubscriptions : w.subscriptions =
      [.createTradeSub pair, .createOhlcvSub pair .m5, .createOrderBookSub pair] := by decide +kernel
  have hfront : (w.data.series pair).head? = some ⟨60, 20, 21, 19, 20, 1⟩ := by decide +kernel
  have htime : w.data.dataTime = 60 := by decide +kernel
  change Notification.Deliverable (leavingHandlers pair) w w.subscriptions w.subscriptions
  rw [hsubscriptions]
  refine ⟨by decide +kernel, trivial, trivial, by decide +kernel, ?_⟩
  refine ⟨by decide +kernel, ?_, trivial, by decide +kernel, ?_⟩
  · simp [Notification.Ready, BasicWebsocketSubscription.createOhlcvSub]
  refine ⟨by decide +kernel, ⟨_, hfront, htime.ge⟩, ⟨?_, trivial⟩, by decide +kernel, trivial⟩
  exact List.erase_subset

/-- The order book of a pair without candles: there is no ask to take the first of. -/
theorem notify_empty_book :
    let pair : TradablePair := ⟨"BTC", "USD"⟩
    let w := (create ⟨0, []⟩ (.create [] ∅ 0 0 0 0)).afterCalls
      [watchTrades [pair], watchCandles [pair] .m5, watchOrderBook [pair]]
    w.Streaming ∧ HandlersReturn watchfulHandlers inOrder w ∧
      (w.notifyHandlers watchfulHandlers inOrder).1 = .error .undefined ∧
      ¬DeliversAll watchfulHandlers inOrder w := by
  intro pair w
  have hstream : w.Streaming := (Streaming.create ⟨0, []⟩ rfl (by decide)).afterCalls _
  have hreturns : HandlersReturn watchfulHandlers inOrder w :=
    ⟨fun _ _ _ _ => rfl, fun _ _ _ _ => rfl, fun _ _ _ _ => rfl, trivial⟩
  have hundefined : (w.notifyHandlers watchfulHandlers inOrder).1 = .error .undefined := by
    decide +kernel
  refine ⟨hstream, hreturns, hundefined, fun hdelivers => ?_⟩
  rw [hdelivers.1] at hundefined
  cases hundefined

/-- The walk over the set is safe exactly when no call of a handler changes the set that the walk
began with, every message can be read, and every handler returns. -/
theorem notify_walksSafely_iff (h : w.Streaming) (handlers : UpdateHandlers) (order : WalkOrder) :
    WalksSafely handlers order w ↔
      (∀ subscription ∈ w.subscriptions, Notification.Harmless handlers w subscription) ∧
        HandlersReturn handlers order w := by
  obtain ⟨hiff, hsafe⟩ := h.notifyHandlers handlers order
  rw [← hiff]
  exact ⟨fun hwalks => ⟨hwalks.returns h, hwalks.1⟩, fun hreached => hsafe hreached.1 hreached.2⟩

/-- A strategy that buys when it sees a trade. -/
def buyingHandlers (pair : TradablePair) : UpdateHandlers where
  tradeUpdateHandlers := [.strategy fun _ => { calls := [.addOrder (createLimitOrder pair .buy 10 5)] }]

/-- A strategy that buys the pair it watches does not change the set under the walk. -/
theorem notify_walksSafely_watched :
    let pair : TradablePair := ⟨"BTC", "GBP"⟩
    let w := (create ⟨0, [("GBP", 100)]⟩ (.create [pair]
      ((∅ : UnorderedMap _ _).insert pair [⟨60, 20, 21, 19, 20, 1⟩]) 60 120 60 2)).afterCalls
        [watchTrades [pair]]
    WalksSafely (buyingHandlers pair) inOrder w := by
  intro pair w
  have hstream : w.Streaming := (Streaming.create ⟨0, [("GBP", 100)]⟩ rfl (by decide)).afterCalls _
  have hsubscriptions : w.subscriptions = [.createTradeSub pair] := by decide +kernel
  refine (notify_walksSafely_iff hstream (buyingHandlers pair) inOrder).mpr
    ⟨?_, fun _ _ _ _ => rfl, trivial⟩
  intro subscription hmem _
  rw [hsubscriptions] at hmem
  rw [List.mem_singleton.mp hmem]
  refine ⟨trivial, ?_⟩
  rw [hsubscriptions]
  simp [Notification.KeptBy, UpdateHandlers.on, buyingHandlers, HandlerCall.Keeps, createLimitOrder,
    BasicWebsocketSubscription.createTradeSub]

/-- A strategy that buys another pair when it sees a trade of the one it watches: the order
subscribes to the trades of its pair, and the set grows under the walk. -/
theorem notify_inserts :
    let watched : TradablePair := ⟨"BTC", "GBP"⟩
    let bought : TradablePair := ⟨"ETH", "GBP"⟩
    let w := (create ⟨0, [("GBP", 100)]⟩ (.create [watched, bought]
      ((∅ : UnorderedMap _ _).insert watched [⟨60, 20, 21, 19, 20, 1⟩]) 60 120 60 2)).afterCalls
        [watchTrades [watched]]
    w.Streaming ∧ HandlersReturn (buyingHandlers bought) inOrder w ∧
      w.subscriptions = [.createTradeSub watched] ∧
      (w.notifyHandlers (buyingHandlers bought) inOrder).2.changed = true ∧
      (w.notifyHandlers (buyingHandlers bought) inOrder).2.backTest.subscriptions =
        [.createTradeSub watched, .createTradeSub bought] ∧
      ¬WalksSafely (buyingHandlers bought) inOrder w := by
  intro watched bought w
  have hstream : w.Streaming := (Streaming.create ⟨0, [("GBP", 100)]⟩ rfl (by decide)).afterCalls _
  have hchanged : (w.notifyHandlers (buyingHandlers bought) inOrder).2.changed = true := by
    decide +kernel
  refine ⟨hstream, ⟨fun _ _ _ _ => rfl, trivial⟩, by decide +kernel, hchanged, by decide +kernel, ?_⟩
  intro hsafe
  rw [hsafe.1] at hchanged
  cases hchanged

end BackTest

end MarketBlocks
