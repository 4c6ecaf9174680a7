import MarketBlocks.Websockets.StreamThreads

/-!
# Deadlock

The locks have an order: the handlers are fired with the pairs locked and take the mutex of the
account, and the mutexes of the caches are taken last and given back at once. One call breaks it.
`add_order` subscribes to a pair that nothing is cached for, and so asks for the pairs with the
mutex of the account in hand. Without such a subscription no run ends in a deadlock.
-/

namespace MarketBlocks

open Library

/-- The order in which the locks may be taken. -/
def StreamLock.rank : StreamLock → ℕ
  | .pairs => 0
  | .trading => 1
  | .trades | .ohlcv | .orderBooks => 2

/-- Whatever the threads do, the last trade of a pair stays cached. -/
structure SharedState.Grows (s s' : SharedState) : Prop where
  pairSeparator : s'.stream.pairSeparator = s.stream.pairSeparator
  trades : ∀ pairName ∈ s.stream.trades, pairName ∈ s'.stream.trades

/-- Growing goes on for any number of steps. -/
theorem SharedState.growth : Growth SharedState.Grows where
  refl _ := ⟨rfl, fun _ h => h⟩
  trans _ _ _ h h' :=
    ⟨h'.pairSeparator.trans h.pairSeparator, fun name hname => h'.trades name (h.trades name hname)⟩

namespace StreamThread

open Program (Keeps keeps_pure keeps_access keeps_bind keeps_withLock ordered_ofCall withLock)

variable {α : Type}

/-- A call that takes its locks in order and lets the data only grow. -/
abbrev InOrder (rank : StreamLock → ℕ) (call : ThreadCall α) (s : SharedState)
    (held : List (StreamLock × LockMode)) : Prop :=
  Keeps rank SharedState.Grows call s held fun _ _ => True

variable {rank : StreamLock → ℕ} {s : SharedState} {held : List (StreamLock × LockMode)}

/-- Two calls in order, one after the other. -/
theorem inOrder_bind {β : Type} {call : ThreadCall α} {next : α → ThreadCall β}
    (h : InOrder rank call s held)
    (hnext : ∀ s' result, s.Grows s' → InOrder rank (next result) s' held) :
    InOrder rank (call >>= next) s held :=
  keeps_bind SharedState.growth h (fun s' result hgrows _ => hnext s' result hgrows)
    fun _ _ _ => trivial

/-- Reading takes no lock. -/
theorem inOrder_reads (f : SharedState → Except Fault α) : InOrder rank (reads f) s held :=
  keeps_access (fun s' _ => SharedState.growth.refl s') fun _ _ => trivial

/-- The account has no say in what is cached. -/
theorem inOrder_onAccount (f : PaperTradeApi → Except Fault α × PaperTradeApi) :
    InOrder rank (onAccount f) s held :=
  keeps_access (fun _ _ => ⟨rfl, fun _ h => h⟩) fun _ _ => trivial

/-- A function of the stream that keeps the trades. -/
theorem inOrder_onStream {f : ExchangeWebsocketStream → Except Fault α × ExchangeWebsocketStream}
    (hseparator : ∀ stream, (f stream).2.pairSeparator = stream.pairSeparator)
    (htrades : ∀ stream, ∀ pairName ∈ stream.trades, pairName ∈ (f stream).2.trades) :
    InOrder rank (onStream f) s held :=
  keeps_access (fun s' _ => ⟨hseparator s'.stream, htrades s'.stream⟩) fun _ _ => trivial

/-! ## The calls in order -/

/-- The mutex of a cache may be taken with all others in hand, when it is none of the caches'. -/
theorem inOrder_getLastTrade (pair : TradablePair)
    (hbelow : ∀ hold ∈ held, rank hold.1 < rank .trades) :
    InOrder rank (getLastTrade pair) s held :=
  keeps_withLock hbelow (inOrder_reads _)

/-- Evaluating an order takes the mutex of the trades alone. -/
theorem inOrder_tryFillOrder (orderId : String) (time : ℤ)
    (hbelow : ∀ hold ∈ held, rank hold.1 < rank .trades) :
    InOrder rank (tryFillOrder orderId time) s held :=
  inOrder_bind (inOrder_reads _) fun _ request _ =>
    inOrder_bind (inOrder_getLastTrade request.pair hbelow) fun _ _ _ => inOrder_onAccount _

/-- Every iteration evaluates at most one order. -/
theorem inOrder_tradeUpdateLoop (pair : TradablePair) (time : ℤ) (remaining index : ℕ)
    (hbelow : ∀ hold ∈ held, rank hold.1 < rank .trades) :
    InOrder rank (tradeUpdateLoop pair time remaining index) s held := by
  induction remaining generalizing index s with
  | zero => exact keeps_pure trivial
  | succ remaining ih =>
    refine inOrder_bind (inOrder_reads _) fun s' id _ => ?_
    refine inOrder_bind (inOrder_reads _) fun s' isOpen _ => ?_
    refine inOrder_bind ?_ fun s' settled _ => ?_
    · cases isOpen with
      | true => exact inOrder_tryFillOrder id time hbelow
      | false => exact keeps_pure trivial
    · cases settled with
      | true => exact inOrder_bind (inOrder_onAccount _) fun _ _ _ => ih index
      | false => exact ih (index + 1)

/-- The handler of the account runs with the pairs locked. -/
theorem inOrder_tradeUpdateHandler (pair : TradablePair) (time : ℤ)
    (hbelow : ∀ hold ∈ held, hold.1.rank < StreamLock.trading.rank) :
    InOrder StreamLock.rank (tradeUpdateHandler pair time) s held := by
  refine keeps_withLock hbelow (inOrder_bind (inOrder_onAccount _) fun _ orderCount _ => ?_)
  refine inOrder_tradeUpdateLoop pair time orderCount 0 fun hold hhold => ?_
  rcases List.mem_cons.mp hhold with rfl | hhold
  · decide
  · exact (hbelow hold hhold).trans (by decide)

/-- The handlers run with the pairs locked. -/
theorem inOrder_fire (channel : WebsocketChannel) (pairName : String)
    (message : TradablePair → UpdateMessage) {accountHandler : TradablePair → ThreadCall Unit}
    (hhandler : ∀ s' pair, InOrder StreamLock.rank (accountHandler pair) s' [(.pairs, .shared)]) :
    InOrder StreamLock.rank (fire channel pairName message accountHandler) s [] := by
  refine inOrder_bind (inOrder_reads _) fun s' handled _ => ?_
  cases handled with
  | false => exact keeps_pure trivial
  | true =>
    refine keeps_withLock (by simp) (inOrder_bind (inOrder_reads _) fun s' pair _ => ?_)
    exact inOrder_bind (inOrder_onStream (fun _ => rfl) fun _ _ h => h) fun s' _ _ =>
      hhandler s' pair

/-- Delivering a trade caches it first, and then fires. -/
theorem inOrder_updateTrade (pairName : String) (trade : TradeUpdate) (time : ℤ) :
    InOrder StreamLock.rank (updateTrade pairName trade time) s [] := by
  refine inOrder_bind (keeps_withLock (by simp) (inOrder_onStream (fun _ => rfl) ?_)) fun _ _ _ => ?_
  · intro stream name hname
    exact Finmap.mem_insert.mpr (.inr hname)
  · exact inOrder_fire .trade pairName _ fun s' pair =>
      inOrder_tradeUpdateHandler pair time (by decide)

/-- Candles and books are delivered under locks of their own. -/
theorem inOrder_deliver {lock : StreamLock} {channel : WebsocketChannel} {pairName : String}
    {message : TradablePair → UpdateMessage}
    {f : ExchangeWebsocketStream → Except Fault Unit × ExchangeWebsocketStream}
    (hseparator : ∀ stream, (f stream).2.pairSeparator = stream.pairSeparator)
    (htrades : ∀ stream, (f stream).2.trades = stream.trades) :
    InOrder StreamLock.rank (withLock lock .exclusive (onStream f) >>= fun _ =>
      fire channel pairName message fun _ => pure ()) s [] := by
  refine inOrder_bind (keeps_withLock (by simp) (inOrder_onStream hseparator ?_)) fun _ _ _ => ?_
  · intro stream name hname
    rw [htrades stream]
    exact hname
  · exact inOrder_fire channel pairName message fun _ _ => keeps_pure trivial

/-- A subscription takes the pairs. -/
theorem inOrder_subscribe (subscription : WebsocketSubscription) (sent : Except Fault Unit)
    (hbelow : ∀ hold ∈ held, rank hold.1 < rank .pairs) :
    InOrder rank (subscribe subscription sent) s held :=
  inOrder_bind (keeps_withLock hbelow (inOrder_onStream (fun _ => rfl) fun _ _ h => h))
    fun _ _ _ => inOrder_reads _

/-- While a trade of its pair is cached, a pair is found subscribed. -/
theorem keeps_getSubscriptionStatus {pair : TradablePair}
    (hcached : pair.toStringWith s.stream.pairSeparator ∈ s.stream.trades)
    (hbelow : ∀ hold ∈ held, hold.1.rank < StreamLock.trades.rank) :
    Keeps StreamLock.rank SharedState.Grows (getSubscriptionStatus (.createTradeSub pair)) s held
      fun _ result => result = .ok .subscribed := by
  refine keeps_withLock hbelow (keeps_access (fun s' _ => SharedState.growth.refl s') ?_)
  intro s' hgrows
  have hstill := hgrows.trades _ hcached
  rw [← hgrows.pairSeparator] at hstill
  simp [ExchangeWebsocketStream.getSubscriptionStatus, BasicWebsocketSubscription.createTradeSub,
    hstill, pure, Except.pure, bind, Except.bind]

/-- Adding an order of a pair with a cached trade subscribes to nothing. -/
theorem inOrder_addOrder {request : OrderRequest}
    (hcached : request.pair.toStringWith s.stream.pairSeparator ∈ s.stream.trades)
    (sent : Except Fault Unit) (time : ℤ) :
    InOrder StreamLock.rank (addOrder request sent time) s [] := by
  have hbelow : ∀ hold ∈ [(StreamLock.trading, LockMode.exclusive)],
      hold.1.rank < StreamLock.trades.rank := by decide
  refine keeps_withLock (by simp) (inOrder_bind (inOrder_onAccount _) fun s' orderId hgrows => ?_)
  have hstill := hgrows.trades _ hcached
  rw [← hgrows.pairSeparator] at hstill
  refine keeps_bind SharedState.growth (keeps_getSubscriptionStatus hstill hbelow)
    (fun s' status _ hstatus => ?_) fun _ _ _ => trivial
  cases hstatus
  refine inOrder_bind (keeps_pure trivial) fun _ _ _ => ?_
  exact inOrder_bind (inOrder_tryFillOrder orderId time hbelow) fun _ _ _ => keeps_pure trivial

/-- The order that a call adds. -/
def Call.added : Call → Option OrderRequest
  | .addOrder request _ _ | .addOrderConfirm request _ _ => some request
  | _ => none

/-- Whether a trade is cached for the pair of the order that a call adds, so that the call does not
subscribe. -/
def Call.Cached (s : SharedState) (call : Call) : Prop :=
  ∀ request ∈ call.added,
    request.pair.toStringWith s.stream.pairSeparator ∈ s.stream.trades

/-- Every call with a cached trade keeps to the order of the locks. -/
theorem Call.ordered {call : Call} (hcached : call.Cached s) :
    call.program.Ordered StreamLock.rank SharedState.Grows s [] fun _ held _ => held = [] := by
  cases call with
  | updateTrade pairName trade time => exact ordered_ofCall (inOrder_updateTrade pairName trade time)
  | updateOhlcv => exact ordered_ofCall (inOrder_deliver (fun _ => rfl) fun _ => rfl)
  | initialiseOrderBook => exact ordered_ofCall (inOrder_deliver (fun _ => rfl) fun _ => rfl)
  | updateOrderBook => exact ordered_ofCall (inOrder_deliver (fun _ => rfl) fun _ => rfl)
  | subscribe subscription sent => exact ordered_ofCall (inOrder_subscribe subscription sent (by simp))
  | getSubscriptionStatus | getOrderBook | getLastTrade | getLastCandle | getBalances | getOpenOrders |
    getClosedOrders | getOrderStatus =>
    exact ordered_ofCall (keeps_withLock (by simp) (inOrder_reads _))
  | cancelOrder orderId => exact ordered_ofCall (keeps_withLock (by simp) (inOrder_onAccount _))
  | addOrder request sent time => exact ordered_ofCall (inOrder_addOrder (hcached request rfl) sent time)
  | addOrderConfirm request sent time =>
    exact ordered_ofCall (inOrder_bind (inOrder_addOrder (hcached request rfl) sent time) fun _ _ _ =>
      inOrder_bind (inOrder_getLastTrade request.pair (by simp)) fun _ _ _ => keeps_pure trivial)

/-- Whether an event begins no call that would subscribe while it holds the mutex of the account. -/
def OrdersCached {ι : Type} (s : Machine ι StreamLock SharedState) : Machine.Event ι Call → Prop
  | .call _ call => call.Cached s.data
  | .advance _ => True

instance {ι : Type} (s : Machine ι StreamLock SharedState) :
    (event : Machine.Event ι Call) → Decidable (OrdersCached s event)
  | .call _ call => inferInstanceAs (Decidable (∀ request ∈ call.added,
      request.pair.toStringWith s.data.stream.pairSeparator ∈ s.data.stream.trades))
  | .advance _ => .isTrue trivial

/-- In every run of any number of threads whose orders are added with a trade of their pair cached,
no state has threads that all wait for one another. -/
theorem run_not_deadlocked {ι : Type} [Fintype ι] [DecidableEq ι] (start : SharedState)
    (events : List (Machine.Event ι Call))
    (hrun : EveryStep (Machine.step Call.program) OrdersCached (Machine.start start) events) :
    ¬(events.foldl (Machine.step Call.program) (Machine.start start)).Deadlocked := by
  have hordered : EveryStep (Machine.step Call.program) (fun s event => ∀ i call,
      event = .call i call → call.program.Ordered StreamLock.rank SharedState.Grows s.data []
        fun _ held _ => held = []) (Machine.start start) events := by
    refine hrun.imp fun s event hcached i call hevent => ?_
    rw [hevent] at hcached
    exact Call.ordered hcached
  exact Machine.foldl_not_deadlocked SharedState.growth hordered

/-- A trade is delivered while an order of its pair is added, after an earlier trade. -/
theorem run_not_deadlocked_second_trade :
    let pair : TradablePair := ⟨"BTC", "GBP"⟩
    let start : SharedState :=
      { stream := (ExchangeWebsocketStream.create '/').addUpdateHandler .trade
        account := .create ⟨0, [("GBP", 100)]⟩ }
    let trade : Call := .updateTrade (pair.toStringWith '/') ⟨60, 20, 1⟩ 60
    let events : List (Machine.Event Bool Call) :=
      [Machine.Event.call false (Call.subscribe (.createTradeSub [pair]) (.ok ()))] ++
        List.replicate 4 (Machine.Event.advance false) ++ [Machine.Event.call false trade] ++
        List.replicate 14 (Machine.Event.advance false) ++
        [Machine.Event.call true (Call.addOrder (createLimitOrder pair .buy 10 5) (.ok ()) 60)] ++
        List.replicate 5 (Machine.Event.advance true) ++ [Machine.Event.call false trade] ++
        List.replicate 7 (Machine.Event.advance false)
    ¬(events.foldl (Machine.step Call.program) (Machine.start start)).Deadlocked := by
  intro pair start trade events
  exact run_not_deadlocked start events (by decide +kernel)

/-- A strategy that has subscribed to a pair adds an order before the first trade, which another
thread delivers meanwhile. -/
def firstTradeMeetsOrder (pair : TradablePair) (request : OrderRequest) :
    List (Machine.Event Bool Call) :=
  [Machine.Event.call false (Call.subscribe (.createTradeSub [pair]) (.ok ()))] ++
    List.replicate 4 (Machine.Event.advance false) ++
    [Machine.Event.call true (Call.addOrder request (.ok ()) 60)] ++
    List.replicate 5 (Machine.Event.advance true) ++
    [Machine.Event.call false (Call.updateTrade (pair.toStringWith '/') ⟨60, 20, 1⟩ 60)] ++
    List.replicate 7 (Machine.Event.advance false)

/-- The thread with the order holds the mutex of the account and waits for the pairs, which the one
with the trade holds while it waits for the mutex. -/
theorem run_deadlocked :
    let pair : TradablePair := ⟨"BTC", "GBP"⟩
    let start : SharedState :=
      { stream := (ExchangeWebsocketStream.create '/').addUpdateHandler .trade
        account := .create ⟨0, [("GBP", 100)]⟩ }
    ((firstTradeMeetsOrder pair (createLimitOrder pair .buy 10 5)).foldl
      (Machine.step Call.program) (Machine.start start)).Deadlocked := by
  intro pair start
  refine ⟨Set.univ, ⟨true, trivial⟩, fun i _ => ?_⟩
  cases i with
  | true =>
    exact ⟨false, trivial, .pairs, .exclusive, by decide +kernel, .shared, by decide +kernel,
      by decide⟩
  | false =>
    exact ⟨true, trivial, .trading, .exclusive, by decide +kernel, .exclusive, by decide +kernel,
      by decide⟩

end StreamThread

end MarketBlocks
