import MarketBlocks.Websockets.Deadlock

/-!
# Calls one after the other

A call that no other thread comes between does what the functions of the stream and of the account do
one after the other: the caches are updated, then the handlers fired, and the handler of the account
finds the trade that has come in. On its own every call ends, the one that adds an order and
subscribes included, although it takes the locks in an order of its own.
-/

namespace MarketBlocks

open Library

namespace SharedState

variable {α : Type}

/-- The state after a function of the account. -/
def inAccount (s : SharedState) (result : Except Fault α × PaperTradeApi) :
    Except Fault α × SharedState :=
  (result.1, { s with account := result.2 })

/-- The state after a function of the stream. -/
def inStream (s : SharedState) (result : Except Fault α × ExchangeWebsocketStream) :
    Except Fault α × SharedState :=
  (result.1, { s with stream := result.2 })

/-- `update_trade`, whose handlers include the account's when there are any. -/
def deliverTrade (pairName : String) (trade : TradeUpdate) (time : ℤ) (s : SharedState) :
    Except Fault Unit × SharedState :=
  match s.stream.updateTrade pairName trade, s.stream.pairs.lookup pairName with
  | (.ok (), stream), some pair =>
    if .trade ∈ s.stream.handled then
      inAccount { s with stream } (s.account.tradeUpdateHandler (stream.feed time) pair)
    else (.ok (), { s with stream })
  | (result, stream), _ => (result, { s with stream })

/-- `add_order`. When the subscription cannot be sent, the order stays behind unevaluated. -/
def placeOrder (request : OrderRequest) (sent : Except Fault Unit) (time : ℤ) (s : SharedState) :
    Except Fault String × SharedState :=
  let stream := match PaperTradeApi.subscriptionFor (s.stream.feed time) request with
    | some subscription => s.stream.registerPairs subscription.pairItem
    | none => s.stream
  match PaperTradeApi.subscriptionFor (s.stream.feed time) request, sent with
  | some _, .error fault => (.error fault, { s with stream, account := s.account.register request })
  | _, _ => inAccount { s with stream } (s.account.addOrder (s.stream.feed time) request)

end SharedState

namespace StreamThread

open SharedState (inAccount inStream deliverTrade placeOrder)

variable {α : Type}

/-! ## What a call does on its own -/

section Alone

open Program (alone alone_access alone_bind alone_pure alone_withLock)

variable (s : SharedState)

/-- Reading changes nothing. -/
@[simp] theorem alone_reads (f : SharedState → Except Fault α) : alone (reads f) s = (f s, s) := rfl

/-- A function of the stream does, alone, what it does to the stream. -/
@[simp] theorem alone_onStream
    (f : ExchangeWebsocketStream → Except Fault α × ExchangeWebsocketStream) :
    alone (onStream f) s = inStream s (f s.stream) := rfl

/-- A function of the account does, alone, what it does to the account. -/
@[simp] theorem alone_onAccount (f : PaperTradeApi → Except Fault α × PaperTradeApi) :
    alone (onAccount f) s = inAccount s (f s.account) := rfl

/-- The last trade is read. -/
@[simp] theorem alone_getLastTrade (pair : TradablePair) :
    alone (getLastTrade pair) s = (.ok (s.stream.getLastTrade pair), s) := rfl

/-- The last trade of the stream is the one that the order is evaluated with. -/
theorem alone_tryFillOrder (orderId : String) (time : ℤ) :
    alone (tryFillOrder orderId time) s =
      inAccount s (s.account.tryFillOrder (s.stream.feed time) orderId) := by
  unfold tryFillOrder
  cases hlookup : s.account.openOrders.lookup orderId with
  | none => simp [alone_bind, hlookup, PaperTradeApi.tryFillOrder, inAccount]
  | some request =>
    simp only [alone_bind, alone_reads, hlookup, alone_getLastTrade, alone_onAccount,
      PaperTradeApi.tryFillOrder]
    rfl

/-- The loop evaluates the orders of the pair in their order. -/
theorem alone_tradeUpdateLoop (pair : TradablePair) (time : ℤ) (remaining index : ℕ)
    (evaluated : List String) :
    alone (tradeUpdateLoop pair time remaining index) s =
      inAccount s
        ((PaperTradeApi.tradeUpdateLoop (s.stream.feed time) pair remaining index evaluated
            s.account).1,
          (PaperTradeApi.tradeUpdateLoop (s.stream.feed time) pair remaining index evaluated
            s.account).2.2) := by
  induction remaining generalizing index evaluated s with
  | zero => rfl
  | succ remaining ih =>
    unfold tradeUpdateLoop PaperTradeApi.tradeUpdateLoop
    cases hid : (s.account.orderIds pair)[index]? with
    | none => simp [alone_bind, hid, inAccount]
    | some id =>
      simp only [alone_bind, alone_reads, hid]
      by_cases hopen : id ∈ s.account.openOrders
      · simp only [hopen, decide_true, isSettled, if_true, alone_tryFillOrder, not_true, if_false]
        rcases hfill : s.account.tryFillOrder (s.stream.feed time) id with ⟨fault | filled, account⟩
        · rfl
        · cases filled with
          | true => exact ih { s with account := _ } index (evaluated ++ [id])
          | false => exact ih { s with account := _ } (index + 1) (evaluated ++ [id])
      · simp only [hopen, decide_false, isSettled, Bool.false_eq_true, if_false, alone_pure,
          not_false_eq_true, if_true, alone_bind, alone_onAccount, inAccount]
        exact ih { s with account := _ } index evaluated

/-- The handler of the account does what `trade_update_handler` does. -/
theorem alone_tradeUpdateHandler (pair : TradablePair) (time : ℤ) :
    alone (tradeUpdateHandler pair time) s =
      inAccount s (s.account.tradeUpdateHandler (s.stream.feed time) pair) := by
  simp only [tradeUpdateHandler, alone_withLock, alone_bind, alone_onAccount, inAccount]
  exact alone_tradeUpdateLoop _ pair time _ 0 []

/-- A trade is cached before the account evaluates its orders. -/
theorem alone_updateTrade (pairName : String) (trade : TradeUpdate) (time : ℤ) :
    alone (updateTrade pairName trade time) s = s.deliverTrade pairName trade time := by
  unfold updateTrade fire deliverTrade ExchangeWebsocketStream.updateTrade
    ExchangeWebsocketStream.fire
  simp only [alone_bind, alone_withLock, alone_onStream, alone_reads, inStream]
  by_cases hhandled : WebsocketChannel.trade ∈ s.stream.handled
  · cases hlookup : s.stream.pairs.lookup pairName with
    | none =>
      simp only [hhandled, decide_true, if_true, alone_withLock, alone_bind, alone_reads, hlookup]
    | some pair =>
      simp only [hhandled, decide_true, if_true, alone_withLock, alone_bind, alone_reads, hlookup,
        alone_onStream]
      exact alone_tradeUpdateHandler _ pair time
  · simp only [hhandled, decide_false, Bool.false_eq_true, if_false, alone_pure]
    cases s.stream.pairs.lookup pairName <;> rfl

/-- A cache that is written under a lock, before the handlers of its channel are fired. -/
theorem alone_deliver (lock : StreamLock) (channel : WebsocketChannel) (pairName : String)
    (message : TradablePair → UpdateMessage)
    (f : ExchangeWebsocketStream → ExchangeWebsocketStream) :
    alone (Program.withLock lock .exclusive (onStream fun stream => (.ok (), f stream)) >>= fun _ =>
        fire channel pairName message fun _ => pure ()) s =
      inStream s ((f s.stream).fire channel pairName message) := by
  unfold fire ExchangeWebsocketStream.fire
  simp only [alone_bind, alone_withLock, alone_onStream, alone_reads, inStream]
  by_cases hhandled : channel ∈ (f s.stream).handled
  · cases hlookup : (f s.stream).pairs.lookup pairName <;>
      simp [hhandled, alone_bind, hlookup, inStream]
  · simp [hhandled]

/-- An order is registered, subscribed to, and evaluated. -/
theorem alone_addOrder (request : OrderRequest) (sent : Except Fault Unit) (time : ℤ) :
    alone (addOrder request sent time) s = s.placeOrder request sent time := by
  have hstatus : s.stream.getSubscriptionStatus (.createTradeSub request.pair) =
      .ok ((s.stream.feed time).tradeStatus request.pair) := by
    unfold ExchangeWebsocketStream.feed
    simp only
    rw [ExchangeWebsocketStream.getSubscriptionStatus_eq (.createTradeSub request.pair)]
  unfold addOrder getSubscriptionStatus placeOrder PaperTradeApi.subscriptionFor
    PaperTradeApi.addOrder
  simp only [alone_bind, alone_withLock, alone_onAccount, alone_reads, inAccount, hstatus]
  cases hsubscribed : (s.stream.feed time).tradeStatus request.pair with
  | subscribed =>
    simp only [subscribeUnless, reduceCtorEq, if_false, alone_pure, alone_tryFillOrder, inAccount]
    rcases PaperTradeApi.tryFillOrder (s.stream.feed time) s.account.nextOrderId
      (s.account.register request) with ⟨fault | filled, account⟩ <;> rfl
  | unsubscribed =>
    simp only [subscribeUnless, subscribe, if_true, alone_bind, alone_withLock, alone_onStream,
      alone_reads, inStream]
    cases sent with
    | error fault => rfl
    | ok =>
      -- registering a pair changes nothing that the account reads
      have hfeed : (s.stream.registerPairs [request.pair]).feed time = s.stream.feed time := rfl
      simp only [alone_tryFillOrder, inAccount, BasicWebsocketSubscription.createTradeSub, hfeed]
      rcases PaperTradeApi.tryFillOrder (s.stream.feed time) s.account.nextOrderId
        (s.account.register request) with ⟨fault | filled, account⟩ <;> rfl

end Alone

/-- What a call leaves, whatever it returns or throws. -/
def Call.sequential (s : SharedState) : Call → SharedState
  | .updateTrade pairName trade time => (s.deliverTrade pairName trade time).2
  | .updateOhlcv pairName interval ohlcvData =>
    (inStream s (s.stream.updateOhlcv pairName interval ohlcvData)).2
  | .initialiseOrderBook pairName cache =>
    (inStream s (s.stream.initialiseOrderBook pairName cache)).2
  | .updateOrderBook pairName timeStamp entry =>
    (inStream s (s.stream.updateOrderBook pairName timeStamp entry)).2
  | .subscribe subscription _ =>
    { s with stream := s.stream.registerPairs subscription.pairItem }
  | .addOrder request sent time | .addOrderConfirm request sent time =>
    (s.placeOrder request sent time).2
  | .cancelOrder orderId => (inAccount s (s.account.cancelOrder orderId)).2
  | .getSubscriptionStatus _ | .getOrderBook .. | .getLastTrade _ | .getLastCandle .. | .getBalances
  | .getOpenOrders | .getClosedOrders | .getOrderStatus _ => s

/-- Run by itself, a call leaves what the functions leave. -/
theorem Call.eval_program (s : SharedState) (call : Call) :
    (call.program.eval s).2 = call.sequential s := by
  cases call with
  | updateTrade pairName trade time =>
    rw [Call.program, Program.eval_ofCall, alone_updateTrade, Call.sequential]
  | updateOhlcv | initialiseOrderBook =>
    rw [Call.program, Program.eval_ofCall]
    exact congrArg Prod.snd (alone_deliver s _ _ _ _ _)
  | updateOrderBook pairName timeStamp entry =>
    rw [Call.program, Program.eval_ofCall, Call.sequential,
      ExchangeWebsocketStream.updateOrderBook_eq]
    exact congrArg Prod.snd (alone_deliver s _ _ _ _ _)
  | addOrder request sent time =>
    rw [Call.program, Program.eval_ofCall, alone_addOrder, Call.sequential]
  | addOrderConfirm request sent time =>
    -- the last trade is read behind the order, and changes nothing
    rw [Call.program, Program.eval_ofCall, StreamThread.addOrderConfirm, Program.alone_bind,
      alone_addOrder, Call.sequential]
    rcases s.placeOrder request sent time with ⟨fault | orderId, s'⟩ <;> rfl
  | subscribe | cancelOrder | getSubscriptionStatus | getOrderBook | getLastTrade | getLastCandle
  | getBalances | getOpenOrders | getClosedOrders | getOrderStatus => rfl

/-! ## Calls on an idle machine -/

/-- The order in which a call takes the locks that adds an order and subscribes to its pair. -/
def orderRank : StreamLock → ℕ
  | .trading => 0
  | .pairs => 1
  | .trades | .ohlcv | .orderBooks => 2

/-- Adding an order keeps to that order whether it subscribes or not. -/
private theorem inOrder_addOrder_orderRank {s : SharedState} (request : OrderRequest)
    (sent : Except Fault Unit) (time : ℤ) :
    InOrder orderRank (addOrder request sent time) s [] := by
  have hbelow : ∀ hold ∈ [(StreamLock.trading, LockMode.exclusive)],
      orderRank hold.1 < orderRank .trades := by decide
  refine Program.keeps_withLock (by simp) (inOrder_bind (inOrder_onAccount _) fun s' orderId _ => ?_)
  refine inOrder_bind (Program.keeps_withLock hbelow (inOrder_reads _)) fun s' status _ => ?_
  refine inOrder_bind ?_ fun s' _ _ => ?_
  · unfold subscribeUnless
    split
    · exact inOrder_subscribe _ sent (by decide)
    · exact Program.keeps_pure trivial
  · exact inOrder_bind (inOrder_tryFillOrder orderId time hbelow) fun _ _ _ =>
      Program.keeps_pure trivial

/-- Every call keeps to some order of the locks. -/
theorem Call.exists_ordered (s : SharedState) (call : Call) :
    ∃ rank, call.program.Ordered rank SharedState.Grows s [] fun _ held _ => held = [] := by
  cases call with
  | addOrder request sent time =>
    exact ⟨orderRank, Program.ordered_ofCall (inOrder_addOrder_orderRank request sent time)⟩
  | addOrderConfirm request sent time =>
    refine ⟨orderRank, Program.ordered_ofCall ?_⟩
    refine inOrder_bind (inOrder_addOrder_orderRank request sent time) fun _ _ _ => ?_
    exact inOrder_bind (inOrder_getLastTrade request.pair (by simp)) fun _ _ _ =>
      Program.keeps_pure trivial
  | _ => exact ⟨StreamLock.rank, Call.ordered (by rintro request ⟨⟩)⟩

/-- Calls that threads make one after the other, each when the one before has ended, all end and
leave what the functions of the stream and the account leave. -/
theorem exists_run_eq_sequential {ι : Type} [Fintype ι] [DecidableEq ι]
    {s : Machine ι StreamLock SharedState} (hidle : s.Idle) (calls : List (ι × Call)) :
    ∃ events : List (Machine.Event ι Call), events.foldl (Machine.step Call.program) s =
      { s with data := calls.foldl (fun data row => row.2.sequential data) s.data } := by
  induction calls generalizing s with
  | nil => exact ⟨[], rfl⟩
  | cons row rest ih =>
    obtain ⟨i, call⟩ := row
    obtain ⟨rank, hordered⟩ := call.exists_ordered s.data
    obtain ⟨steps, hsteps⟩ :=
      Machine.exists_call_eq_eval SharedState.growth Call.program hidle i hordered
    rw [Call.eval_program] at hsteps
    obtain ⟨events, hevents⟩ := ih (s := { s with data := call.sequential s.data }) hidle
    refine ⟨(.call i call :: List.replicate steps (.advance i)) ++ events, ?_⟩
    rw [List.foldl_append, hsteps, hevents]
    rfl

end StreamThread

end MarketBlocks
