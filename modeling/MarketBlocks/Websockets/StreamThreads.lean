import MarketBlocks.Library.LockOrder
import MarketBlocks.PaperTrading.PaperTradeApi
import MarketBlocks.Websockets.StreamCaches

/-!
# Threads on one stream

A stream and a paper trading account on it are used by any number of threads: those that deliver
messages, those of strategies that subscribe and read, and those that place orders. The functions
that take locks are programs here, with the locks as the source takes them. The temporary lock of
the statement that fires the handlers is held until they have returned, and the handler of the
account takes the mutex of the account. The other handlers, and what a stream does to send, take
none of these locks.
-/

namespace MarketBlocks

open Library

/-- The mutexes of a stream, and `_tradingMutex`. -/
inductive StreamLock where
  | trading
  | pairs
  | trades
  | ohlcv
  | orderBooks
  deriving DecidableEq, Repr

/-- What the threads share. -/
structure SharedState where
  stream : ExchangeWebsocketStream
  account : PaperTradeApi

/-- A call in a thread. -/
abbrev ThreadCall := ExceptT Fault (Program StreamLock SharedState)

namespace StreamThread

open Program (access withLock)

variable {α : Type}

/-- A function of the stream, in one step. -/
def onStream (f : ExchangeWebsocketStream → Except Fault α × ExchangeWebsocketStream) :
    ThreadCall α :=
  access fun s => ((f s.stream).1, { s with stream := (f s.stream).2 })

/-- A function of the account, in one step. -/
def onAccount (f : PaperTradeApi → Except Fault α × PaperTradeApi) : ThreadCall α :=
  access fun s => ((f s.account).1, { s with account := (f s.account).2 })

/-- Read without changing anything. -/
def reads (f : SharedState → Except Fault α) : ThreadCall α := access fun s => (f s, s)

/-! ## Getters of the stream -/

/-- `get_subscription_status`, under the mutex of the cache that it looks into. -/
def getSubscriptionStatus (subscription : UniqueWebsocketSubscription) :
    ThreadCall SubscriptionStatus :=
  let lock := match subscription.channel with
    | .trade => StreamLock.trades
    | .ohlcv => .ohlcv
    | .orderBook => .orderBooks
  withLock lock .shared (reads fun s => s.stream.getSubscriptionStatus subscription)

/-- `get_order_book`. -/
def getOrderBook (pair : TradablePair) (depth : ℤ) : ThreadCall OrderBookState :=
  withLock .orderBooks .shared (reads fun s => s.stream.getOrderBook pair depth)

/-- `get_last_trade`. -/
def getLastTrade (pair : TradablePair) : ThreadCall TradeUpdate :=
  withLock .trades .shared (reads fun s => .ok (s.stream.getLastTrade pair))

/-- `get_last_candle`. -/
def getLastCandle (pair : TradablePair) (interval : OhlcvInterval) : ThreadCall OhlcvData :=
  withLock .ohlcv .shared (reads fun s => .ok (s.stream.getLastCandle pair interval))

/-- `subscribe`; what sending answers is given. -/
def subscribe (subscription : WebsocketSubscription) (sent : Except Fault Unit) :
    ThreadCall Unit := do
  withLock .pairs .exclusive
    (onStream fun stream => (.ok (), stream.registerPairs subscription.pairItem))
  reads fun _ => sent

/-! ## The account -/

/-- `try_fill_order`. -/
def tryFillOrder (orderId : String) (time : ℤ) : ThreadCall Bool := do
  let request ← reads fun s => match s.account.openOrders.lookup orderId with
    | none => .error .outOfRange
    | some request => .ok request
  let trade ← getLastTrade request.pair
  onAccount (PaperTradeApi.tryFillOrder
    { lastTrade := fun _ => trade, tradeStatus := fun _ => .subscribed, time } orderId)

/-- The condition of the loop of `trade_update_handler`: whether an id is to be erased. -/
def isSettled (id : String) (isOpen : Bool) (time : ℤ) : ThreadCall Bool :=
  if isOpen then tryFillOrder id time else pure true

/-- The loop of `trade_update_handler`, with `remaining` iterations to go. -/
def tradeUpdateLoop (pair : TradablePair) (time : ℤ) : ℕ → ℕ → ThreadCall Unit
  | 0, _ => pure ()
  | remaining + 1, index => do
    let id ← reads fun s => match (s.account.orderIds pair)[index]? with
      | none => .error .undefined
      | some id => .ok id
    let isOpen ← reads fun s => .ok (decide (id ∈ s.account.openOrders))
    let settled ← isSettled id isOpen time
    if settled then do
      onAccount fun account =>
        (.ok (), account.setOrderIds pair ((account.orderIds pair).eraseIdx index))
      tradeUpdateLoop pair time remaining index
    else tradeUpdateLoop pair time remaining (index + 1)

/-- `trade_update_handler`, whose count of orders is taken before the first is evaluated. -/
def tradeUpdateHandler (pair : TradablePair) (time : ℤ) : ThreadCall Unit :=
  withLock .trading .exclusive do
    let orderCount ← onAccount fun account =>
      let account := account.setOrderIds pair (account.orderIds pair)
      (.ok (account.orderIds pair).length, account)
    tradeUpdateLoop pair time orderCount 0

/-- The subscription in `add_order`. -/
def subscribeUnless (status : SubscriptionStatus) (pair : TradablePair)
    (sent : Except Fault Unit) : ThreadCall Unit :=
  if status = .unsubscribed then subscribe (.createTradeSub [pair]) sent else pure ()

/-- `add_order`; what sending answers, when it subscribes, is given. -/
def addOrder (request : OrderRequest) (sent : Except Fault Unit) (time : ℤ) : ThreadCall String :=
  withLock .trading .exclusive do
    let orderId ← onAccount fun account => (.ok account.nextOrderId, account.register request)
    let status ← getSubscriptionStatus (.createTradeSub request.pair)
    subscribeUnless status request.pair sent
    let _ ← tryFillOrder orderId time
    return orderId

/-- `add_order_confirm`, which reads the last trade when the mutex has been given back. -/
def addOrderConfirm (request : OrderRequest) (sent : Except Fault Unit) (time : ℤ) :
    ThreadCall OrderConfirmation := do
  let orderId ← addOrder request sent time
  let trade ← getLastTrade request.pair
  return { orderId, orderStatus := .closed, originalQty := request.get .volume,
           filledQty := request.get .volume, price := trade.price }

/-- `cancel_order`. -/
def cancelOrder (orderId : String) : ThreadCall Unit :=
  withLock .trading .exclusive (onAccount (PaperTradeApi.cancelOrder orderId))

/-- A getter of the account, that is `get_balances`, `get_open_orders`, `get_closed_orders` or
`get_order_status`. -/
def readAccount (f : PaperTradeApi → α) : ThreadCall α :=
  withLock .trading .exclusive (reads fun s => .ok (f s.account))

/-! ## Deliveries -/

/-- Fire the handlers of a channel, when it has any, while the pairs are locked. -/
def fire (channel : WebsocketChannel) (pairName : String) (message : TradablePair → UpdateMessage)
    (accountHandler : TradablePair → ThreadCall Unit) : ThreadCall Unit := do
  let handled ← reads fun s => .ok (decide (channel ∈ s.stream.handled))
  if handled then
    withLock .pairs .shared do
      let pair ← reads fun s => match s.stream.pairs.lookup pairName with
        | none => .error .outOfRange
        | some pair => .ok pair
      onStream fun stream => (.ok (), { stream with delivered := stream.delivered ++ [message pair] })
      accountHandler pair
  else pure ()

/-- `update_trade`. -/
def updateTrade (pairName : String) (trade : TradeUpdate) (time : ℤ) : ThreadCall Unit := do
  withLock .trades .exclusive
    (onStream fun stream => (.ok (), { stream with trades := stream.trades.insert pairName trade }))
  fire .trade pairName (.trade · trade) (tradeUpdateHandler · time)

/-- `update_ohlcv`. -/
def updateOhlcv (pairName : String) (interval : OhlcvInterval) (ohlcvData : OhlcvData) :
    ThreadCall Unit := do
  withLock .ohlcv .exclusive (onStream fun stream =>
    (.ok (), { stream with
      ohlcv := stream.ohlcv.insert (createOhlcvSubId pairName interval) ohlcvData }))
  fire .ohlcv pairName (.ohlcv · interval ohlcvData) fun _ => pure ()

/-- `initialise_order_book`. -/
def initialiseOrderBook (pairName : String) (cache : OrderBookCache) : ThreadCall Unit := do
  withLock .orderBooks .exclusive (onStream fun stream =>
    (.ok (), { stream with orderBooks := stream.orderBooks.insert pairName cache }))
  fire .orderBook pairName (.orderBook · ⟨0, 0, .ask⟩) fun _ => pure ()

/-- `update_order_book`. -/
def updateOrderBook (pairName : String) (timeStamp : ℤ) (entry : OrderBookEntry) :
    ThreadCall Unit := do
  withLock .orderBooks .exclusive (onStream fun stream =>
    let cache := (stream.orderBooks.lookup pairName).getD ⟨0, [], []⟩
    (.ok (), { stream with
      orderBooks := stream.orderBooks.insert pairName (cache.updateCache timeStamp entry) }))
  fire .orderBook pairName (.orderBook · entry) fun _ => pure ()

/-! ## The calls of a thread -/

/-- A call that a thread may make. -/
inductive Call where
  | updateTrade (pairName : String) (trade : TradeUpdate) (time : ℤ)
  | updateOhlcv (pairName : String) (interval : OhlcvInterval) (ohlcvData : OhlcvData)
  | initialiseOrderBook (pairName : String) (cache : OrderBookCache)
  | updateOrderBook (pairName : String) (timeStamp : ℤ) (entry : OrderBookEntry)
  | subscribe (subscription : WebsocketSubscription) (sent : Except Fault Unit)
  | getSubscriptionStatus (subscription : UniqueWebsocketSubscription)
  | getOrderBook (pair : TradablePair) (depth : ℤ)
  | getLastTrade (pair : TradablePair)
  | getLastCandle (pair : TradablePair) (interval : OhlcvInterval)
  | addOrder (request : OrderRequest) (sent : Except Fault Unit) (time : ℤ)
  | addOrderConfirm (request : OrderRequest) (sent : Except Fault Unit) (time : ℤ)
  | cancelOrder (orderId : String)
  | getBalances
  | getOpenOrders
  | getClosedOrders
  | getOrderStatus (orderId : String)

/-- What a thread runs for a call. -/
def Call.program : Call → Program StreamLock SharedState Unit
  | .updateTrade pairName trade time => .ofCall (StreamThread.updateTrade pairName trade time)
  | .updateOhlcv pairName interval ohlcvData =>
    .ofCall (StreamThread.updateOhlcv pairName interval ohlcvData)
  | .initialiseOrderBook pairName cache => .ofCall (StreamThread.initialiseOrderBook pairName cache)
  | .updateOrderBook pairName timeStamp entry =>
    .ofCall (StreamThread.updateOrderBook pairName timeStamp entry)
  | .subscribe subscription sent => .ofCall (StreamThread.subscribe subscription sent)
  | .getSubscriptionStatus subscription => .ofCall (StreamThread.getSubscriptionStatus subscription)
  | .getOrderBook pair depth => .ofCall (StreamThread.getOrderBook pair depth)
  | .getLastTrade pair => .ofCall (StreamThread.getLastTrade pair)
  | .getLastCandle pair interval => .ofCall (StreamThread.getLastCandle pair interval)
  | .addOrder request sent time => .ofCall (StreamThread.addOrder request sent time)
  | .addOrderConfirm request sent time => .ofCall (StreamThread.addOrderConfirm request sent time)
  | .cancelOrder orderId => .ofCall (StreamThread.cancelOrder orderId)
  | .getBalances => .ofCall (readAccount PaperTradeApi.balances)
  | .getOpenOrders => .ofCall (readAccount PaperTradeApi.openOrders)
  | .getClosedOrders => .ofCall (readAccount PaperTradeApi.closedOrders)
  | .getOrderStatus orderId => .ofCall (readAccount (PaperTradeApi.getOrderStatus orderId))

end StreamThread

end MarketBlocks
