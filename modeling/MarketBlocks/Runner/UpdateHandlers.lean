import MarketBlocks.Runner.Watching
import MarketBlocks.Websockets.ExchangeWebsocketStream

/-!
# Update handlers of a back test

`notify` walks over the set of subscriptions and fires, for each of them, the handlers of its
channel. One of them is the account's; the others are the strategy's, and they may call back into
the stream and the account while the walk is under way. What they erase ahead of the walk it does not
come to, and what they erase behind it makes no difference; but no step leads on from an entry that is
erased while the walk stands on it. An insertion may rehash the set, as its number of buckets is left
to the implementation: no step from there is defined either.
-/

namespace MarketBlocks

open Library

/-! ## Messages and handlers -/

/-- The subscription that a message is about. -/
def UpdateMessage.subscription : UpdateMessage → UniqueWebsocketSubscription
  | .trade pair _ => .createTradeSub pair
  | .ohlcv pair interval _ => .createOhlcvSub pair interval
  | .orderBook pair _ => .createOrderBookSub pair

/-- A call that a handler makes of the stream or the account. -/
inductive HandlerCall where
  | subscribe
    (subscription : { subscription : WebsocketSubscription // subscription.canonical.WellFormed })
  | unsubscribe (subscription : WebsocketSubscription)
  | addOrder (request : OrderRequest)
  | cancelOrder (orderId : String)

/-- A call of a handler as an event of the back test. -/
def HandlerCall.toEvent : HandlerCall → BackTest.Event
  | .subscribe subscription => .subscribe subscription.val
  | .unsubscribe subscription => .unsubscribe subscription
  | .addOrder request => .call (.addOrder request)
  | .cancelOrder orderId => .call (.cancelOrder orderId)

/-- The calls that a handler makes, and the exception that it lets escape. -/
structure Reaction where
  calls : List HandlerCall
  raises : Option Fault := none

/-- A handler of the strategy by its reactions to the messages of one tick, of which there is at
most one for each subscription. -/
abbrev UpdateHandler := UniqueWebsocketSubscription → Reaction

/-- A handler of trade updates. -/
inductive TradeUpdateHandler where
  /-- `trade_update_handler` of the account. -/
  | account
  | strategy (handler : UpdateHandler)

/-- The calls that a handler makes in answer to the message of a subscription, other than those of the
account within itself. -/
def TradeUpdateHandler.calls (subscription : UniqueWebsocketSubscription) :
    TradeUpdateHandler → List HandlerCall
  | .account => []
  | .strategy handler => (handler subscription).calls

/-- The registered handlers. The account registers its own before the strategy can. -/
structure UpdateHandlers where
  tradeUpdateHandlers : List TradeUpdateHandler := [.account]
  ohlcvUpdateHandlers : List UpdateHandler := []
  orderBookUpdateHandlers : List UpdateHandler := []

namespace UpdateHandlers

/-- The handlers of a channel. -/
def on (handlers : UpdateHandlers) : WebsocketChannel → List TradeUpdateHandler
  | .trade => handlers.tradeUpdateHandlers
  | .ohlcv => handlers.ohlcvUpdateHandlers.map .strategy
  | .orderBook => handlers.orderBookUpdateHandlers.map .strategy

/-- The calls of the strategy's handlers in answer to the message of a subscription. -/
def calls (handlers : UpdateHandlers) (subscription : UniqueWebsocketSubscription) : List HandlerCall :=
  (handlers.on subscription.channel).flatMap (·.calls subscription)

end UpdateHandlers

/-! ## The walk -/

/-- The back test in the middle of `notify`: the messages that every handler of their channel has
taken, whether the set has been inserted into or erased from, and whether it has been inserted into. -/
structure Notification where
  backTest : BackTest
  delivered : List UpdateMessage := []
  changed : Bool := false
  inserted : Bool := false

namespace Notification

/-- A call of the strategy, which writes down a change of the set. -/
def call (s : Notification) (call : HandlerCall) : Notification :=
  let backTest := s.backTest.step call.toEvent
  { s with
    backTest
    changed := s.changed || decide (backTest.subscriptions ≠ s.backTest.subscriptions)
    inserted := s.inserted || !decide (backTest.subscriptions ⊆ s.backTest.subscriptions) }

/-- One handler, which may throw when it has made its calls. -/
def fireHandler (subscription : UniqueWebsocketSubscription) :
    TradeUpdateHandler → Notification → Except Fault Unit × Notification
  | .account, s =>
    let (result, api) :=
      PaperTradeApi.tradeUpdateHandler s.backTest.feed subscription.pairItem s.backTest.api
    (result, { s with backTest := { s.backTest with api } })
  | .strategy handler, s =>
    let s := (handler subscription).calls.foldl call s
    match (handler subscription).raises with
    | some fault => (.error fault, s)
    | none => (.ok (), s)

/-- The handlers of a channel, until one throws. -/
def fireHandlers (subscription : UniqueWebsocketSubscription) :
    List TradeUpdateHandler → Notification → Except Fault Unit × Notification
  | [], s => (.ok (), s)
  | handler :: rest, s =>
    match fireHandler subscription handler s with
    | (.error fault, s) => (.error fault, s)
    | (.ok (), s) => fireHandlers subscription rest s

/-- The message of a subscription, read off the data. The first ask is taken without a look at
whether there is one, and no interval `UNKNOWN` has a length. -/
def readMessage (subscription : UniqueWebsocketSubscription) (data : BackTestingData) :
    Except Fault UpdateMessage × BackTestingData :=
  let pair := subscription.pairItem
  match subscription.channel with
  | .trade =>
    let (trade, data) := data.getTrade pair
    (trade.map (.trade pair), data)
  | .ohlcv =>
    match subscription.getOhlcvInterval with
    | .error fault => (.error fault, data)
    | .ok .unknown => (.error .undefined, data)
    | .ok interval =>
      let (ohlcvData, data) := data.getOhlcv pair interval.toSeconds 1
      (ohlcvData.map fun candles => .ohlcv pair interval (candles.head?.getD {}), data)
  | .orderBook =>
    match data.getOrderBook pair 0 with
    | (.error fault, data) => (.error fault, data)
    | (.ok book, data) =>
      match book.asks.head? with
      | none => (.error .undefined, data)
      | some entry => (.ok (.orderBook pair entry), data)

/-- The notification after a query of the data. -/
def withData (s : Notification) (data : BackTestingData) : Notification :=
  { s with backTest := { s.backTest with data } }

/-- The body of the loop of `notify`. -/
def visit (handlers : UpdateHandlers) (subscription : UniqueWebsocketSubscription) (s : Notification) :
    Except Fault Unit × Notification :=
  if (handlers.on subscription.channel).isEmpty then (.ok (), s)
  else
    match readMessage subscription s.backTest.data with
    | (.error fault, data) => (.error fault, s.withData data)
    | (.ok message, data) =>
      match fireHandlers subscription (handlers.on subscription.channel) (s.withData data) with
      | (.error fault, s) => (.error fault, s)
      | (.ok (), s) => (.ok (), { s with delivered := s.delivered ++ [message] })

/-- The loop of `notify`, over the entries that the walk would come to if nothing were erased. -/
def visitAll (handlers : UpdateHandlers) :
    List UniqueWebsocketSubscription → Notification → Except Fault Unit × Notification
  | [], s => (.ok (), s)
  | subscription :: rest, s =>
    if subscription ∉ s.backTest.subscriptions then visitAll handlers rest s
    else
      match visit handlers subscription s with
      | (.error fault, s) => (.error fault, s)
      | (.ok (), s) =>
        -- the iterator goes on from the entry, which has to be there and where it was
        if s.inserted ∨ subscription ∉ s.backTest.subscriptions then (.error .undefined, s)
        else visitAll handlers rest s

end Notification

namespace BackTest

/-- `notify` with all registered handlers. -/
def notifyHandlers (handlers : UpdateHandlers) (order : WalkOrder) (w : BackTest) :
    Except Fault Unit × Notification :=
  Notification.visitAll handlers (order.walk w.subscriptions) { backTest := w }

end BackTest

end MarketBlocks
