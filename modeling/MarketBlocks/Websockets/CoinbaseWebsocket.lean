import MarketBlocks.Websockets.SendingStream

/-!
# The Coinbase stream

`coinbase_websocket_stream` has a channel for trades and one for books. Candles come from the OHLCV
service, which needs the trades of the pair.
-/

namespace MarketBlocks

open Library

/-- The product of a book message with what else is read before the book is touched. -/
structure CoinbaseSnapshot where
  productId : String
  asks : List (ℚ × ℚ)
  bids : List (ℚ × ℚ)

/-- A message `l2update`. -/
structure CoinbaseChanges where
  productId : String
  time : ℤ
  /-- Side, price and volume of each change. -/
  changes : List (Except Fault OrderBookEntry)

/-- What `on_message` distinguishes by the member `type`. -/
inductive CoinbaseMessage where
  /-- A text that is no JSON, or without a type. -/
  | unreadable (fault : Fault)
  /-- The product and its last trade. -/
  | ticker (read : Except Fault (String × TradeUpdate))
  | snapshot (read : Except Fault CoinbaseSnapshot)
  | l2update (read : Except Fault CoinbaseChanges)
  | other

/-- `create_message`: the fields of the JSON text that is sent. -/
structure CoinbaseRequest where
  type : String
  productIds : List String
  channels : List String
  deriving DecidableEq, Repr

/-- `coinbase_websocket_stream`. -/
abbrev CoinbaseWebsocketStream := ServicedStream CoinbaseRequest

namespace CoinbaseWebsocketStream

/-- The constructor. -/
def create : CoinbaseWebsocketStream := ServicedStream.create '-'

/-! ## Messages -/

/-- `process_trade_message`, of a ticker. -/
def processTradeMessage (read : Except Fault (String × TradeUpdate)) (network : MarketNetwork)
    (s : CoinbaseWebsocketStream) : Except Fault Unit × CoinbaseWebsocketStream :=
  withRead read (fun read => ServicedStream.processTrade network read.1 read.2) s

/-- The book is dated by the clock. -/
def createOrderBookCache (now : ℤ) (snapshot : CoinbaseSnapshot) : OrderBookCache where
  lastUpdate := now
  asks := OrderedSet.ofList entryLessThan (snapshot.asks.map fun entry => ⟨entry.1, entry.2, .ask⟩)
  bids := OrderedSet.ofList entryGreaterThan
    (snapshot.bids.map fun entry => ⟨entry.1, entry.2, .bid⟩)

/-- `process_order_book_initialisation`; the book has the time of the clock. -/
def processOrderBookInitialisation (read : Except Fault CoinbaseSnapshot) (network : MarketNetwork)
    (s : CoinbaseWebsocketStream) : Except Fault Unit × CoinbaseWebsocketStream :=
  withRead read (fun snapshot => ServicedStream.sending fun s =>
    s.common (·.initialiseOrderBook snapshot.productId
      (createOrderBookCache network.now snapshot))) s

/-- `process_order_book_update`, change by change. -/
def processOrderBookUpdate (read : Except Fault CoinbaseChanges) (s : CoinbaseWebsocketStream) :
    Except Fault Unit × CoinbaseWebsocketStream :=
  withRead read (fun update => forEach (fun entry => ServicedStream.sending fun s =>
    s.common (·.updateOrderBook update.productId update.time entry)) update.changes) s

/-- `on_message`. -/
def onMessage (message : CoinbaseMessage) (network : MarketNetwork) (s : CoinbaseWebsocketStream) :
    Except Fault Unit × CoinbaseWebsocketStream :=
  match message with
  | .unreadable fault => (.error fault, s)
  | .ticker read => processTradeMessage read network s
  | .snapshot read => processOrderBookInitialisation read network s
  | .l2update read => processOrderBookUpdate read s
  | .other => (.ok (), s)

/-! ## Subscriptions -/

/-- `get_channel`. -/
def getChannel : WebsocketChannel → Except Fault String
  | .trade => .ok "ticker"
  | .orderBook => .ok "level2"
  | .ohlcv => .error (.mbException "Websocket channel not supported on Coinbase")

/-- `create_message`, for one channel. -/
def createMessage (type : String) (subscription : WebsocketSubscription) :
    Except Fault CoinbaseRequest :=
  (getChannel subscription.channel).map fun channel =>
    { type, productIds := subscription.pairItem.map (·.toStringWith '-'), channels := [channel] }

/-- `subscribe`. -/
def subscribe (subscription : WebsocketSubscription) (network : MarketNetwork)
    (s : CoinbaseWebsocketStream) : Except Fault Unit × CoinbaseWebsocketStream :=
  ServicedStream.subscribe (createMessage "subscribe") subscription network s

/-- `unsubscribe`. -/
def unsubscribe (subscription : WebsocketSubscription) (network : MarketNetwork)
    (s : CoinbaseWebsocketStream) : Except Fault Unit × CoinbaseWebsocketStream :=
  s.sendUnsubscribe (createMessage "unsubscribe") subscription network

/-! ## What a message writes -/

/-- The keys of the feeds that a message is about; the candles of a pair are made out of its trades
while the service is subscribed. -/
def messageKeys (message : CoinbaseMessage) (s : CoinbaseWebsocketStream) : List CacheKey :=
  match message with
  | .ticker (.ok (productId, _)) => .trade productId :: s.candleKeys productId
  | .snapshot (.ok snapshot) => [.orderBook snapshot.productId]
  | .l2update (.ok update) => [.orderBook update.productId]
  | .unreadable _ | .ticker (.error _) | .snapshot (.error _) | .l2update (.error _) | .other => []

/-- A message writes the feeds that it is about only. -/
theorem onMessage_writes (message : CoinbaseMessage) (network : MarketNetwork)
    (s : CoinbaseWebsocketStream) :
    s.Writes (messageKeys message s) (onMessage message network s).2 := by
  cases message with
  | unreadable | other => exact .refl s
  | ticker read =>
    rcases read with fault | ⟨productId, trade⟩
    · exact .refl s
    · exact ServicedStream.processTrade_writes network productId trade s
  | snapshot read =>
    cases read with
    | error fault => exact .refl s
    | ok snapshot =>
      exact ExchangeWebsocketStream.initialiseOrderBook_writes snapshot.productId _
        s.toExchangeWebsocketStream
  | l2update read =>
    cases read with
    | error fault => exact .refl s
    | ok update =>
      refine forEach_rel .refl .trans update.changes (fun entry s _ => ?_) s
      exact ExchangeWebsocketStream.updateOrderBook_writes update.productId update.time entry
        s.toExchangeWebsocketStream

end CoinbaseWebsocketStream

end MarketBlocks
