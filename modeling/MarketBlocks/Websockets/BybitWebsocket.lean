import MarketBlocks.Websockets.SendingStream

/-!
# The Bybit stream

`bybit_websocket_stream` takes its messages apart by their topic. A book comes whole, in a message
whose member `f` is set, or as updates of both sides in turn. Symbols are the names of the pairs run
together.
-/

namespace MarketBlocks

open Library

/-- What `process_order_book_message` reads before the entries, and the entries themselves. -/
structure BybitBook where
  timeStamp : ℤ
  /-- The member `f`: whether the book is whole. -/
  isFull : Bool
  asks : List (Except Fault (ℚ × ℚ))
  bids : List (Except Fault (ℚ × ℚ))

/-- What `on_message` distinguishes. -/
inductive BybitMessage where
  /-- A text that is no JSON, or without a symbol or a topic. -/
  | unreadable (fault : Fault)
  | trade (symbol : String) (trade : Except Fault TradeUpdate)
  | kline (symbol : String) (ohlcv : Except Fault OhlcvData) (klineType : Except Fault String)
  | diffDepth (symbol : String) (book : Except Fault BybitBook)
  | other

/-- `create_message`: the fields of the JSON text that is sent. -/
structure BybitRequest where
  symbol : String
  topic : String
  event : String
  deriving DecidableEq, Repr

/-- `bybit_websocket_stream`. -/
abbrev BybitWebsocketStream := SendingStream BybitRequest

namespace BybitWebsocketStream

open SendingStream (common)

/-- The constructor. -/
def create : BybitWebsocketStream := SendingStream.create (Char.ofNat 0)

/-! ## Messages -/

/-- `process_trade_message`. -/
def processTradeMessage (pairName : String) (trade : Except Fault TradeUpdate)
    (s : BybitWebsocketStream) : Except Fault Unit × BybitWebsocketStream :=
  withRead trade (fun trade => common (·.updateTrade pairName trade)) s

/-- `process_ohlcv_message`, which reads the candle before its interval. -/
def processOhlcvMessage (pairName : String) (ohlcv : Except Fault OhlcvData)
    (klineType : Except Fault String) (s : BybitWebsocketStream) :
    Except Fault Unit × BybitWebsocketStream :=
  withRead ohlcv (fun ohlcv =>
    withRead klineType fun klineType =>
      common (·.updateOhlcv pairName (parseOhlcvInterval klineType) ohlcv)) s

/-- An entry of one side, when it can be read. -/
def createOrderBookEntry (side : OrderBookSide) (entry : Except Fault (ℚ × ℚ)) :
    Except Fault OrderBookEntry :=
  entry.map fun entry => ⟨entry.1, entry.2, side⟩

/-- The entries of both sides in the order in which the loops read them. -/
def alternate : List (Except Fault OrderBookEntry) → List (Except Fault OrderBookEntry) →
    List (Except Fault OrderBookEntry)
  | [], bids => bids
  | asks, [] => asks
  | ask :: asks, bid :: bids => ask :: bid :: alternate asks bids

/-- The entries are read in turns from both sides. -/
def bookEntries (book : BybitBook) : List (Except Fault OrderBookEntry) :=
  alternate (book.asks.map (createOrderBookEntry .ask)) (book.bids.map (createOrderBookEntry .bid))

/-- The book of a full message. -/
def createOrderBookCache (timeStamp : ℤ) (entries : List OrderBookEntry) : OrderBookCache where
  lastUpdate := timeStamp
  asks := OrderedSet.ofList entryLessThan (entries.filter (·.side = .ask))
  bids := OrderedSet.ofList entryGreaterThan (entries.filter (·.side = .bid))

/-- A full message replaces the book, and any other one updates it. -/
def processOrderBookMessage (pairName : String) (book : Except Fault BybitBook)
    (s : BybitWebsocketStream) : Except Fault Unit × BybitWebsocketStream :=
  withRead book (fun book =>
    if book.isFull then
      withRead ((bookEntries book).mapM id) fun entries =>
        common (·.initialiseOrderBook pairName (createOrderBookCache book.timeStamp entries))
    else
      forEach (fun entry => common (·.updateOrderBook pairName book.timeStamp entry)) (bookEntries book)) s

/-- `on_message`. -/
def onMessage (message : BybitMessage) (_network : MarketNetwork) (s : BybitWebsocketStream) :
    Except Fault Unit × BybitWebsocketStream :=
  match message with
  | .unreadable fault => (.error fault, s)
  | .trade symbol trade => processTradeMessage symbol trade s
  | .kline symbol ohlcv klineType => processOhlcvMessage symbol ohlcv klineType s
  | .diffDepth symbol book => processOrderBookMessage symbol book s
  | .other => (.ok (), s)

/-! ## Subscriptions -/

/-- `get_topic`. -/
def getTopic (subscription : WebsocketSubscription) : Except Fault String :=
  match subscription.channel with
  | .trade => .ok "trade"
  | .ohlcv => subscription.getOhlcvInterval.map fun interval => "kline_" ++ interval.toString
  | .orderBook => .ok "diffDepth"

/-- The symbols are each followed by a comma, and then the last character is erased, of which an
empty list has none. -/
def createMessage (eventName : String) (subscription : WebsocketSubscription) :
    Except Fault BybitRequest := do
  let topic ← getTopic subscription
  let tradablePairsList :=
    subscription.pairItem.foldl (fun list pair => list ++ pair.toString ++ ",") ""
  if tradablePairsList.isEmpty then throw .undefined
  return { symbol := String.ofList tradablePairsList.toList.dropLast, topic, event := eventName }

/-- `subscribe`. -/
def subscribe (subscription : WebsocketSubscription) (network : MarketNetwork)
    (s : BybitWebsocketStream) : Except Fault Unit × BybitWebsocketStream :=
  SendingStream.subscribe (createMessage "sub") subscription network s

/-- `unsubscribe`, which leaves the caches as they are. -/
def unsubscribe (subscription : WebsocketSubscription) (network : MarketNetwork)
    (s : BybitWebsocketStream) : Except Fault Unit × BybitWebsocketStream :=
  s.sendSubscription (createMessage "cancel") subscription network

/-! ## What a message writes -/

/-- The keys of the feed that a message is about. -/
def messageKeys : BybitMessage → List CacheKey
  | .trade symbol _ => [.trade symbol]
  | .kline symbol _ (.ok klineType) =>
    [.ohlcv (createOhlcvSubId symbol (parseOhlcvInterval klineType))]
  | .diffDepth symbol _ => [.orderBook symbol]
  | .unreadable _ | .kline _ _ (.error _) | .other => []

/-- A message writes the feed that it is about only. -/
theorem onMessage_writes (message : BybitMessage) (network : MarketNetwork)
    (s : BybitWebsocketStream) :
    s.Writes (messageKeys message) (onMessage message network s).2 := by
  cases message with
  | unreadable | other => exact .refl s
  | trade symbol trade =>
    refine withRead_rel .refl s fun trade _ => ?_
    exact SendingStream.common_writes (fun stream =>
      ExchangeWebsocketStream.updateTrade_writes symbol trade stream) s
  | kline symbol ohlcv klineType =>
    refine withRead_rel .refl s fun ohlcv _ => ?_
    cases klineType with
    | error fault => exact .refl s
    | ok klineType =>
      exact SendingStream.common_writes (fun stream =>
        ExchangeWebsocketStream.updateOhlcv_writes symbol _ ohlcv stream) s
  | diffDepth symbol book =>
    refine withRead_rel .refl s fun book _ => ?_
    split
    · refine withRead_rel .refl s fun entries _ => ?_
      exact SendingStream.common_writes (fun stream =>
        ExchangeWebsocketStream.initialiseOrderBook_writes symbol _ stream) s
    · refine forEach_rel .refl .trans (bookEntries book) (fun entry s _ => ?_) s
      exact SendingStream.common_writes (fun stream =>
        ExchangeWebsocketStream.updateOrderBook_writes symbol _ entry stream) s

end BybitWebsocketStream

end MarketBlocks
