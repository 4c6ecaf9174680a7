import MarketBlocks.Websockets.SendingStream

/-!
# The Kraken stream

`kraken_websocket_stream` tells its messages apart by the channel name at the end of an array. A
part of a message that is absent or of the wrong type raises when it is read and not before, so the
trades and book entries before it take effect. Answers to subscriptions are not arrays and are
passed over.
-/

namespace MarketBlocks

open Library

/-- An entry of a book, as it is read. -/
structure KrakenBookEntry where
  price : ℚ
  volume : ℚ
  timeStamp : ℤ
  deriving DecidableEq, Repr

/-- An object with book updates of one side. -/
structure KrakenBookUpdates where
  /-- Whether the object has the member `a`, that is whether its entries are asks. -/
  hasAsks : Bool
  entries : Except Fault (List (Except Fault KrakenBookEntry))

/-- The part of a message that is about a book. -/
inductive KrakenBook where
  /-- An object with the member `as`; its asks and bids are read before any of them is used. -/
  | snapshot (levels : Except Fault (List KrakenBookEntry × List KrakenBookEntry))
  | updates (updates : KrakenBookUpdates)
  /-- A message with an object for each side. -/
  | bothUpdates (first second : KrakenBookUpdates)

/-- What `on_message` distinguishes. -/
inductive KrakenMessage where
  /-- A text that is no JSON, or an array whose last two elements are no strings. -/
  | unreadable (fault : Fault)
  | event
  | trade (pairName : String) (trades : Except Fault (List (Except Fault TradeUpdate)))
  | ohlc (pairName : String) (minutes : Except Fault ℤ) (ohlcv : Except Fault OhlcvData)
  | book (pairName : String) (book : KrakenBook)
  | other

/-- `create_message`: the fields of the JSON text that is sent. -/
structure KrakenRequest where
  event : String
  pair : List String
  name : String
  interval : Option ℤ := none
  depth : Option ℕ := none
  deriving DecidableEq, Repr

/-- `kraken_websocket_stream`. -/
abbrev KrakenWebsocketStream := SendingStream KrakenRequest

namespace KrakenWebsocketStream

open SendingStream (common)

/-- The constructor. -/
def create : KrakenWebsocketStream := SendingStream.create '/'

/-! ## Messages -/

/-- `process_trade_message`, trade by trade. -/
def processTradeMessage (pairName : String) (trades : Except Fault (List (Except Fault TradeUpdate)))
    (s : KrakenWebsocketStream) : Except Fault Unit × KrakenWebsocketStream :=
  withRead trades (forEach fun trade => (common (·.updateTrade pairName trade))) s

/-- `process_ohlcv_message`. -/
def processOhlcvMessage (pairName : String) (minutes : Except Fault ℤ)
    (ohlcv : Except Fault OhlcvData) (s : KrakenWebsocketStream) :
    Except Fault Unit × KrakenWebsocketStream :=
  withRead minutes (fun minutes =>
    withRead ohlcv fun ohlcv =>
      common (·.updateOhlcv pairName (.fromMinutes minutes) ohlcv)) s

/-- An entry of one side. -/
def createOrderBookEntry (side : OrderBookSide) (entry : KrakenBookEntry) : OrderBookEntry :=
  ⟨entry.price, entry.volume, side⟩

/-- The time stamp is the latest of the entries'. -/
def createOrderBookCache (asks bids : List KrakenBookEntry) : OrderBookCache where
  lastUpdate := ((asks ++ bids).map KrakenBookEntry.timeStamp).foldl max 0
  asks := OrderedSet.ofList entryLessThan (asks.map (createOrderBookEntry .ask))
  bids := OrderedSet.ofList entryGreaterThan (bids.map (createOrderBookEntry .bid))

/-- The updates of an object are those of its asks, or of its bids when it has none. -/
def processOrderBookUpdates (pairName : String) (updates : KrakenBookUpdates)
    (s : KrakenWebsocketStream) : Except Fault Unit × KrakenWebsocketStream :=
  let side := if updates.hasAsks then OrderBookSide.ask else .bid
  withRead updates.entries (forEach fun entry =>
    common (·.updateOrderBook pairName entry.timeStamp (createOrderBookEntry side entry))) s

/-- `process_order_book_message`. -/
def processOrderBookMessage (pairName : String) (book : KrakenBook) (s : KrakenWebsocketStream) :
    Except Fault Unit × KrakenWebsocketStream :=
  match book with
  | .snapshot levels =>
    withRead levels (fun levels =>
      common (·.initialiseOrderBook pairName (createOrderBookCache levels.1 levels.2))) s
  | .updates updates => processOrderBookUpdates pairName updates s
  | .bothUpdates first second =>
    andThen (processOrderBookUpdates pairName first s) (processOrderBookUpdates pairName second)

/-- `on_message`. -/
def onMessage (message : KrakenMessage) (_network : MarketNetwork) (s : KrakenWebsocketStream) :
    Except Fault Unit × KrakenWebsocketStream :=
  match message with
  | .unreadable fault => (.error fault, s)
  | .event => (.ok (), s)
  | .trade pairName trades => processTradeMessage pairName trades s
  | .ohlc pairName minutes ohlcv => processOhlcvMessage pairName minutes ohlcv s
  | .book pairName book => processOrderBookMessage pairName book s
  | .other => (.ok (), s)

/-! ## Subscriptions -/

/-- `CHANNEL_NAMES`. -/
def channelName : WebsocketChannel → String
  | .trade => "trade"
  | .ohlcv => "ohlc"
  | .orderBook => "book"

/-- `create_message`; candles have their interval in minutes. -/
def createMessage (eventName : String) (subscription : WebsocketSubscription) :
    Except Fault KrakenRequest := do
  let request : KrakenRequest :=
    { event := eventName
      pair := subscription.pairItem.map (·.toStringWith '/')
      name := channelName subscription.channel }
  match subscription.channel with
  | .ohlcv =>
    let interval ← subscription.getOhlcvInterval
    let minutes ← interval.toMinutes
    return { request with interval := some minutes }
  | .orderBook => return { request with depth := some 100 }
  | .trade => return request

/-- `subscribe`. -/
def subscribe (subscription : WebsocketSubscription) (network : MarketNetwork)
    (s : KrakenWebsocketStream) : Except Fault Unit × KrakenWebsocketStream :=
  SendingStream.subscribe (createMessage "subscribe") subscription network s

/-- `unsubscribe`, which leaves the caches as they are. -/
def unsubscribe (subscription : WebsocketSubscription) (network : MarketNetwork)
    (s : KrakenWebsocketStream) : Except Fault Unit × KrakenWebsocketStream :=
  s.sendSubscription (createMessage "unsubscribe") subscription network

/-! ## What a message writes -/

/-- The keys of the feed that a message is about. -/
def messageKeys : KrakenMessage → List CacheKey
  | .trade pairName _ => [.trade pairName]
  | .ohlc pairName (.ok minutes) _ => [.ohlcv (createOhlcvSubId pairName (.fromMinutes minutes))]
  | .book pairName _ => [.orderBook pairName]
  | .unreadable _ | .event | .ohlc _ (.error _) _ | .other => []

/-- Updates are written to the book of their pair. -/
theorem processOrderBookUpdates_writes (pairName : String) (updates : KrakenBookUpdates)
    (s : KrakenWebsocketStream) :
    s.Writes [.orderBook pairName] (processOrderBookUpdates pairName updates s).2 :=
  withRead_rel .refl s fun entries _ => forEach_rel .refl .trans entries (fun _ s _ =>
    SendingStream.common_writes (fun stream =>
      ExchangeWebsocketStream.updateOrderBook_writes _ _ _ stream) s) s

/-- A message writes the feed that it is about only. -/
theorem onMessage_writes (message : KrakenMessage) (network : MarketNetwork)
    (s : KrakenWebsocketStream) :
    s.Writes (messageKeys message) (onMessage message network s).2 := by
  cases message with
  | unreadable | event | other => exact .refl s
  | trade pairName trades =>
    refine withRead_rel .refl s fun trades _ => ?_
    refine forEach_rel .refl .trans trades (fun trade s _ => ?_) s
    exact SendingStream.common_writes (fun stream =>
      ExchangeWebsocketStream.updateTrade_writes pairName trade stream) s
  | ohlc pairName minutes ohlcv =>
    cases minutes with
    | error fault => exact .refl s
    | ok minutes =>
      refine withRead_rel .refl s fun ohlcv _ => ?_
      exact SendingStream.common_writes (fun stream =>
        ExchangeWebsocketStream.updateOhlcv_writes pairName (.fromMinutes minutes) ohlcv stream) s
  | book pairName book =>
    cases book with
    | snapshot levels =>
      refine withRead_rel .refl s fun levels _ => ?_
      exact SendingStream.common_writes (fun stream =>
        ExchangeWebsocketStream.initialiseOrderBook_writes pairName _ stream) s
    | updates updates => exact processOrderBookUpdates_writes pairName updates s
    | bothUpdates first second =>
      exact andThen_rel .trans (processOrderBookUpdates_writes pairName first s)
        fun _ => processOrderBookUpdates_writes pairName second _

end KrakenWebsocketStream

end MarketBlocks
