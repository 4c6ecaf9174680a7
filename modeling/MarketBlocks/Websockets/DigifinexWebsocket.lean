import MarketBlocks.Websockets.SendingStream

/-!
# The Digifinex stream

`digifinex_websocket_stream` has a channel for trades only. Candles come from the OHLCV service, and
books are not supported.
-/

namespace MarketBlocks

open Library

/-- The parameters of a `trades.update`: the trades of a pair, of which the last one is read. -/
structure DigifinexTrades where
  pairName : String
  trades : List (Except Fault TradeUpdate)

/-- What `on_message` distinguishes by the member `method`. -/
inductive DigifinexMessage where
  /-- A text that is no JSON, or without a method. -/
  | unreadable (fault : Fault)
  | tradesUpdate (params : Except Fault DigifinexTrades)
  | other

/-- `create_message`: the fields of the JSON text that is sent. -/
structure DigifinexRequest where
  method : String
  params : List String
  deriving DecidableEq, Repr

/-- `digifinex_websocket_stream`. -/
abbrev DigifinexWebsocketStream := ServicedStream DigifinexRequest

namespace DigifinexWebsocketStream

/-- The constructor. -/
def create : DigifinexWebsocketStream := ServicedStream.create '_'

/-! ## Messages -/

/-- The element behind an empty array is read all the same. -/
def DigifinexTrades.lastTrade (params : DigifinexTrades) : Except Fault TradeUpdate :=
  params.trades.getLast?.getD (.error .undefined)

/-- `process_trade_message`, which takes the last trade of a message. -/
def processTradeMessage (params : Except Fault DigifinexTrades) (network : MarketNetwork)
    (s : DigifinexWebsocketStream) : Except Fault Unit × DigifinexWebsocketStream :=
  withRead params (fun params =>
    withRead (DigifinexTrades.lastTrade params) fun trade =>
      ServicedStream.processTrade network params.pairName trade) s

/-- `on_message`. -/
def onMessage (message : DigifinexMessage) (network : MarketNetwork)
    (s : DigifinexWebsocketStream) : Except Fault Unit × DigifinexWebsocketStream :=
  match message with
  | .unreadable fault => (.error fault, s)
  | .tradesUpdate params => processTradeMessage params network s
  | .other => (.ok (), s)

/-! ## Subscriptions -/

/-- `get_channel`; the message spells the exchange as the source does. -/
def getChannel : WebsocketChannel → Except Fault String
  | .trade => .ok "trades"
  | .orderBook | .ohlcv => .error (.mbException "Websocket channel not supported on Digfinex")

/-- `create_message`. -/
def createMessage (action : String) (subscription : WebsocketSubscription) :
    Except Fault DigifinexRequest :=
  (getChannel subscription.channel).map fun channel =>
    { method := channel ++ "." ++ action
      params := subscription.pairItem.map (·.toStringWith '_') }

/-- `subscribe`. -/
def subscribe (subscription : WebsocketSubscription) (network : MarketNetwork)
    (s : DigifinexWebsocketStream) : Except Fault Unit × DigifinexWebsocketStream :=
  ServicedStream.subscribe (createMessage "subscribe") subscription network s

/-- `unsubscribe`. -/
def unsubscribe (subscription : WebsocketSubscription) (network : MarketNetwork)
    (s : DigifinexWebsocketStream) : Except Fault Unit × DigifinexWebsocketStream :=
  s.sendUnsubscribe (createMessage "unsubscribe") subscription network

/-! ## What a message writes -/

/-- The keys of the feeds that a message is about. -/
def messageKeys (message : DigifinexMessage) (s : DigifinexWebsocketStream) : List CacheKey :=
  match message with
  | .tradesUpdate (.ok params) => .trade params.pairName :: s.candleKeys params.pairName
  | .unreadable _ | .tradesUpdate (.error _) | .other => []

/-- A message writes the feeds that it is about only. -/
theorem onMessage_writes (message : DigifinexMessage) (network : MarketNetwork)
    (s : DigifinexWebsocketStream) :
    s.Writes (messageKeys message s) (onMessage message network s).2 := by
  cases message with
  | unreadable | other => exact .refl s
  | tradesUpdate params =>
    cases params with
    | error fault => exact .refl s
    | ok params =>
      refine withRead_rel .refl s fun trade _ => ?_
      exact ServicedStream.processTrade_writes network params.pairName trade s

end DigifinexWebsocketStream

end MarketBlocks
