import MarketBlocks.Exchanges.Results
import MarketBlocks.Websockets.BinanceWebsocket
import MarketBlocks.Websockets.BybitWebsocket
import MarketBlocks.Websockets.CoinbaseWebsocket
import MarketBlocks.Websockets.DigifinexWebsocket
import MarketBlocks.Websockets.KrakenWebsocket

/-!
# Decoding messages

What the streams read of the JSON documents that arrive at them. A part of a message holds the
outcome of reading it, which takes effect when the stream comes to it.
-/

namespace MarketBlocks

open Library

/-! ## Coinbase -/

namespace CoinbaseWebsocketStream

/-- `create_order_book_entry`. -/
def readOrderBookEntry (c : Conversions) (offset : ℤ) (json : Json) : Except Fault (ℚ × ℚ) := do
  let price ← json.getAt (Json.asNumeral c) (0 + offset)
  let volume ← json.getAt (Json.asNumeral c) (1 + offset)
  return (price, volume)

/-- The entry that a turn of the loop reads from one side of a book. -/
def readSide (c : Conversions) (entries : Json) (i : ℕ) : Except Fault (Option (ℚ × ℚ)) :=
  if i < entries.size then do
    let element ← entries.elementAt i
    let entry ← readOrderBookEntry c 0 element
    return some entry
  else .ok none

/-- What `process_trade_message` reads. -/
def readTrade (c : Conversions) (json : Json) : Except Fault (String × TradeUpdate) := do
  let price ← json.get (Json.asNumeral c) "price"
  let volume ← json.get (Json.asNumeral c) "last_size"
  let time ← json.get Json.asString "time"
  let pairName ← json.get Json.asString "product_id"
  return (pairName, { timeStamp := c.toTimeT time, price, volume })

/-- What `process_order_book_initialisation` reads. -/
def readSnapshot (c : Conversions) (json : Json) : Except Fault CoinbaseSnapshot := do
  let asks ← json.element "asks"
  let bids ← json.element "bids"
  let entries ← (List.range (max asks.size bids.size)).mapM fun i => do
    let ask ← readSide c asks i
    let bid ← readSide c bids i
    return (ask, bid)
  let productId ← json.get Json.asString "product_id"
  return { productId, asks := entries.filterMap (·.1), bids := entries.filterMap (·.2) }

/-- A change in the loop of `process_order_book_update`. -/
def readChange (c : Conversions) (entryElement : Json) : Except Fault OrderBookEntry := do
  let side ← entryElement.getAt Json.asString 0
  let entry ← readOrderBookEntry c 1 entryElement
  return ⟨entry.1, entry.2, if side = "buy" then .bid else .ask⟩

/-- What `process_order_book_update` reads. -/
def readChanges (c : Conversions) (json : Json) : Except Fault CoinbaseChanges := do
  let time ← json.get Json.asString "time"
  let changesElement ← json.element "changes"
  let productId ← json.get Json.asString "product_id"
  return { productId, time := c.toTimeT time, changes := changesElement.values.map (readChange c) }

/-- What `on_message` makes of a document. -/
def decode (c : Conversions) (json : Json) : CoinbaseMessage :=
  match json.get Json.asString "type" with
  | .error fault => .unreadable fault
  | .ok messageType =>
    if messageType = "ticker" then .ticker (readTrade c json)
    else if messageType = "snapshot" then .snapshot (readSnapshot c json)
    else if messageType = "l2update" then .l2update (readChanges c json)
    else .other

end CoinbaseWebsocketStream

/-! ## Kraken -/

namespace KrakenWebsocketStream

/-- A trade in the loop of `process_trade_message`. -/
def readTrade (c : Conversions) (tradeElement : Json) : Except Fault TradeUpdate := do
  let price ← tradeElement.getAt (Json.asNumeral c) 0
  let volume ← tradeElement.getAt (Json.asNumeral c) 1
  let time ← tradeElement.getAt (Json.asTimeNumeral c) 2
  return ⟨time, price, volume⟩

/-- The interval at the end of the name of a candle channel. -/
def readMinutes (c : Conversions) (channelName : String) : Except Fault ℤ := do
  let minuteInterval ← at? (split channelName '-') 1
  match c.stoi minuteInterval with
  | some minutes => .ok minutes
  | none => .error .otherException

/-- The candle that `process_ohlcv_message` reads. -/
def readOhlcv (c : Conversions) (ohlcArray : Json) : Except Fault OhlcvData := do
  let timeStamp ← ohlcArray.getAt (Json.asTimeNumeral c) 0
  let «open» ← ohlcArray.getAt (Json.asNumeral c) 2
  let high ← ohlcArray.getAt (Json.asNumeral c) 3
  let low ← ohlcArray.getAt (Json.asNumeral c) 4
  let close ← ohlcArray.getAt (Json.asNumeral c) 5
  let volume ← ohlcArray.getAt (Json.asNumeral c) 7
  return { timeStamp, «open», high, low, close, volume }

/-- `create_order_book_entry` and `get_order_book_update_timestamp`. -/
def readBookEntry (c : Conversions) (entryElement : Json) : Except Fault KrakenBookEntry := do
  let price ← entryElement.getAt (Json.asNumeral c) 0
  let volume ← entryElement.getAt (Json.asNumeral c) 1
  let timeStamp ← entryElement.getAt (Json.asTimeNumeral c) 2
  return { price, volume, timeStamp }

/-- The entry that a turn of the loop reads from one side of a book. -/
def readSide (c : Conversions) (entries : Json) (i : ℕ) : Except Fault (Option KrakenBookEntry) :=
  if i < entries.size then do
    let element ← entries.elementAt i
    let entry ← readBookEntry c element
    return some entry
  else .ok none

/-- What `create_order_book_cache` reads. -/
def readLevels (c : Conversions) (json : Json) :
    Except Fault (List KrakenBookEntry × List KrakenBookEntry) := do
  let asks ← json.element "as"
  let bids ← json.element "bs"
  let entries ← (List.range (max asks.size bids.size)).mapM fun i => do
    let ask ← readSide c asks i
    let bid ← readSide c bids i
    return (ask, bid)
  return (entries.filterMap (·.1), entries.filterMap (·.2))

/-- The member of an object with updates. -/
def updatesName (updateObject : Json) : String := if updateObject.hasMember "a" then "a" else "b"

/-- What `process_order_book_updates` reads. -/
def readUpdates (c : Conversions) (updateObject : Json) : KrakenBookUpdates where
  hasAsks := updateObject.hasMember "a"
  entries := do
    let updateElement ← updateObject.element (updatesName updateObject)
    return updateElement.values.map (readBookEntry c)

/-- The updates at a position of a message. -/
def readUpdatesAt (c : Conversions) (index : ℤ) (json : Json) : KrakenBookUpdates :=
  match json.elementAt index with
  | .error fault => ⟨false, .error fault⟩
  | .ok updateObject => readUpdates c updateObject

/-- What `process_order_book_message` reads. -/
def readBook (c : Conversions) (json : Json) : KrakenBook :=
  if json.size = 4 then
    match json.elementAt 1 with
    | .error fault => .snapshot (.error fault)
    | .ok entryObject =>
      if entryObject.hasMember "as" then .snapshot (readLevels c entryObject)
      else .updates (readUpdates c entryObject)
  else .bothUpdates (readUpdatesAt c 1 json) (readUpdatesAt c 2 json)

/-- The branches of `on_message` for a channel. -/
def decodeChannel (c : Conversions) (channelName pairName : String) (json : Json) : KrakenMessage :=
  if channelName = "trade" then
    .trade pairName do
      let tradesArray ← json.elementAt 1
      return tradesArray.values.map (readTrade c)
  else if contains channelName "ohlc" then
    .ohlc pairName
      (do
        let _ ← json.elementAt 1
        readMinutes c channelName)
      (do
        let ohlcArray ← json.elementAt 1
        readOhlcv c ohlcArray)
  else if contains channelName "book" then .book pairName (readBook c json)
  else .other

/-- The names at the end of a message. -/
def readNames (json : Json) : Except Fault (String × String) := do
  let channelName ← json.getAt Json.asString (json.size - 2)
  let pairName ← json.getAt Json.asString (json.size - 1)
  return (channelName, pairName)

/-- What `on_message` makes of a document. -/
def decode (c : Conversions) (json : Json) : KrakenMessage :=
  match json with
  | .array _ =>
    match readNames json with
    | .error fault => .unreadable fault
    | .ok names => decodeChannel c names.1 names.2 json
  | _ => .event

end KrakenWebsocketStream

/-! ## Binance -/

namespace BinanceWebsocketStream

/-- What `process_trade_message` reads. -/
def readTrade (c : Conversions) (json : Json) : TradeMessage where
  symbol := json.get Json.asString "s"
  price := json.get (Json.asNumeral c) "p"
  volume := json.get (Json.asNumeral c) "q"
  time := json.get Json.asTime "T"

/-- What `process_ohlcv_message` reads. -/
def readKline (c : Conversions) (json : Json) : KlineMessage where
  symbol := json.get Json.asString "s"
  interval := json.element "k" >>= Json.get Json.asString "i"
  startTime := json.element "k" >>= Json.get Json.asTime "t"
  «open» := json.element "k" >>= Json.get (Json.asNumeral c) "o"
  high := json.element "k" >>= Json.get (Json.asNumeral c) "h"
  low := json.element "k" >>= Json.get (Json.asNumeral c) "l"
  close := json.element "k" >>= Json.get (Json.asNumeral c) "c"
  volume := json.element "k" >>= Json.get (Json.asNumeral c) "v"

/-- An entry in the loop of `process_order_book_element`. -/
def readDepthEntry (c : Conversions) (entryElement : Json) : DepthEntry := do
  let price ← entryElement.getAt (Json.asNumeral c) 0
  let volume ← entryElement.getAt (Json.asNumeral c) 1
  return (price, volume)

/-- One side of an update. -/
def readDepthSide (c : Conversions) (name : String) (json : Json) :
    Except Fault (List DepthEntry) := do
  let element ← json.element name
  return element.values.map (readDepthEntry c)

/-- What `process_order_book_message` reads. -/
def readDepthUpdate (c : Conversions) (json : Json) : DepthUpdate where
  symbol := json.get Json.asString "s"
  finalUpdateId := json.get Json.asTime "u"
  asks := readDepthSide c "a" json
  bids := readDepthSide c "b" json

/-- The branches of `on_message` for a channel. -/
def decodeChannel (c : Conversions) (channel : String) (json : Json) : BinanceMessage :=
  if channel = "trade" then .trade (readTrade c json)
  else if channel = "kline" then .kline (readKline c json)
  else if channel = "depthUpdate" then .depthUpdate (readDepthUpdate c json)
  else .other

/-- What `on_message` makes of a document. -/
def decode (c : Conversions) (json : Json) : BinanceMessage :=
  if json.hasMember "msg" then
    match json.get Json.asString "msg" with
    | .error fault => .unreadable fault
    | .ok text => .notice text
  else if json.hasMember "e" then
    match json.get Json.asString "e" with
    | .error fault => .unreadable fault
    | .ok channel => decodeChannel c channel json
  else .other

end BinanceWebsocketStream

/-! ## Bybit -/

namespace BybitWebsocketStream

/-- What `process_trade_message` reads. -/
def readTrade (c : Conversions) (json : Json) : Except Fault TradeUpdate := do
  let data ← json.element "data"
  let dataElement ← data.beginValue
  let price ← dataElement.get (Json.asNumeral c) "p"
  let volume ← dataElement.get (Json.asNumeral c) "q"
  let time ← dataElement.get Json.asTime "t"
  return ⟨time.tdiv 1000, price, volume⟩

/-- The candle that `process_ohlcv_message` reads. -/
def readOhlcv (c : Conversions) (json : Json) : Except Fault OhlcvData := do
  let data ← json.element "data"
  let dataElement ← data.beginValue
  let time ← dataElement.get Json.asTime "t"
  let «open» ← dataElement.get (Json.asNumeral c) "o"
  let high ← dataElement.get (Json.asNumeral c) "h"
  let low ← dataElement.get (Json.asNumeral c) "l"
  let close ← dataElement.get (Json.asNumeral c) "c"
  let volume ← dataElement.get (Json.asNumeral c) "v"
  return { timeStamp := time.tdiv 1000, «open», high, low, close, volume }

/-- The interval of Bybit's candles. -/
def readKlineType (json : Json) : Except Fault String := do
  let params ← json.element "params"
  params.get Json.asString "klineType"

/-- `create_order_book_entry`. -/
def readOrderBookEntry (c : Conversions) (entryElement : Json) : Except Fault (ℚ × ℚ) := do
  let price ← entryElement.getAt (Json.asNumeral c) 0
  let volume ← entryElement.getAt (Json.asNumeral c) 1
  return (price, volume)

/-- The entries of one side, as the loops come to them. -/
def readSide (c : Conversions) (entries : Json) : List (Except Fault (ℚ × ℚ)) :=
  (List.range entries.size).map fun i : ℕ => do
    let element ← entries.elementAt i
    readOrderBookEntry c element

/-- What `process_order_book_message` reads. -/
def readBook (c : Conversions) (json : Json) : Except Fault BybitBook := do
  let data ← json.element "data"
  let dataElement ← data.beginValue
  let timeStamp ← dataElement.get Json.asTime "t"
  let asksElement ← dataElement.element "a"
  let bidsElement ← dataElement.element "b"
  let isFull ← json.get Json.asBool "f"
  return { timeStamp, isFull, asks := readSide c asksElement, bids := readSide c bidsElement }

/-- The part of `on_message` that logs an error. -/
def readCode (json : Json) : Except Fault Unit :=
  if json.hasMember "code" then do
    let errorCode ← json.get Json.asString "code"
    if errorCode ≠ "0" then
      let _ ← json.get Json.asString "desc"
      return ()
    else return ()
  else .ok ()

/-- The symbol and the topic of a message. -/
def readTopic (json : Json) : Except Fault (String × String) := do
  readCode json
  let symbol ← json.get Json.asString "symbol"
  let topic ← json.get Json.asString "topic"
  return (symbol, topic)

/-- What `on_message` makes of a document. -/
def decode (c : Conversions) (json : Json) : BybitMessage :=
  match readTopic json with
  | .error fault => .unreadable fault
  | .ok (symbol, topic) =>
    if topic = "trade" then .trade symbol (readTrade c json)
    else if topic = "kline" then .kline symbol (readOhlcv c json) (readKlineType json)
    else if topic = "diffDepth" then .diffDepth symbol (readBook c json)
    else .other

end BybitWebsocketStream

/-! ## Digifinex -/

namespace DigifinexWebsocketStream

/-- A trade of `process_trade_message`. -/
def readTrade (c : Conversions) (trade : Json) : Except Fault TradeUpdate := do
  let price ← trade.get (Json.asNumeral c) "price"
  let volume ← trade.get (Json.asNumeral c) "amount"
  let time ← trade.get Json.asTime "time"
  return ⟨time, price, volume⟩

/-- The trades of a pair, of which an index is read that only an array can have. -/
def tradesOf (c : Conversions) : Json → List (Except Fault TradeUpdate)
  | .array trades => trades.map (readTrade c)
  | _ => [.error .otherException]

/-- The parameters that `process_trade_message` reads. -/
def readTrades (c : Conversions) (json : Json) : Except Fault DigifinexTrades := do
  let paramsElement ← json.element "params"
  let tradesElement ← paramsElement.elementAt 1
  let pairName ← paramsElement.getAt Json.asString 2
  return { pairName, trades := tradesOf c tradesElement }

/-- What `on_message` makes of a document. -/
def decode (c : Conversions) (json : Json) : DigifinexMessage :=
  match json.get Json.asString "method" with
  | .error fault => .unreadable fault
  | .ok method =>
    if method = "trades.update" then .tradesUpdate (readTrades c json) else .other

end DigifinexWebsocketStream

end MarketBlocks
