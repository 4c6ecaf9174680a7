import MarketBlocks.Exchanges.Results

/-!
# Kraken answers

An answer has its errors in the member `error`, and what was asked for in the member `result`.
-/

namespace MarketBlocks.Kraken

open Library

/-- The first error, if there are any. -/
def getError (json : Json) : Except Fault String := do
  let messages ← json.get Json.asStrings "error"
  return messages.headD ""

/-- The part of `read_result` that does not depend on the type. -/
def readDocument {α : Type} (reader : Json → Except Fault α) (jsonResult : Answer) :
    Except Fault (Result α) :=
  catching do
    let json ← jsonResult
    let error ← getError json
    if error ≠ "" then return .error (.message error)
    else
      let value ← reader json
      return .ok value

/-- `read_result`, which reads the member `result` of a document without errors. -/
def readResult {α : Type} (reader : Json → Except Fault α) : Answer → Except Fault (Result α) :=
  readDocument fun json => do
    let result ← json.element "result"
    reader result

/-- Without errors a document gives what the reader makes of its result. -/
theorem readResult_return {α : Type} {reader : Json → Except Fault α} {value : α}
    {json result : Json} (herror : json.member "error" = some (.array []))
    (hresult : json.member "result" = some result) :
    readResult reader (.ok json) = .ok (.ok value) ↔ reader result = .ok value := by
  have hget : getError json = .ok "" := by
    rw [getError, Json.get_of_member herror]
    rfl
  have hread : readResult reader (.ok json) =
      catching (reader result >>= fun value => .ok (.ok value)) := by
    change catching (getError json >>= _) = _
    rw [hget]
    change catching ((json.element "result" >>= reader) >>= _) = _
    rw [Json.element_of_member hresult]
    rfl
  rw [hread, catching_return]

/-- The first of the closing prices. -/
def readTickerPrice (c : Conversions) (tickerElement : Json) : Except Fault ℚ := do
  let closes ← tickerElement.get Json.asStrings "c"
  let last ← at? closes 0
  Json.asNumeral c (.string last)

/-- `to_order_type`. -/
def toOrderType (orderTypeString : String) : Except Fault OrderType :=
  if orderTypeString = "limit" then .ok .limit
  else if orderTypeString = "market" then .ok .market
  else if contains orderTypeString "stop-loss" then .ok .stopLoss
  else if contains orderTypeString "take-profit" then .ok .takeProfit
  else .error .otherException

/-- An order that has its status still, the part of the loop body behind the comparison. -/
def readOrderDescription (c : Conversions) (orderId : String) (order : Json) :
    Except Fault OrderDescription := do
  let description ← order.element "descr"
  let pairName ← description.get Json.asString "pair"
  let type ← description.get Json.asString "type"
  let price ← description.get (Json.asNumeral c) "price"
  let volume ← order.get (Json.asNumeral c) "vol"
  let time ← order.get Json.asTime "opentm"
  let orderType ← order.get Json.asString "ordertype" >>= toOrderType
  let action := if type = "buy" then TradeAction.buy else .sell
  return ⟨time, orderId, orderType, pairName, action, price, volume⟩

/-- The body of the loop of `read_open_closed_orders`. -/
def readOrder (c : Conversions) (orderStatus : String) (entry : Except Fault String × Json) :
    Except Fault (Option OrderDescription) := do
  let orderId ← entry.1
  let status ← entry.2.get Json.asString "status"
  if status = orderStatus then
    let order ← readOrderDescription c orderId entry.2
    return some order
  else return none

/-- `read_open_closed_orders`, which skips what is no such order. -/
def readOpenClosedOrders (c : Conversions) (orderStatus : String) :
    Answer → Except Fault (Result (List OrderDescription)) :=
  readResult fun resultElement => do
    let ordersElement ← resultElement.element orderStatus
    let orders ← ordersElement.items.mapM (readOrder c orderStatus)
    return orders.filterMap id

/-- `read_system_status`; an unknown status counts as maintenance. -/
def readSystemStatus : Answer → Except Fault (Result ExchangeStatus) :=
  readResult fun resultElement => do
    let status ← resultElement.get Json.asString "status"
    return if status = "online" then .online
      else if status = "cancel_only" then .cancelOnly
      else if status = "post_only" then .postOnly
      else .maintenance

/-- `read_tradable_pair`, which splits the name at its slash. -/
def readTradablePair (pairElement : Json) : Except Fault TradablePair := do
  let wsname ← pairElement.get Json.asString "wsname"
  let assetSymbols := split wsname '/'
  let (asset, priceUnit) ← arguments (at? assetSymbols 0) (at? assetSymbols 1)
  return ⟨asset, priceUnit⟩

/-- `read_tradable_pairs`. -/
def readTradablePairs : Answer → Except Fault (Result (List TradablePair)) :=
  readResult fun resultElement => resultElement.values.mapM readTradablePair

/-- A candle is an array; the sixth entry, an average, is skipped. -/
def readOhlcvElement (c : Conversions) (dataElement : Json) : Except Fault OhlcvData := do
  let (timeStamp, «open», high, low, close, volume) ←
    arguments (dataElement.getAt Json.asTime 0)
      (arguments (dataElement.getAt (Json.asNumeral c) 1)
        (arguments (dataElement.getAt (Json.asNumeral c) 2)
          (arguments (dataElement.getAt (Json.asNumeral c) 3)
            (arguments (dataElement.getAt (Json.asNumeral c) 4)
              (dataElement.getAt (Json.asNumeral c) 6)))))
  return { timeStamp, «open», high, low, close, volume }

/-- The candles are listed from the oldest on, and read from the newest on. -/
def readOhlcvData (c : Conversions) (count : ℤ) : Answer → Except Fault (Result (List OhlcvData)) :=
  readResult fun resultElement => do
    let pairElement ← resultElement.beginValue
    let limit := min (pairElement.size : ℤ) count
    reserve limit
    (List.range limit.toNat).mapM fun i : ℕ => do
      let dataElement ← pairElement.elementAt (pairElement.size - i - 1)
      readOhlcvElement c dataElement

/-- `read_price`, of the first ticker. -/
def readPrice (c : Conversions) : Answer → Except Fault (Result ℚ) :=
  readResult fun resultElement => do
    let ticker ← resultElement.beginValue
    readTickerPrice c ticker

/-- The price of a ticker under its name. -/
def readNamedPrice (c : Conversions) (entry : Except Fault String × Json) :
    Except Fault (String × ℚ) :=
  arguments entry.1 (readTickerPrice c entry.2)

/-- `read_prices`, by Kraken's names. -/
def readPrices (c : Conversions) : Answer → Except Fault (Result (UnorderedMap String ℚ)) :=
  readResult fun resultElement => do
    let prices ← resultElement.items.mapM (readNamedPrice c)
    return collect prices

/-- The entry of one side of a book that a turn of the loop reads. -/
def readOrderBookEntry (c : Conversions) (side : OrderBookSide) (entryElement : Json) :
    Except Fault OrderBookEntry := do
  let (price, volume) ←
    arguments (entryElement.getAt (Json.asNumeral c) 0) (entryElement.getAt (Json.asNumeral c) 1)
  return ⟨price, volume, side⟩

/-- The body of the loop of `read_order_book`: an ask, a bid and the later one of their times. -/
def readOrderBookRow (c : Conversions) (asks bids : Json) (i : ℕ) :
    Except Fault (OrderBookEntry × OrderBookEntry × ℤ) := do
  let askElement ← asks.elementAt i
  let ask ← readOrderBookEntry c .ask askElement
  let bidElement ← bids.elementAt i
  let bid ← readOrderBookEntry c .bid bidElement
  let (askTime, bidTime) ←
    arguments (askElement.getAt Json.asTime 2) (bidElement.getAt Json.asTime 2)
  return (ask, bid, max askTime bidTime)

/-- Both sides are read as far as the asks go. -/
def readOrderBook (c : Conversions) : Answer → Except Fault (Result OrderBookState) :=
  readResult fun resultElement => do
    let bookElement ← resultElement.beginValue
    let asks ← bookElement.element "asks"
    let bids ← bookElement.element "bids"
    let rows ← (List.range asks.size).mapM (readOrderBookRow c asks bids)
    return ⟨(rows.map (·.2.2)).foldl max 0, rows.map (·.1), rows.map (·.2.1)⟩

/-- A balance under the name of its asset. -/
def readBalance (c : Conversions) (entry : Except Fault String × Json) : Except Fault (String × ℚ) :=
  arguments entry.1 (Json.asNumeral c entry.2)

/-- `read_balances`. -/
def readBalances (c : Conversions) : Answer → Except Fault (Result (UnorderedMap String ℚ)) :=
  readResult fun resultElement => do
    let balances ← resultElement.items.mapM (readBalance c)
    return collect balances

/-- `read_fee`: the first of the fees. -/
def readFee (c : Conversions) : Answer → Except Fault (Result ℚ) :=
  readResult fun resultElement => do
    let fees ← resultElement.element "fees"
    let feeElement ← fees.beginValue
    feeElement.get (Json.asNumeral c) "fee"

/-- `read_open_orders`. -/
def readOpenOrders (c : Conversions) : Answer → Except Fault (Result (List OrderDescription)) :=
  readOpenClosedOrders c "open"

/-- `read_closed_orders`. -/
def readClosedOrders (c : Conversions) : Answer → Except Fault (Result (List OrderDescription)) :=
  readOpenClosedOrders c "closed"

/-- `read_add_order`: the first of the ids. -/
def readAddOrder : Answer → Except Fault (Result String) :=
  readResult fun resultElement => do
    let ids ← resultElement.get Json.asStrings "txid"
    at? ids 0

/-- `read_cancel_order`, of which only the errors are read. -/
def readCancelOrder : Answer → Except Fault (Result Unit) := readDocument fun _ => .ok ()

end MarketBlocks.Kraken
