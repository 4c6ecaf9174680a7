import MarketBlocks.Exchanges.Results

/-!
# Bybit answers

An answer has a return code, which is zero when it is no error, and what was asked for in the member
`result`.
-/

namespace MarketBlocks.Bybit

open Library

/-- The part of `read_result` that does not depend on the type. -/
def readDocument {α : Type} (reader : Json → Except Fault α) (jsonResult : Answer) :
    Except Fault (Result α) :=
  catching do
    let json ← jsonResult
    let code ← json.get Json.asInt "ret_code"
    if code ≠ 0 then
      let message ← json.get Json.asString "ret_msg"
      return .error (.message message)
    else
      let value ← reader json
      return .ok value

/-- `read_result`, which reads the member `result` of a document with the code 0. -/
def readResult {α : Type} (reader : Json → Except Fault α) : Answer → Except Fault (Result α) :=
  readDocument fun json => do
    let result ← json.element "result"
    reader result

/-- With the code 0 a document gives what the reader makes of its result. -/
theorem readResult_return {α : Type} {reader : Json → Except Fault α} {value : α}
    {json result : Json} (hcode : json.member "ret_code" = some (.integer 0))
    (hresult : json.member "result" = some result) :
    readResult reader (.ok json) = .ok (.ok value) ↔ reader result = .ok value := by
  have hread : readResult reader (.ok json) =
      catching (reader result >>= fun value => .ok (.ok value)) := by
    change catching (json.get Json.asInt "ret_code" >>= _) = _
    rw [Json.get_of_member hcode]
    change catching ((json.element "result" >>= reader) >>= _) = _
    rw [Json.element_of_member hresult]
    rfl
  rw [hread, catching_return]

/-- `to_trade_action`; what is not a buy counts as a sell. -/
def toTradeAction (sideString : String) : TradeAction := if sideString = "BUY" then .buy else .sell

/-- An entry of a book is an array of texts. -/
def readOrderBookEntry (c : Conversions) (side : OrderBookSide) (entryElement : Json) :
    Except Fault OrderBookEntry := do
  let price ← entryElement.getAt (Json.asNumeral c) 0
  let volume ← entryElement.getAt (Json.asNumeral c) 1
  return ⟨price, volume, side⟩

/-- The volume of an order; that of a market buy is given in the price unit. -/
def readVolume (action : TradeAction) (price qty : ℚ) (orderElement : Json) : Except Fault ℚ :=
  if action = .buy then do
    let type ← orderElement.get Json.asString "type"
    return if type = "MARKET" then calculateVolume price qty else qty
  else .ok qty

/-- `read_order_description`. -/
def readOrderDescription (c : Conversions) (orderElement : Json) :
    Except Fault OrderDescription := do
  let side ← orderElement.get Json.asString "side"
  let action := toTradeAction side
  let price ← orderElement.get (Json.asNumeral c) "price"
  let qty ← orderElement.get (Json.asNumeral c) "origQty"
  let volume ← readVolume action price qty orderElement
  let time ← orderElement.get (Json.asTimeNumeral c) "time"
  let orderId ← orderElement.get Json.asString "orderId"
  let type ← orderElement.get Json.asString "type"
  let pairName ← orderElement.get Json.asString "symbol"
  let orderType := if type = "LIMIT" then OrderType.limit else .market
  return ⟨time.tdiv 1000, orderId, orderType, pairName, action, price, volume⟩

/-- `read_system_status`: any answer with the code 0 will do. -/
def readSystemStatus : Answer → Except Fault (Result ExchangeStatus) :=
  readResult fun _ => .ok .online

/-- `read_tradable_pair`. -/
def readTradablePair (pairElement : Json) : Except Fault TradablePair := do
  let asset ← pairElement.get Json.asString "baseCurrency"
  let priceUnit ← pairElement.get Json.asString "quoteCurrency"
  return ⟨asset, priceUnit⟩

/-- `read_tradable_pairs`. -/
def readTradablePairs : Answer → Except Fault (Result (List TradablePair)) :=
  readResult fun resultElement => resultElement.values.mapM readTradablePair

/-- A candle is an array of the time and five texts. -/
def readOhlcvElement (c : Conversions) (ohlcvElement : Json) : Except Fault OhlcvData := do
  let (time, «open», high, low, close, volume) ←
    arguments (ohlcvElement.getAt Json.asTime 0)
      (arguments (ohlcvElement.getAt (Json.asNumeral c) 1)
        (arguments (ohlcvElement.getAt (Json.asNumeral c) 2)
          (arguments (ohlcvElement.getAt (Json.asNumeral c) 3)
            (arguments (ohlcvElement.getAt (Json.asNumeral c) 4)
              (ohlcvElement.getAt (Json.asNumeral c) 5)))))
  return { timeStamp := time.tdiv 1000, «open», high, low, close, volume }

/-- Every candle is put in front of those before it. -/
def readOhlcv (c : Conversions) : Answer → Except Fault (Result (List OhlcvData)) :=
  readResult fun resultElement => do
    let ohlcvData ← resultElement.values.mapM (readOhlcvElement c)
    return ohlcvData.reverse

/-- `read_price`. -/
def readPrice (c : Conversions) : Answer → Except Fault (Result ℚ) :=
  readResult fun resultElement => resultElement.get (Json.asNumeral c) "price"

/-- The entry that a turn of the loop reads with the iterator of one side of a book. -/
def readSide (c : Conversions) (side : OrderBookSide) (entries : Json) (i : ℕ) :
    Except Fault (Option OrderBookEntry) :=
  match entries.values[i]? with
  | some element => do
    let entry ← readOrderBookEntry c side element
    return some entry
  | none => .ok none

/-- `read_order_book`: the two sides are read in turns. -/
def readOrderBook (c : Conversions) : Answer → Except Fault (Result OrderBookState) :=
  readResult fun resultElement => do
    let asksElement ← resultElement.element "asks"
    let bidsElement ← resultElement.element "bids"
    let entries ← (List.range (max asksElement.size bidsElement.size)).mapM fun i => do
      let ask ← readSide c .ask asksElement i
      let bid ← readSide c .bid bidsElement i
      return (ask, bid)
    let time ← resultElement.get Json.asTime "time"
    return ⟨time.tdiv 1000, entries.filterMap (·.1), entries.filterMap (·.2)⟩

/-- What is free of a coin. -/
def readBalance (c : Conversions) (assetElement : Json) : Except Fault (String × ℚ) := do
  let asset ← assetElement.get Json.asString "coin"
  let balance ← assetElement.get (Json.asNumeral c) "free"
  return (asset, balance)

/-- `read_balances`. -/
def readBalances (c : Conversions) : Answer → Except Fault (Result (UnorderedMap String ℚ)) :=
  readResult fun resultElement => do
    let balancesElement ← resultElement.element "balances"
    let balances ← balancesElement.values.mapM (readBalance c)
    return collect balances

/-- `read_open_orders`. -/
def readOpenOrders (c : Conversions) : Answer → Except Fault (Result (List OrderDescription)) :=
  readResult fun resultElement => resultElement.values.mapM (readOrderDescription c)

/-- The body of the loop of `read_closed_orders`. -/
def readClosedOrder (c : Conversions) (orderElement : Json) :
    Except Fault (Option OrderDescription) := do
  let status ← orderElement.get Json.asString "status"
  if status = "FILLED" then
    let order ← readOrderDescription c orderElement
    return some order
  else return none

/-- `read_closed_orders`, without those that are not closed. -/
def readClosedOrders (c : Conversions) : Answer → Except Fault (Result (List OrderDescription)) :=
  readResult fun resultElement => do
    let orders ← resultElement.values.mapM (readClosedOrder c)
    return orders.filterMap id

/-- `read_add_order`. -/
def readAddOrder : Answer → Except Fault (Result String) :=
  readResult fun resultElement => resultElement.get Json.asString "orderId"

/-- `read_cancel_order`, of which only the errors are read. -/
def readCancelOrder : Answer → Except Fault (Result Unit) := readDocument fun _ => .ok ()

end MarketBlocks.Bybit
