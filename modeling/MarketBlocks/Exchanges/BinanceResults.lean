import MarketBlocks.Exchanges.Results

/-!
# Binance answers

An answer with the member `code` reports an error.
-/

namespace MarketBlocks.Binance

open Library

/-- `read_result`: a member `code` makes the document an error. -/
def readResult {α : Type} (reader : Json → Except Fault α) (jsonResult : Answer) :
    Except Fault (Result α) :=
  catching do
    let json ← jsonResult
    if json.hasMember "code" then
      let message ← json.get Json.asString "msg"
      return .error (.message message)
    else
      let value ← reader json
      return .ok value

/-- A document without a code gives what its reader makes of it. -/
theorem readResult_return {α : Type} {reader : Json → Except Fault α} {value : α}
    {json : Json} (hcode : json.hasMember "code" = false) :
    readResult reader (.ok json) = .ok (.ok value) ↔ reader json = .ok value := by
  have hread : readResult reader (.ok json) =
      catching (reader json >>= fun value => .ok (.ok value)) := by
    change catching (if json.hasMember "code" then _ else _) = _
    rw [if_neg (Bool.eq_false_iff.mp hcode)]
    rfl
  rw [hread, catching_return]

/-- An entry of a book is an array of texts. -/
def readOrderBookEntry (c : Conversions) (side : OrderBookSide) (element : Json) :
    Except Fault OrderBookEntry := do
  let price ← element.getAt (Json.asNumeral c) 0
  let volume ← element.getAt (Json.asNumeral c) 1
  return ⟨price, volume, side⟩

/-- `to_trade_action`; what is not a buy counts as a sell. -/
def toTradeAction (action : String) : TradeAction := if action = "BUY" then .buy else .sell

/-- `to_order_type`, by parts of the name for orders with a stop. -/
def toOrderType (orderTypeString : String) : Except Fault OrderType :=
  if orderTypeString = "LIMIT" then .ok .limit
  else if orderTypeString = "MARKET" then .ok .market
  else if contains orderTypeString "STOP_LOSS" then .ok .stopLoss
  else if contains orderTypeString "TAKE_PROFIT" then .ok .takeProfit
  else .error .otherException

/-- `to_order_status`; what is unknown counts as cancelled. -/
def toOrderStatus (statusString : String) : OrderStatus :=
  if statusString = "NEW" then .open
  else if statusString = "PARTIALLY_FILLED" then .partiallyFilled
  else if statusString = "FILLED" then .closed
  else .cancelled

/-- `read_order_description`. -/
def readOrderDescription (c : Conversions) (orderElement : Json) :
    Except Fault OrderDescription := do
  let time ← orderElement.get Json.asTime "time"
  let orderId ← orderElement.get Json.asTime "orderId"
  let orderType ← orderElement.get Json.asString "type" >>= toOrderType
  let pairName ← orderElement.get Json.asString "symbol"
  let side ← orderElement.get Json.asString "side"
  let price ← orderElement.get (Json.asNumeral c) "price"
  let volume ← orderElement.get (Json.asNumeral c) "origQty"
  return ⟨time.tdiv 1000, toString orderId, orderType, pairName, toTradeAction side, price, volume⟩

/-- `read_system_status`: any answer without a code will do. -/
def readSystemStatus : Answer → Except Fault (Result ExchangeStatus) :=
  readResult fun _ => .ok .online

/-- `binance_order_filters`. -/
structure BinanceOrderFilters where
  pricePrecision : ℤ
  qtyPrecision : ℤ
  minQty : ℚ
  minValue : ℚ
  deriving DecidableEq, Repr

/-- What the loop over the filters of a pair has found. -/
structure FilterValues where
  tickSize : ℚ := 0
  minQty : ℚ := 0
  qtyStepSize : ℚ := 0
  minValue : ℚ := 0

/-- The body of the loop over the filters of a pair: what it sets. -/
def readFilter (c : Conversions) (filter : Json) : Except Fault (FilterValues → FilterValues) := do
  let filterType ← filter.get Json.asString "filterType"
  if filterType = "PRICE_FILTER" then
    let tickSize ← filter.get (Json.asNumeral c) "tickSize"
    return fun values => { values with tickSize }
  else if filterType = "LOT_SIZE" then
    let minQty ← filter.get (Json.asNumeral c) "minQty"
    let qtyStepSize ← filter.get (Json.asNumeral c) "stepSize"
    return fun values => { values with minQty, qtyStepSize }
  else if filterType = "MIN_NOTIONAL" then
    let minValue ← filter.get (Json.asNumeral c) "minNotional"
    return fun values => { values with minValue }
  else return id

/-- The number of decimal places of a step size. -/
def readPrecision (c : Conversions) (step : ℚ) : Except Fault ℤ :=
  match c.precision step with
  | some precision => .ok precision
  | none => .error .undefined

/-- The loop over the filters of a pair, and what is made of the values that it finds. -/
def readFilters (c : Conversions) (filtersElement : Json) : Except Fault BinanceOrderFilters := do
  let found ← filtersElement.values.mapM (readFilter c)
  let values := found.foldl (fun values set => set values) {}
  let pricePrecision ← readPrecision c values.tickSize
  let qtyPrecision ← readPrecision c values.qtyStepSize
  return ⟨pricePrecision, qtyPrecision, values.minQty, values.minValue⟩

/-- `read_tradable_pair`, with the filters of the pair. -/
def readTradablePair (c : Conversions) (pairElement : Json) :
    Except Fault (TradablePair × BinanceOrderFilters) := do
  let asset ← pairElement.get Json.asString "baseAsset"
  let priceUnit ← pairElement.get Json.asString "quoteAsset"
  let filtersElement ← pairElement.element "filters"
  let filters ← readFilters c filtersElement
  return (⟨asset, priceUnit⟩, filters)

/-- `read_tradable_pairs`, by pair. -/
def readTradablePairs (c : Conversions) :
    Answer → Except Fault (Result (UnorderedMap TradablePair BinanceOrderFilters)) :=
  readResult fun json => do
    let symbolsElement ← json.element "symbols"
    let pairs ← symbolsElement.values.mapM (readTradablePair c)
    return collect pairs

/-- A candle is an array of the time and five texts. -/
def readOhlcvElement (c : Conversions) (ohlcvElement : Json) : Except Fault OhlcvData := do
  let (time, «open», high, low, close, volume) ←
    arguments (ohlcvElement.getAt Json.asTime 0)
      (arguments (ohlcvElement.getAt (Json.asNumeral c) 1)
        (arguments (ohlcvElement.getAt (Json.asNumeral c) 2)
          (arguments (ohlcvElement.getAt (Json.asNumeral c) 3)
            (arguments (ohlcvElement.getAt (Json.asNumeral c) 4)
              (ohlcvElement.getAt (Json.asNumeral c) 5)))))
  return { timeStamp := time.tdiv 1000, «open», high, low, close, volume }

/-- Every candle is put in front of those before it. -/
def readOhlcv (c : Conversions) : Answer → Except Fault (Result (List OhlcvData)) :=
  readResult fun json => do
    let data ← json.values.mapM (readOhlcvElement c)
    return data.reverse

/-- `read_price`. -/
def readPrice (c : Conversions) : Answer → Except Fault (Result ℚ) :=
  readResult fun json => json.get (Json.asNumeral c) "price"

/-- A price under the name of its pair. -/
def readNamedPrice (c : Conversions) (priceElement : Json) : Except Fault (String × ℚ) :=
  arguments (priceElement.get Json.asString "symbol") (priceElement.get (Json.asNumeral c) "price")

/-- `read_prices`, by Binance's names. -/
def readPrices (c : Conversions) : Answer → Except Fault (Result (UnorderedMap String ℚ)) :=
  readResult fun json => do
    let prices ← json.values.mapM (readNamedPrice c)
    return collect prices

/-- The entry that a turn of the loop reads with the iterator of one side of a book. -/
def readSide (c : Conversions) (side : OrderBookSide) (entries : Json) (i : ℕ) :
    Except Fault (Option OrderBookEntry) :=
  match entries.values[i]? with
  | some element => do
    let entry ← readOrderBookEntry c side element
    return some entry
  | none => .ok none

/-- `read_order_book`: the two sides are read in turns. -/
def readOrderBook (c : Conversions) : Answer → Except Fault (Result OrderBookState) :=
  readResult fun json => do
    let asksElement ← json.element "asks"
    let bidsElement ← json.element "bids"
    let entries ← (List.range (max asksElement.size bidsElement.size)).mapM fun i => do
      let ask ← readSide c .ask asksElement i
      let bid ← readSide c .bid bidsElement i
      return (ask, bid)
    let lastUpdateId ← json.get Json.asTime "lastUpdateId"
    return ⟨lastUpdateId, entries.filterMap (·.1), entries.filterMap (·.2)⟩

/-- `read_fee`, given in hundredths of a percent. -/
def readFee : Answer → Except Fault (Result ℚ) :=
  readResult fun json => do
    let takerCommission ← json.get Json.asDouble "takerCommission"
    return takerCommission / 100

/-- What is free of an asset. -/
def readBalance (c : Conversions) (balanceElement : Json) : Except Fault (String × ℚ) := do
  let asset ← balanceElement.get Json.asString "asset"
  let balance ← balanceElement.get (Json.asNumeral c) "free"
  return (asset, balance)

/-- `read_balances`. -/
def readBalances (c : Conversions) : Answer → Except Fault (Result (UnorderedMap String ℚ)) :=
  readResult fun json => do
    let balancesElement ← json.element "balances"
    let balances ← balancesElement.values.mapM (readBalance c)
    return collect balances

/-- `read_open_orders`. -/
def readOpenOrders (c : Conversions) : Answer → Except Fault (Result (List OrderDescription)) :=
  readResult fun json => json.values.mapM (readOrderDescription c)

/-- The closed orders are not implemented: the reader throws whatever the answer is. -/
def readClosedOrders (_jsonResult : Answer) : Except Fault (Result (List OrderDescription)) :=
  .error .otherException

/-- `read_add_order`: the number of the order as a text. -/
def readAddOrder : Answer → Except Fault (Result String) :=
  readResult fun json => do
    let orderId ← json.get Json.asTime "orderId"
    return toString orderId

/-- A fill of a confirmed order. -/
def readFill (c : Conversions) (fill : Json) : Except Fault (ℚ × ℚ) := do
  let price ← fill.get (Json.asNumeral c) "price"
  let qty ← fill.get (Json.asNumeral c) "qty"
  return (price, qty)

/-- The average price of no fills is not a number in the source. -/
def readAddOrderConfirm (c : Conversions) : Answer → Except Fault (Result OrderConfirmation) :=
  readResult fun json => do
    let fillsElement ← json.element "fills"
    let fills ← fillsElement.values.mapM (readFill c)
    let filledQty := (fills.map (·.2)).sum
    let avgPrice := (fills.map fun fill => fill.1 * fill.2).sum / filledQty
    let orderId ← json.get Json.asTime "orderId"
    let status ← json.get Json.asString "status"
    let origQty ← json.get (Json.asNumeral c) "origQty"
    let executedQty ← json.get (Json.asNumeral c) "executedQty"
    return ⟨toString orderId, toOrderStatus status, origQty, executedQty, avgPrice⟩

/-- `read_cancel_order`, of which only the errors are read. -/
def readCancelOrder : Answer → Except Fault (Result Unit) := readResult fun _ => .ok ()

end MarketBlocks.Binance
