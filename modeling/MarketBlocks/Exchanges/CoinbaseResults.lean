import MarketBlocks.Exchanges.Results

/-!
# Coinbase answers

An answer with the member `message` reports an error.
-/

namespace MarketBlocks.Coinbase

open Library

/-- `read_result`: a member `message` makes the document an error. -/
def readResult {α : Type} (reader : Json → Except Fault α) (jsonResult : Answer) :
    Except Fault (Result α) :=
  catching do
    let json ← jsonResult
    if json.hasMember "message" then
      let message ← json.get Json.asString "message"
      return .error (.message message)
    else
      let value ← reader json
      return .ok value

/-- A document without a message gives what its reader makes of it. -/
theorem readResult_return {α : Type} {reader : Json → Except Fault α} {value : α}
    {json : Json} (hmessage : json.hasMember "message" = false) :
    readResult reader (.ok json) = .ok (.ok value) ↔ reader json = .ok value := by
  have hread : readResult reader (.ok json) =
      catching (reader json >>= fun value => .ok (.ok value)) := by
    change catching (if json.hasMember "message" then _ else _) = _
    rw [if_neg (Bool.eq_false_iff.mp hmessage)]
    rfl
  rw [hread, catching_return]

/-- `to_trade_action`; what is not a buy counts as a sell. -/
def toTradeAction (actionString : String) : TradeAction :=
  if actionString = "buy" then .buy else .sell

/-- The source returns nothing for any other type. -/
def toOrderType (orderTypeString : String) : Except Fault OrderType :=
  if orderTypeString = "limit" then .ok .limit
  else if orderTypeString = "market" then .ok .market
  else if orderTypeString = "stop" then .ok .stopLoss
  else .error .undefined

/-- `read_tradable_pair`. -/
def readTradablePair (pairElement : Json) : Except Fault TradablePair := do
  let asset ← pairElement.get Json.asString "base_currency"
  let priceUnit ← pairElement.get Json.asString "quote_currency"
  return ⟨asset, priceUnit⟩

/-- `read_tradable_pairs`. -/
def readTradablePairs : Answer → Except Fault (Result (List TradablePair)) :=
  readResult fun json => json.values.mapM readTradablePair

/-- A candle is an array of numbers, low before high. -/
def readOhlcvElement (dataElement : Json) : Except Fault OhlcvData := do
  let (timeStamp, «open», high, low, close, volume) ←
    arguments (dataElement.getAt Json.asTime 0)
      (arguments (dataElement.getAt Json.asDouble 3)
        (arguments (dataElement.getAt Json.asDouble 2)
          (arguments (dataElement.getAt Json.asDouble 1)
            (arguments (dataElement.getAt Json.asDouble 4) (dataElement.getAt Json.asDouble 5)))))
  return { timeStamp, «open», high, low, close, volume }

/-- `read_ohlcv_data`: no more candles than were asked for. -/
def readOhlcvData (count : ℤ) : Answer → Except Fault (Result (List OhlcvData)) :=
  readResult fun json => do
    let limit := min (json.size : ℤ) count
    reserve limit
    (List.range limit.toNat).mapM fun i : ℕ => do
      let dataElement ← json.elementAt i
      readOhlcvElement dataElement

/-- `read_price`. -/
def readPrice (c : Conversions) : Answer → Except Fault (Result ℚ) :=
  readResult fun json => json.get (Json.asNumeral c) "price"

/-- An entry of a book is an array of texts. -/
def readOrderBookEntry (c : Conversions) (side : OrderBookSide) (entryElement : Json) :
    Except Fault OrderBookEntry := do
  let (price, volume) ←
    arguments (entryElement.getAt (Json.asNumeral c) 0) (entryElement.getAt (Json.asNumeral c) 1)
  return ⟨price, volume, side⟩

/-- The entry that a turn of the loop reads from one side of a book. -/
def readSide (c : Conversions) (side : OrderBookSide) (entries : Json) (i : ℕ) :
    Except Fault (Option OrderBookEntry) :=
  if i < entries.size then do
    let element ← entries.elementAt i
    let entry ← readOrderBookEntry c side element
    return some entry
  else .ok none

/-- The bids are given the side of an ask, and the asks that of a bid. -/
def readOrderBook (c : Conversions) (depth : ℤ) : Answer → Except Fault (Result OrderBookState) :=
  readResult fun json => do
    let bids ← json.element "bids"
    let asks ← json.element "asks"
    reserve depth
    let entries ← (List.range depth.toNat).mapM fun i => do
      let bid ← readSide c .ask bids i
      let ask ← readSide c .bid asks i
      return (ask, bid)
    let sequence ← json.get Json.asTime "sequence"
    return ⟨sequence, entries.filterMap (·.1), entries.filterMap (·.2)⟩

/-- `read_fee`, as a percentage. -/
def readFee (c : Conversions) : Answer → Except Fault (Result ℚ) :=
  readResult fun json => do
    let rate ← json.get (Json.asNumeral c) "taker_fee_rate"
    return rate * 100

/-- The balance of a currency. -/
def readBalance (c : Conversions) (balanceElement : Json) : Except Fault (String × ℚ) :=
  arguments (balanceElement.get Json.asString "currency")
    (balanceElement.get (Json.asNumeral c) "balance")

/-- `read_balances`. -/
def readBalances (c : Conversions) : Answer → Except Fault (Result (UnorderedMap String ℚ)) :=
  readResult fun json => do
    let balances ← json.values.mapM (readBalance c)
    return collect balances

/-- The price of an order, or what was paid for it and the size. -/
def readOrderPrice (c : Conversions) (size : ℚ) (orderElement : Json) : Except Fault ℚ :=
  if orderElement.hasMember "price" then orderElement.get (Json.asNumeral c) "price"
  else do
    let cost ←
      if orderElement.hasMember "funds" then orderElement.get (Json.asNumeral c) "funds"
      else orderElement.get (Json.asNumeral c) "executed_value"
    return calculateAssetPrice cost size

/-- `read_order`. -/
def readOrder (c : Conversions) (orderElement : Json) : Except Fault OrderDescription := do
  let size ← orderElement.get (Json.asNumeral c) "size"
  let price ← readOrderPrice c size orderElement
  let createdAt ← orderElement.get Json.asString "created_at"
  let (orderId, orderType, pairName, side) ←
    arguments (orderElement.get Json.asString "id")
      (arguments (orderElement.get Json.asString "type" >>= toOrderType)
        (arguments (orderElement.get Json.asString "product_id")
          (orderElement.get Json.asString "side")))
  return ⟨c.toTimeT createdAt, orderId, orderType, pairName, toTradeAction side, price, size⟩

/-- The orders of a list. -/
def readOrders (c : Conversions) : Answer → Except Fault (Result (List OrderDescription)) :=
  readResult fun json => json.values.mapM (readOrder c)

/-- `read_add_order`. -/
def readAddOrder : Answer → Except Fault (Result String) :=
  readResult fun json => json.get Json.asString "id"

/-- `read_cancel_order`, of which only the errors are read. -/
def readCancelOrder : Answer → Except Fault (Result Unit) := readResult fun _ => .ok ()

end MarketBlocks.Coinbase
