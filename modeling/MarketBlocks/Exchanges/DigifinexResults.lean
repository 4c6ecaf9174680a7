import Mathlib.Data.Finset.Dedup
import MarketBlocks.Exchanges.Results

/-!
# Digifinex answers

An answer has a code, which is zero when it is no error.
-/

namespace MarketBlocks.Digifinex

open Library

/-- The errors that have a text. -/
def errorMessages : List (ℤ × String) :=
  [
    (10001, "Wrong request method, please check it's a GET or POST request"),
    (10002, "Invalid ApiKey"),
    (10003, "Sign doesn't match"),
    (10004, "Illegal request parameters"),
    (10005, "Request frequency exceeds the limit"),
    (10006, "Unauthorized to execute this request"),
    (10007, "IP address Unauthorized"),
    (10008, "Timestamp for this request is invalid"),
    (10009, "Endpoint does not exist or missing ACCESS-KEY, please check endpoint URL"),
    (10011, "ApiKey expired. Please go to client side to re-create an ApiKey"),
    (20002, "Trade of this trading pair is suspended"),
    (20007, "Price precision error"),
    (20008, "Amount precision error"),
    (20009, "Amount is less than the minimum requirement"),
    (20010, "Cash Amount is less than the minimum requirement"),
    (20011, "Insufficient balance"),
    (20012, "Invalid trade type (valid value: buy/sell)"),
    (20013, "No order info found"),
    (20014, "Invalid date (Valid format: 2018-07-25)"),
    (20015, "Date exceeds the limit"),
    (20018, "Your have been banned for API trading by the system"),
    (20019, "Wrong trading pair symbol, correct format:\"base_quote\", e.g. \"btc_usdt\""),
    (20020,
      "You have violated the API trading rules and temporarily banned for trading. At " ++
      "present, we have certain restrictions on the user's transaction rate and withdrawal " ++
      "rate."),
    (20021, "Invalid currency"),
    (20022, "The ending timestamp must be larger than the starting timestamp"),
    (20023, "Invalid transfer type"),
    (20024, "Invalid amount"),
    (20025, "This currency is not transferable at the moment"),
    (20026, "Transfer amount exceed your balance"),
    (20027, "Abnormal account status"),
    (20028, "Blacklist for transfer"),
    (20029, "Transfer amount exceed your daily limit"),
    (20030, "You have no position on this trading pair"),
    (20032, "Withdrawal limited"),
    (20033, "Wrong Withdrawal ID"),
    (20034, "Withdrawal service of this crypto has been closed"),
    (20035, "Withdrawal limit"),
    (20036, "Withdrawal cancellation failed"),
    (20037,
      "The withdrawal address, Tag or chain type is not included in the withdrawal " ++
      "management list"),
    (20038, "The withdrawal address is not on the white list"),
    (20039, "Can't be canceled in current status"),
    (20040, "Withdraw too frequently; limitation: 3 times a minute, 100 times a day"),
    (20041, "Beyond the daily withdrawal limit"),
    (20042, "Current trading pair does not support API trading"),
    (50000, "Exception error"),
    (-99999, "This is an error")]

/-- `get_error_message`, of a code that is in the table or not. -/
def getErrorMessage (code : ℤ) : String :=
  match errorMessages.find? (·.1 = code) with
  | some entry => entry.2
  | none => "Unknown error occured. Error code: " ++ toString code

/-- `read_result`: a code other than 0 makes the document an error. -/
def readResult {α : Type} (reader : Json → Except Fault α) (jsonResult : Answer) :
    Except Fault (Result α) :=
  catching do
    let json ← jsonResult
    let errorCode ← json.get Json.asInt "code"
    if errorCode ≠ 0 then return .error (.message (getErrorMessage errorCode))
    else
      let value ← reader json
      return .ok value

/-- With the code 0 a document gives what its reader makes of it. -/
theorem readResult_return {α : Type} {reader : Json → Except Fault α} {value : α}
    {json : Json} (hcode : json.member "code" = some (.integer 0)) :
    readResult reader (.ok json) = .ok (.ok value) ↔ reader json = .ok value := by
  have hread : readResult reader (.ok json) =
      catching (reader json >>= fun value => .ok (.ok value)) := by
    change catching (json.get Json.asInt "code" >>= _) = _
    rw [Json.get_of_member hcode]
    rfl
  rw [hread, catching_return]

/-- `read_order_description`. -/
def readOrderDescription (orderElement : Json) : Except Fault OrderDescription := do
  let orderType ← orderElement.get Json.asString "type"
  let time ← orderElement.get Json.asTime "created_date"
  let orderId ← orderElement.get Json.asString "order_id"
  let pairName ← orderElement.get Json.asString "symbol"
  let price ← orderElement.get Json.asDouble "price"
  let volume ← orderElement.get Json.asDouble "amount"
  return ⟨time, orderId, if contains orderType "market" then .market else .limit, pairName,
    if contains orderType "buy" then .buy else .sell, price, volume⟩

/-- `read_system_status`: any answer with the code 0 will do. -/
def readSystemStatus : Answer → Except Fault (Result ExchangeStatus) :=
  readResult fun _ => .ok .online

/-- `read_tradable_pair`. -/
def readTradablePair (pairElement : Json) : Except Fault TradablePair := do
  let asset ← pairElement.get Json.asString "base_asset"
  let priceUnit ← pairElement.get Json.asString "quote_asset"
  return ⟨asset, priceUnit⟩

/-- The pairs go through an unordered set, so they come each once and in no particular order. -/
def readTradablePairs : Answer → Except Fault (Result (Finset TradablePair)) :=
  readResult fun json => do
    let resultElement ← json.element "symbol_list"
    let pairs ← resultElement.values.mapM readTradablePair
    return pairs.toFinset

/-- A candle is an array of numbers, its volume second and its open last. -/
def readOhlcvElement (ohlcvElement : Json) : Except Fault OhlcvData := do
  let (timeStamp, «open», high, low, close, volume) ←
    arguments (ohlcvElement.getAt Json.asTime 0)
      (arguments (ohlcvElement.getAt Json.asDouble 5)
        (arguments (ohlcvElement.getAt Json.asDouble 3)
          (arguments (ohlcvElement.getAt Json.asDouble 4)
            (arguments (ohlcvElement.getAt Json.asDouble 2)
              (ohlcvElement.getAt Json.asDouble 1)))))
  return { timeStamp, «open», high, low, close, volume }

/-- The candles are listed from the oldest on and read from there, and each is put in front of those
before it. -/
def readOhlcvData (count : ℤ) : Answer → Except Fault (Result (List OhlcvData)) :=
  readResult fun json => do
    let dataElement ← json.element "data"
    let limit := min (dataElement.size : ℤ) count
    reserve limit
    let data ← (List.range limit.toNat).mapM fun i : ℕ => do
      let ohlcvElement ← dataElement.elementAt i
      readOhlcvElement ohlcvElement
    return data.reverse

/-- `read_price`, of the first ticker. -/
def readPrice : Answer → Except Fault (Result ℚ) :=
  readResult fun json => do
    let ticker ← json.element "ticker"
    let tickerElement ← ticker.beginValue
    tickerElement.get Json.asDouble "last"

/-- An entry of a book is an array of numbers. -/
def readOrderBookEntry (side : OrderBookSide) (entryElement : Json) :
    Except Fault OrderBookEntry := do
  let (price, volume) ←
    arguments (entryElement.getAt Json.asDouble 0) (entryElement.getAt Json.asDouble 1)
  return ⟨price, volume, side⟩

/-- The entry that a turn of the loop reads with the iterator of one side of a book. -/
def readSide (side : OrderBookSide) (entries : Json) (i : ℕ) :
    Except Fault (Option OrderBookEntry) :=
  match entries.values[i]? with
  | some element => do
    let entry ← readOrderBookEntry side element
    return some entry
  | none => .ok none

/-- `read_order_book`: the two sides are read in turns. -/
def readOrderBook : Answer → Except Fault (Result OrderBookState) :=
  readResult fun json => do
    let bidsElement ← json.element "bids"
    let asksElement ← json.element "asks"
    let entries ← (List.range (max bidsElement.size asksElement.size)).mapM fun i => do
      let ask ← readSide .ask asksElement i
      let bid ← readSide .bid bidsElement i
      return (ask, bid)
    let date ← json.get Json.asTime "date"
    return ⟨date, entries.filterMap (·.1), entries.filterMap (·.2)⟩

/-- What is free of a currency. -/
def readBalance (balanceElement : Json) : Except Fault (String × ℚ) := do
  let asset ← balanceElement.get Json.asString "currency"
  let balance ← balanceElement.get Json.asDouble "free"
  return (asset, balance)

/-- `read_balances`. -/
def readBalances : Answer → Except Fault (Result (UnorderedMap String ℚ)) :=
  readResult fun json => do
    let resultElement ← json.element "list"
    let balances ← resultElement.values.mapM readBalance
    return collect balances

/-- `read_open_orders`. -/
def readOpenOrders : Answer → Except Fault (Result (List OrderDescription)) :=
  readResult fun json => do
    let dataElement ← json.element "data"
    dataElement.values.mapM readOrderDescription

/-- The body of the loop of `read_closed_orders`. -/
def readClosedOrder (orderElement : Json) : Except Fault (Option OrderDescription) := do
  let status ← orderElement.get Json.asInt "status"
  if status = 2 then
    let order ← readOrderDescription orderElement
    return some order
  else return none

/-- `read_closed_orders`, without those that are not closed. -/
def readClosedOrders : Answer → Except Fault (Result (List OrderDescription)) :=
  readResult fun json => do
    let dataElement ← json.element "data"
    let orders ← dataElement.values.mapM readClosedOrder
    return orders.filterMap id

/-- `read_add_order`. -/
def readAddOrder : Answer → Except Fault (Result String) :=
  readResult fun json => json.get Json.asString "order_id"

/-- `read_cancel_order`, of which only the errors are read. -/
def readCancelOrder : Answer → Except Fault (Result Unit) := readResult fun _ => .ok ()

end MarketBlocks.Digifinex
