import MarketBlocks.Exchanges.BybitResults
import MarketBlocks.Exchanges.Decoding

/-!
# What Bybit answers have to be like
-/

namespace MarketBlocks.Bybit

open Library Json

variable (c : Conversions)

/-! ## Parts -/

/-- A price and a volume, in this order. -/
def bookEntryDemand : Demand Json := .inTurn [hasAt (asNumeral c) 0, hasAt (asNumeral c) 1]

/-- The volume of a buy depends on its type. -/
def volumeDemand (action : TradeAction) : Demand Json :=
  if action = .buy then has asString "type" else .nothing

/-- An order, whose side decides on how its volume is read. -/
def orderDescriptionDemand : Demand Json :=
  .read (get asString "side") (has asString "side") fun side =>
    .inTurn [has (asNumeral c) "price", has (asNumeral c) "origQty", volumeDemand (toTradeAction side),
      has (asTimeNumeral c) "time", has asString "orderId", has asString "type",
      has asString "symbol"]

/-- The two currencies of a pair. -/
def tradablePairDemand : Demand Json :=
  .inTurn [has asString "baseCurrency", has asString "quoteCurrency"]

/-- A time and five numbers, in any order. -/
def candleDemand : Demand Json :=
  .inAnyOrder [hasAt asTime 0, hasAt (asNumeral c) 1, hasAt (asNumeral c) 2, hasAt (asNumeral c) 3,
    hasAt (asNumeral c) 4, hasAt (asNumeral c) 5]

/-- An entry of one side, which need not have as many as the other one. -/
def sideDemand (i : ℕ) : Demand Json := .optional (·.values[i]?) (bookEntryDemand c)

/-- Both sides, read in turns to the end of the longer one, and the time. -/
def orderBookDemand : Demand Json :=
  .read (element "asks") (there "asks") fun asks =>
    .read (element "bids") (there "bids") fun bids =>
      .next (.loop (fun _ => max asks.size bids.size) fun i =>
          .next ((sideDemand c i).within fun _ => asks) ((sideDemand c i).within fun _ => bids))
        (has asTime "time")

/-- A coin and what is free of it. -/
def balanceDemand : Demand Json := .inTurn [has asString "coin", has (asNumeral c) "free"]

/-- Only filled orders are read further. -/
def closedOrderDemand : Demand Json :=
  .read (get asString "status") (has asString "status") fun status =>
    if status = "FILLED" then orderDescriptionDemand c else .nothing

/-- Reading an entry of a book demands both of its numbers. -/
theorem makes_readOrderBookEntry (side : OrderBookSide) :
    Makes .undefined (readOrderBookEntry c side) (bookEntryDemand c) :=
  .next (makes_getAt (asNumeral_defined c) 0) fun _ =>
    .next (makes_getAt (asNumeral_defined c) 1) fun _ => .pure _

/-- The type of an order is read only where it may be a market buy. -/
theorem makes_readVolume (action : TradeAction) (price qty : ℚ) :
    Makes .undefined (readVolume action price qty) (volumeDemand action) :=
  .ite (.last (makes_get asString_defined _) fun _ _ => ⟨_, rfl⟩) (.pure _)

/-- Reading an order makes the demand of its fields in turn. -/
theorem makes_readOrderDescription :
    Makes .undefined (readOrderDescription c) (orderDescriptionDemand c) :=
  .read (makes_get asString_defined _) fun side =>
    .next (makes_get (asNumeral_defined c) _) fun price =>
      .next (makes_get (asNumeral_defined c) _) fun qty =>
        .next (makes_readVolume (toTradeAction side) price qty) fun _ =>
          .next (makes_get (asTimeNumeral_defined c) _) fun _ =>
            .next (makes_get asString_defined _) fun _ => .next (makes_get asString_defined _) fun _ =>
              .next (makes_get asString_defined _) fun _ => .pure _

/-- Reading a pair demands both currencies. -/
theorem makes_readTradablePair : Makes .undefined readTradablePair tradablePairDemand :=
  .next (makes_get asString_defined _) fun _ =>
    .next (makes_get asString_defined _) fun _ => .pure _

/-- Reading a candle demands all of its columns. -/
theorem makes_readOhlcvElement : Makes .undefined (readOhlcvElement c) (candleDemand c) :=
  .last (.also (makes_getAt asTime_defined 0) (.also (makes_getAt (asNumeral_defined c) 1)
    (.also (makes_getAt (asNumeral_defined c) 2) (.also (makes_getAt (asNumeral_defined c) 3)
      (.also (makes_getAt (asNumeral_defined c) 4) (.alone (makes_getAt (asNumeral_defined c) 5)))))))
    fun _ _ => ⟨_, rfl⟩

/-- A side that is shorter than the other one is not read past its end. -/
theorem makes_readSide (side : OrderBookSide) (i : ℕ) :
    Makes .undefined (fun entries => readSide c side entries i) (sideDemand c i) := by
  have hside : (fun entries => readSide c side entries i) = fun entries =>
      (entries.values[i]?).elim (.ok none) fun element =>
        readOrderBookEntry c side element >>= fun entry => .ok (some entry) := by
    funext entries
    rw [readSide]
    cases entries.values[i]? <;> rfl
  rw [hside]
  exact .optional _ (.last (makes_readOrderBookEntry c side) fun _ _ => ⟨_, rfl⟩)

/-- Reading a balance demands the coin and the amount. -/
theorem makes_readBalance : Makes .undefined (readBalance c) (balanceDemand c) :=
  .next (makes_get asString_defined _) fun _ =>
    .next (makes_get (asNumeral_defined c) _) fun _ => .pure _

/-- A closed order has its status read first. -/
theorem makes_readClosedOrder : Makes .undefined (readClosedOrder c) (closedOrderDemand c) :=
  .read (makes_get asString_defined _) fun _ =>
    .ite (.last (makes_readOrderDescription c) fun _ _ => ⟨_, rfl⟩) (.pure _)

/-! ## Documents -/

/-- A document has a code, and a message unless the code is zero. -/
def documentDemand (d : Demand Json) : Demand Json :=
  .read (get asInt "ret_code") (has asInt "ret_code") fun code =>
    if code ≠ 0 then has asString "ret_msg" else d

/-- A document with a code other than 0 is an error of Bybit's. -/
theorem decodes_readDocument {α : Type} {reader : Json → Except Fault α} {d : Demand Json}
    (h : Makes .undefined reader d) : Decodes (readDocument reader) (documentDemand d) :=
  decodes_of_makes (.read (makes_get asInt_defined _) fun _ =>
    .ite (.last (makes_get asString_defined _) fun _ _ => ⟨_, rfl⟩)
      (.last h fun _ _ => ⟨_, rfl⟩)) fun _ => rfl

/-- Of any other document the result is read. -/
theorem decodes_readResult {α : Type} {reader : Json → Except Fault α} {d : Demand Json}
    (h : Makes .undefined reader d) :
    Decodes (readResult reader) (documentDemand (under "result" d)) :=
  decodes_readDocument (makes_element h _)

/-! ## Readers -/

/-- The functions that read answers. -/
inductive Reader where
  | systemStatus
  | tradablePairs
  | ohlcv
  | price
  | orderBook
  | balances
  | openOrders
  | closedOrders
  | addOrder
  | cancelOrder

namespace Reader

/-- What a reader returns. -/
abbrev Value : Reader → Type
  | systemStatus => ExchangeStatus
  | tradablePairs => List TradablePair
  | ohlcv => List OhlcvData
  | price => ℚ
  | orderBook => OrderBookState
  | balances => UnorderedMap String ℚ
  | openOrders | closedOrders => List OrderDescription
  | addOrder => String
  | cancelOrder => Unit

/-- The reader of a call. -/
def read : (reader : Reader) → Answer → Except Fault (Result reader.Value)
  | systemStatus => readSystemStatus
  | tradablePairs => readTradablePairs
  | ohlcv => readOhlcv c
  | price => readPrice c
  | orderBook => readOrderBook c
  | balances => readBalances c
  | openOrders => readOpenOrders c
  | closedOrders => readClosedOrders c
  | addOrder => readAddOrder
  | cancelOrder => readCancelOrder

/-- What a reader demands of a document that reports no error. -/
def demand : Reader → Demand Json
  | systemStatus => under "result" .nothing
  | tradablePairs => under "result" (.each values tradablePairDemand)
  | ohlcv => under "result" (.each values (candleDemand c))
  | price => under "result" (has (asNumeral c) "price")
  | orderBook => under "result" (orderBookDemand c)
  | balances => under "result" (under "balances" (.each values (balanceDemand c)))
  | openOrders => under "result" (.each values (orderDescriptionDemand c))
  | closedOrders => under "result" (.each values (closedOrderDemand c))
  | addOrder => under "result" (has asString "orderId")
  | cancelOrder => .nothing

/-- Every reader of Bybit's answers makes the demand that stands beside it. -/
theorem decodes (reader : Reader) :
    Decodes (reader.read c) (documentDemand (reader.demand c)) := by
  cases reader with
  | systemStatus => exact decodes_readResult (.pure _)
  | tradablePairs => exact decodes_readResult (.each makes_readTradablePair)
  | ohlcv =>
    exact decodes_readResult (.last (.each (makes_readOhlcvElement c)) fun _ _ => ⟨_, rfl⟩)
  | price => exact decodes_readResult (makes_get (asNumeral_defined c) _)
  | orderBook =>
    exact decodes_readResult (.read (makes_there _) fun asks => .read (makes_there _) fun bids =>
      .next (.loop fun i => .next ((makes_readSide c .ask i).within fun _ => asks) fun _ =>
          .last ((makes_readSide c .bid i).within fun _ => bids) fun _ _ => ⟨_, rfl⟩) fun _ =>
        .last (makes_get asTime_defined _) fun _ _ => ⟨_, rfl⟩)
  | balances =>
    exact decodes_readResult (makes_element
      (.last (.each (makes_readBalance c)) fun _ _ => ⟨_, rfl⟩) _)
  | openOrders => exact decodes_readResult (.each (makes_readOrderDescription c))
  | closedOrders =>
    exact decodes_readResult (.last (.each (makes_readClosedOrder c)) fun _ _ => ⟨_, rfl⟩)
  | addOrder => exact decodes_readResult (makes_get asString_defined _)
  | cancelOrder => exact decodes_readDocument (.pure _)

end Reader

end MarketBlocks.Bybit
