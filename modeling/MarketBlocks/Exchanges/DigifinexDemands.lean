import MarketBlocks.Exchanges.Decoding
import MarketBlocks.Exchanges.DigifinexResults

/-!
# What Digifinex answers have to be like
-/

namespace MarketBlocks.Digifinex

open Library Json

/-! ## Parts -/

/-- The fields of an order, its type first. -/
def orderDescriptionDemand : Demand Json :=
  .inTurn [has asString "type", has asTime "created_date", has asString "order_id",
    has asString "symbol", has asDouble "price", has asDouble "amount"]

/-- The two assets of a pair. -/
def tradablePairDemand : Demand Json :=
  .inTurn [has asString "base_asset", has asString "quote_asset"]

/-- A time and five numbers at their positions, in any order. -/
def candleDemand : Demand Json :=
  .inAnyOrder [hasAt asTime 0, hasAt asDouble 5, hasAt asDouble 3, hasAt asDouble 4,
    hasAt asDouble 2, hasAt asDouble 1]

/-- The candles up to the limit. -/
def ohlcvDataDemand (count : ℤ) : Demand Json :=
  .next (reserves fun candles => min candles.size count)
    (.loop (fun candles => (min (candles.size : ℤ) count).toNat) fun i => underAt i candleDemand)

/-- A price and a volume, in any order. -/
def bookEntryDemand : Demand Json := .inAnyOrder [hasAt asDouble 0, hasAt asDouble 1]

/-- An entry of one side, which need not have as many as the other one. -/
def sideDemand (i : ℕ) : Demand Json := .optional (·.values[i]?) bookEntryDemand

/-- Both sides, read in turns to the end of the longer one, and the date. -/
def orderBookDemand : Demand Json :=
  .read (element "bids") (there "bids") fun bids =>
    .read (element "asks") (there "asks") fun asks =>
      .next (.loop (fun _ => max bids.size asks.size) fun i =>
          .next ((sideDemand i).within fun _ => asks) ((sideDemand i).within fun _ => bids))
        (has asTime "date")

/-- A currency and what is free of it. -/
def balanceDemand : Demand Json := .inTurn [has asString "currency", has asDouble "free"]

/-- Only closed orders are read further. -/
def closedOrderDemand : Demand Json :=
  .read (get asInt "status") (has asInt "status") fun status =>
    if status = 2 then orderDescriptionDemand else .nothing

/-- Reading an order makes the demand of its fields in turn. -/
theorem makes_readOrderDescription :
    Makes .undefined readOrderDescription orderDescriptionDemand :=
  .next (makes_get asString_defined _) fun _ => .next (makes_get asTime_defined _) fun _ =>
    .next (makes_get asString_defined _) fun _ => .next (makes_get asString_defined _) fun _ =>
      .next (makes_get asDouble_defined _) fun _ =>
        .next (makes_get asDouble_defined _) fun _ => .pure _

/-- Reading a pair demands both assets. -/
theorem makes_readTradablePair : Makes .undefined readTradablePair tradablePairDemand :=
  .next (makes_get asString_defined _) fun _ =>
    .next (makes_get asString_defined _) fun _ => .pure _

/-- Reading a candle demands all of its columns. -/
theorem makes_readOhlcvElement : Makes .undefined readOhlcvElement candleDemand :=
  .last (.also (makes_getAt asTime_defined 0) (.also (makes_getAt asDouble_defined 5)
    (.also (makes_getAt asDouble_defined 3) (.also (makes_getAt asDouble_defined 4)
      (.also (makes_getAt asDouble_defined 2) (.alone (makes_getAt asDouble_defined 1)))))))
    fun _ _ => ⟨_, rfl⟩

/-- Reading an entry of a book demands both of its numbers. -/
theorem makes_readOrderBookEntry (side : OrderBookSide) :
    Makes .undefined (readOrderBookEntry side) bookEntryDemand :=
  .last (.also (makes_getAt asDouble_defined 0) (.alone (makes_getAt asDouble_defined 1)))
    fun _ _ => ⟨_, rfl⟩

/-- A side that is shorter than the other one is not read past its end. -/
theorem makes_readSide (side : OrderBookSide) (i : ℕ) :
    Makes .undefined (fun entries => readSide side entries i) (sideDemand i) := by
  have hside : (fun entries => readSide side entries i) = fun entries =>
      (entries.values[i]?).elim (.ok none) fun element =>
        readOrderBookEntry side element >>= fun entry => .ok (some entry) := by
    funext entries
    rw [readSide]
    cases entries.values[i]? <;> rfl
  rw [hside]
  exact .optional _ (.last (makes_readOrderBookEntry side) fun _ _ => ⟨_, rfl⟩)

/-- Reading a balance demands the currency and the amount. -/
theorem makes_readBalance : Makes .undefined readBalance balanceDemand :=
  .next (makes_get asString_defined _) fun _ =>
    .next (makes_get asDouble_defined _) fun _ => .pure _

/-- A closed order has its status read first. -/
theorem makes_readClosedOrder : Makes .undefined readClosedOrder closedOrderDemand :=
  .read (makes_get asInt_defined _) fun _ =>
    .ite (.last makes_readOrderDescription fun _ _ => ⟨_, rfl⟩) (.pure _)

/-! ## Documents -/

/-- A document has a code. -/
def documentDemand (d : Demand Json) : Demand Json :=
  .read (get asInt "code") (has asInt "code") fun code => if code ≠ 0 then .nothing else d

/-- A document with a code other than 0 is an error of Digifinex's. -/
theorem decodes_readResult {α : Type} {reader : Json → Except Fault α} {d : Demand Json}
    (h : Makes .undefined reader d) : Decodes (readResult reader) (documentDemand d) :=
  decodes_of_makes (.read (makes_get asInt_defined _) fun _ =>
    .ite (.pure _) (.last h fun _ _ => ⟨_, rfl⟩)) fun _ => rfl

/-! ## Readers -/

/-- The functions that read answers. -/
inductive Reader where
  | systemStatus
  | tradablePairs
  | ohlcvData (count : ℤ)
  | price
  | orderBook
  | balances
  | openOrders
  | closedOrders
  | addOrder
  | cancelOrder

namespace Reader

/-- What a reader returns. -/
abbrev Value : Reader → Type
  | systemStatus => ExchangeStatus
  | tradablePairs => Finset TradablePair
  | ohlcvData _ => List OhlcvData
  | price => ℚ
  | orderBook => OrderBookState
  | balances => UnorderedMap String ℚ
  | openOrders | closedOrders => List OrderDescription
  | addOrder => String
  | cancelOrder => Unit

/-- The reader of a call. -/
def read : (reader : Reader) → Answer → Except Fault (Result reader.Value)
  | systemStatus => readSystemStatus
  | tradablePairs => readTradablePairs
  | ohlcvData count => readOhlcvData count
  | price => readPrice
  | orderBook => readOrderBook
  | balances => readBalances
  | openOrders => readOpenOrders
  | closedOrders => readClosedOrders
  | addOrder => readAddOrder
  | cancelOrder => readCancelOrder

/-- What a reader demands of a document that reports no error. -/
def demand : Reader → Demand Json
  | systemStatus | cancelOrder => .nothing
  | tradablePairs => under "symbol_list" (.each values tradablePairDemand)
  | ohlcvData count => under "data" (ohlcvDataDemand count)
  | price => under "ticker" (front (has asDouble "last"))
  | orderBook => orderBookDemand
  | balances => under "list" (.each values balanceDemand)
  | openOrders => under "data" (.each values orderDescriptionDemand)
  | closedOrders => under "data" (.each values closedOrderDemand)
  | addOrder => has asString "order_id"

/-- Every reader of Digifinex's answers makes the demand that stands beside it. -/
theorem decodes (reader : Reader) : Decodes reader.read (documentDemand reader.demand) := by
  cases reader with
  | systemStatus | cancelOrder => exact decodes_readResult (.pure _)
  | tradablePairs =>
    exact decodes_readResult (makes_element
      (.last (.each makes_readTradablePair) fun _ _ => ⟨_, rfl⟩) _)
  | ohlcvData count =>
    exact decodes_readResult (makes_element (.next
      (makes_reserve fun candles => min candles.size count) fun _ =>
        .last (.loop fun i => makes_elementAt makes_readOhlcvElement i) fun _ _ => ⟨_, rfl⟩) _)
  | price =>
    exact decodes_readResult (makes_element (makes_beginValue (makes_get asDouble_defined _)) _)
  | orderBook =>
    exact decodes_readResult (.read (makes_there _) fun bids => .read (makes_there _) fun asks =>
      .next (.loop fun i => .next ((makes_readSide .ask i).within fun _ => asks) fun _ =>
          .last ((makes_readSide .bid i).within fun _ => bids) fun _ _ => ⟨_, rfl⟩) fun _ =>
        .last (makes_get asTime_defined _) fun _ _ => ⟨_, rfl⟩)
  | balances =>
    exact decodes_readResult (makes_element
      (.last (.each makes_readBalance) fun _ _ => ⟨_, rfl⟩) _)
  | openOrders =>
    exact decodes_readResult (makes_element (.each makes_readOrderDescription) _)
  | closedOrders =>
    exact decodes_readResult (makes_element
      (.last (.each makes_readClosedOrder) fun _ _ => ⟨_, rfl⟩) _)
  | addOrder => exact decodes_readResult (makes_get asString_defined _)

end Reader

end MarketBlocks.Digifinex
