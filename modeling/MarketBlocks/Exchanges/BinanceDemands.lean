import MarketBlocks.Exchanges.BinanceResults
import MarketBlocks.Exchanges.Decoding

/-!
# What Binance answers have to be like
-/

namespace MarketBlocks.Binance

open Library Json

variable (c : Conversions)

/-! ## Parts -/

/-- A price and a volume, in this order. -/
def bookEntryDemand : Demand Json := .inTurn [hasAt (asNumeral c) 0, hasAt (asNumeral c) 1]

/-- An order, whose type is looked at as soon as it is read. -/
def orderDescriptionDemand : Demand Json :=
  .inTurn [has asTime "time", has asTime "orderId",
    .read (get asString "type") (has asString "type") fun text => recognises (toOrderType text),
    has asString "symbol", has asString "side", has (asNumeral c) "price",
    has (asNumeral c) "origQty"]

/-- Which members a filter has depends on its type. -/
def filterDemand : Demand Json :=
  .read (get asString "filterType") (has asString "filterType") fun filterType =>
    if filterType = "PRICE_FILTER" then has (asNumeral c) "tickSize"
    else if filterType = "LOT_SIZE" then
      .inTurn [has (asNumeral c) "minQty", has (asNumeral c) "stepSize"]
    else if filterType = "MIN_NOTIONAL" then has (asNumeral c) "minNotional"
    else .nothing

/-- The steps of price and quantity that the filters set have numbers of decimal places. -/
def filtersDemand : Demand Json :=
  .read (fun filters => filters.values.mapM (readFilter c)) (.each values (filterDemand c)) fun found =>
    let steps := found.foldl (fun values set => set values) {}
    .next (.provided (c.precision steps.tickSize).isSome)
      (.provided (c.precision steps.qtyStepSize).isSome)

/-- A pair and its filters. -/
def tradablePairDemand : Demand Json :=
  .inTurn [has asString "baseAsset", has asString "quoteAsset", under "filters" (filtersDemand c)]

/-- A time and five numbers, read in any order. -/
def candleDemand : Demand Json :=
  .inAnyOrder [hasAt asTime 0, hasAt (asNumeral c) 1, hasAt (asNumeral c) 2, hasAt (asNumeral c) 3,
    hasAt (asNumeral c) 4, hasAt (asNumeral c) 5]

/-- A name and a price. -/
def namedPriceDemand : Demand Json := .inAnyOrder [has asString "symbol", has (asNumeral c) "price"]

/-- An entry of one side, which need not have as many as the other one. -/
def sideDemand (i : ℕ) : Demand Json := .optional (·.values[i]?) (bookEntryDemand c)

/-- Both sides, read in turns to the end of the longer one, and the id of the book. -/
def orderBookDemand : Demand Json :=
  .read (element "asks") (there "asks") fun asks =>
    .read (element "bids") (there "bids") fun bids =>
      .next (.loop (fun _ => max asks.size bids.size) fun i =>
          .next ((sideDemand c i).within fun _ => asks) ((sideDemand c i).within fun _ => bids))
        (has asTime "lastUpdateId")

/-- An asset and what is free of it. -/
def balanceDemand : Demand Json := .inTurn [has asString "asset", has (asNumeral c) "free"]

/-- The price and the quantity of a fill. -/
def fillDemand : Demand Json := .inTurn [has (asNumeral c) "price", has (asNumeral c) "qty"]

/-- The fills, which are read first, and then the order. -/
def addOrderConfirmDemand : Demand Json :=
  .read (element "fills") (there "fills") fun fills =>
    .inTurn [(Demand.each values (fillDemand c)).within fun _ => fills, has asTime "orderId",
      has asString "status", has (asNumeral c) "origQty", has (asNumeral c) "executedQty"]

/-- Reading an entry of a book makes this demand. -/
theorem makes_readOrderBookEntry (side : OrderBookSide) :
    Makes .undefined (readOrderBookEntry c side) (bookEntryDemand c) :=
  .next (makes_getAt (asNumeral_defined c) 0) fun _ =>
    .next (makes_getAt (asNumeral_defined c) 1) fun _ => .pure _

/-- A type that is not known throws, which is defined. -/
theorem toOrderType_defined (text : String) : toOrderType text ≠ .error .undefined := by
  rw [toOrderType]
  split_ifs <;> exact fun h => by cases h

/-- Reading an order makes the demand of its fields in turn. -/
theorem makes_readOrderDescription :
    Makes .undefined (readOrderDescription c) (orderDescriptionDemand c) :=
  .next (makes_get asTime_defined _) fun _ => .next (makes_get asTime_defined _) fun _ =>
    .next (.read (makes_get asString_defined _) fun text =>
      makes_recognises (toOrderType_defined text)) fun _ =>
      .next (makes_get asString_defined _) fun _ => .next (makes_get asString_defined _) fun _ =>
        .next (makes_get (asNumeral_defined c) _) fun _ =>
          .next (makes_get (asNumeral_defined c) _) fun _ => .pure _

/-- Reading a filter makes the demand of its type. -/
theorem makes_readFilter : Makes .undefined (readFilter c) (filterDemand c) :=
  .read (makes_get asString_defined _) fun _ =>
    .ite (.last (makes_get (asNumeral_defined c) _) fun _ _ => ⟨_, rfl⟩)
      (.ite (.next (makes_get (asNumeral_defined c) _) fun _ =>
          .next (makes_get (asNumeral_defined c) _) fun _ => .pure _)
        (.ite (.last (makes_get (asNumeral_defined c) _) fun _ _ => ⟨_, rfl⟩) (.pure _)))

/-- A precision asks for a step that has a logarithm. -/
theorem makes_readPrecision (step : ℚ) :
    Makes .undefined (fun _ : Json => readPrecision c step) (.provided (c.precision step).isSome) := by
  cases hprecision : c.precision step with
  | none =>
    have hread : readPrecision c step = .error .undefined := by rw [readPrecision, hprecision]
    exact ⟨fun _ => by simp [hread, Demand.provided], fun _ => by simp [hread, Demand.provided]⟩
  | some precision =>
    have hread : readPrecision c step = .ok precision := by rw [readPrecision, hprecision]
    exact ⟨fun _ => by simp [hread, Demand.provided], fun _ => by simp [hread, Demand.provided]⟩

/-- Reading the filters makes the demand of each of them, and of their steps. -/
theorem makes_readFilters : Makes .undefined (readFilters c) (filtersDemand c) := by
  refine .read (.each (makes_readFilter c)) fun found => ?_
  refine .next (makes_readPrecision c _) fun pricePrecision => ?_
  exact .last (makes_readPrecision c _) fun _ _ => ⟨_, rfl⟩

/-- Reading a pair makes the demand of its filters as well. -/
theorem makes_readTradablePair : Makes .undefined (readTradablePair c) (tradablePairDemand c) :=
  .next (makes_get asString_defined _) fun _ => .next (makes_get asString_defined _) fun _ =>
    .ending (makes_element (.last (makes_readFilters c) fun _ _ => ⟨_, rfl⟩) _)

/-- Reading a candle demands all of its columns. -/
theorem makes_readOhlcvElement : Makes .undefined (readOhlcvElement c) (candleDemand c) :=
  .last (.also (makes_getAt asTime_defined 0) (.also (makes_getAt (asNumeral_defined c) 1)
    (.also (makes_getAt (asNumeral_defined c) 2) (.also (makes_getAt (asNumeral_defined c) 3)
      (.also (makes_getAt (asNumeral_defined c) 4) (.alone (makes_getAt (asNumeral_defined c) 5)))))))
    fun _ _ => ⟨_, rfl⟩

/-- Reading a price by its name demands both. -/
theorem makes_readNamedPrice : Makes .undefined (readNamedPrice c) (namedPriceDemand c) :=
  .also (makes_get asString_defined _) (.alone (makes_get (asNumeral_defined c) _))

/-- A side that is shorter than the other one is not read past its end. -/
theorem makes_readSide (side : OrderBookSide) (i : ℕ) :
    Makes .undefined (fun entries => readSide c side entries i) (sideDemand c i) := by
  have hside : (fun entries => readSide c side entries i) = fun entries =>
      (entries.values[i]?).elim (.ok none) fun element =>
        readOrderBookEntry c side element >>= fun entry => .ok (some entry) := by
    funext entries
    rw [readSide]
    cases entries.values[i]? <;> rfl
  rw [hside]
  exact .optional _ (.last (makes_readOrderBookEntry c side) fun _ _ => ⟨_, rfl⟩)

/-- Reading a balance demands the asset and the amount. -/
theorem makes_readBalance : Makes .undefined (readBalance c) (balanceDemand c) :=
  .next (makes_get asString_defined _) fun _ =>
    .next (makes_get (asNumeral_defined c) _) fun _ => .pure _

/-- Reading a fill demands both of its numbers. -/
theorem makes_readFill : Makes .undefined (readFill c) (fillDemand c) :=
  .next (makes_get (asNumeral_defined c) _) fun _ =>
    .next (makes_get (asNumeral_defined c) _) fun _ => .pure _

/-! ## Documents -/

/-- A document with a code has a message. -/
def documentDemand (d : Demand Json) : Demand Json :=
  .either (fun json => json.hasMember "code") (has asString "msg") d

/-- A document with a code is an error of Binance's, whatever its reader demands. -/
theorem decodes_readResult {α : Type} {reader : Json → Except Fault α} {d : Demand Json}
    (h : Makes .undefined reader d) : Decodes (readResult reader) (documentDemand d) :=
  decodes_of_makes (.either (.last (makes_get asString_defined _) fun _ _ => ⟨_, rfl⟩)
    (.last h fun _ _ => ⟨_, rfl⟩)) fun _ => rfl

/-! ## Readers -/

/-- The functions that read answers. -/
inductive Reader where
  | systemStatus
  | tradablePairs
  | ohlcv
  | price
  | prices
  | orderBook
  | fee
  | balances
  | openOrders
  | closedOrders
  | addOrder
  | addOrderConfirm
  | cancelOrder

namespace Reader

/-- What a reader returns. -/
abbrev Value : Reader → Type
  | systemStatus => ExchangeStatus
  | tradablePairs => UnorderedMap TradablePair BinanceOrderFilters
  | ohlcv => List OhlcvData
  | price | fee => ℚ
  | prices | balances => UnorderedMap String ℚ
  | orderBook => OrderBookState
  | openOrders | closedOrders => List OrderDescription
  | addOrder => String
  | addOrderConfirm => OrderConfirmation
  | cancelOrder => Unit

/-- The reader of a call. -/
def read : (reader : Reader) → Answer → Except Fault (Result reader.Value)
  | systemStatus => readSystemStatus
  | tradablePairs => readTradablePairs c
  | ohlcv => readOhlcv c
  | price => readPrice c
  | prices => readPrices c
  | orderBook => readOrderBook c
  | fee => readFee
  | balances => readBalances c
  | openOrders => readOpenOrders c
  | closedOrders => readClosedOrders
  | addOrder => readAddOrder
  | addOrderConfirm => readAddOrderConfirm c
  | cancelOrder => readCancelOrder

/-- What a reader demands of a document. Closed orders are read from none. -/
def demand : Reader → Demand Json
  | systemStatus | cancelOrder => documentDemand .nothing
  | tradablePairs => documentDemand (under "symbols" (.each values (tradablePairDemand c)))
  | ohlcv => documentDemand (.each values (candleDemand c))
  | price => documentDemand (has (asNumeral c) "price")
  | prices => documentDemand (.each values (namedPriceDemand c))
  | orderBook => documentDemand (orderBookDemand c)
  | fee => documentDemand (has asDouble "takerCommission")
  | balances => documentDemand (under "balances" (.each values (balanceDemand c)))
  | openOrders => documentDemand (.each values (orderDescriptionDemand c))
  | closedOrders => .failed
  | addOrder => documentDemand (has asTime "orderId")
  | addOrderConfirm => documentDemand (addOrderConfirmDemand c)

/-- Every reader of Binance's answers makes the demand that stands beside it. -/
theorem decodes (reader : Reader) : Decodes (reader.read c) (reader.demand c) := by
  cases reader with
  | systemStatus | cancelOrder => exact decodes_readResult (.pure _)
  | tradablePairs =>
    exact decodes_readResult (makes_element
      (.last (.each (makes_readTradablePair c)) fun _ _ => ⟨_, rfl⟩) _)
  | ohlcv =>
    exact decodes_readResult (.last (.each (makes_readOhlcvElement c)) fun _ _ => ⟨_, rfl⟩)
  | price => exact decodes_readResult (makes_get (asNumeral_defined c) _)
  | prices => exact decodes_readResult (.last (.each (makes_readNamedPrice c)) fun _ _ => ⟨_, rfl⟩)
  | orderBook =>
    exact decodes_readResult (.read (makes_there _) fun asks => .read (makes_there _) fun bids =>
      .next (.loop fun i => .next ((makes_readSide c .ask i).within fun _ => asks) fun _ =>
          .last ((makes_readSide c .bid i).within fun _ => bids) fun _ _ => ⟨_, rfl⟩) fun _ =>
        .last (makes_get asTime_defined _) fun _ _ => ⟨_, rfl⟩)
  | fee => exact decodes_readResult (.last (makes_get asDouble_defined _) fun _ _ => ⟨_, rfl⟩)
  | balances =>
    exact decodes_readResult (makes_element
      (.last (.each (makes_readBalance c)) fun _ _ => ⟨_, rfl⟩) _)
  | openOrders => exact decodes_readResult (.each (makes_readOrderDescription c))
  | closedOrders => exact fun _ => iff_of_false (fun ⟨_, h⟩ => by cases h) not_false
  | addOrder => exact decodes_readResult (.last (makes_get asTime_defined _) fun _ _ => ⟨_, rfl⟩)
  | addOrderConfirm =>
    exact decodes_readResult (.read (makes_there _) fun fills =>
      .next (.within (.each (makes_readFill c)) fun _ => fills) fun _ =>
        .next (makes_get asTime_defined _) fun _ => .next (makes_get asString_defined _) fun _ =>
          .next (makes_get (asNumeral_defined c) _) fun _ =>
            .next (makes_get (asNumeral_defined c) _) fun _ => .pure _)

end Reader

end MarketBlocks.Binance
