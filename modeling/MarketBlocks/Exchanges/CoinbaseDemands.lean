import MarketBlocks.Exchanges.CoinbaseResults
import MarketBlocks.Exchanges.Decoding

/-!
# What Coinbase answers have to be like
-/

namespace MarketBlocks.Coinbase

open Library Json

variable (c : Conversions)

/-! ## Parts -/

/-- The two currencies of a pair. -/
def tradablePairDemand : Demand Json :=
  .inTurn [has asString "base_currency", has asString "quote_currency"]

/-- A time and five numbers at their positions, low before high. -/
def candleDemand : Demand Json :=
  .inAnyOrder [hasAt asTime 0, hasAt asDouble 3, hasAt asDouble 2, hasAt asDouble 1,
    hasAt asDouble 4, hasAt asDouble 5]

/-- A price and a volume, in any order. -/
def bookEntryDemand : Demand Json := .inAnyOrder [hasAt (asNumeral c) 0, hasAt (asNumeral c) 1]

/-- The entry of one side at an index, if the side is that long. -/
def sideDemand (i : ℕ) : Demand Json :=
  .either (fun entries => i < entries.size) (underAt i (bookEntryDemand c)) .nothing

/-- A currency and its balance. -/
def balanceDemand : Demand Json := .inAnyOrder [has asString "currency", has (asNumeral c) "balance"]

/-- The price of an order is its own, that of its funds, or what it has executed. -/
def orderPriceDemand : Demand Json :=
  .either (fun order => order.hasMember "price") (has (asNumeral c) "price")
    (.either (fun order => order.hasMember "funds") (has (asNumeral c) "funds")
      (has (asNumeral c) "executed_value"))

/-- The types that are told apart. -/
def orderTypeDemand (orderTypeString : String) : Demand Json where
  Safe := fun _ => orderTypeString ∈ ["limit", "market", "stop"]
  Met := fun _ => orderTypeString ∈ ["limit", "market", "stop"]

/-- An order, its size and price before the rest. -/
def orderDemand : Demand Json :=
  .inTurn [has (asNumeral c) "size", orderPriceDemand c, has asString "created_at",
    .inAnyOrder [has asString "id",
      .read (get asString "type") (has asString "type") orderTypeDemand,
      has asString "product_id", has asString "side"]]

/-- Reading a pair demands both currencies. -/
theorem makes_readTradablePair : Makes .undefined readTradablePair tradablePairDemand :=
  .next (makes_get asString_defined _) fun _ =>
    .next (makes_get asString_defined _) fun _ => .pure _

/-- Reading a candle demands all of its columns. -/
theorem makes_readOhlcvElement : Makes .undefined readOhlcvElement candleDemand :=
  .last (.also (makes_getAt asTime_defined 0) (.also (makes_getAt asDouble_defined 3)
    (.also (makes_getAt asDouble_defined 2) (.also (makes_getAt asDouble_defined 1)
      (.also (makes_getAt asDouble_defined 4) (.alone (makes_getAt asDouble_defined 5)))))))
    fun _ _ => ⟨_, rfl⟩

/-- Reading an entry of a book demands both of its numbers. -/
theorem makes_readOrderBookEntry (side : OrderBookSide) :
    Makes .undefined (readOrderBookEntry c side) (bookEntryDemand c) :=
  .last (.also (makes_getAt (asNumeral_defined c) 0) (.alone (makes_getAt (asNumeral_defined c) 1)))
    fun _ _ => ⟨_, rfl⟩

/-- A side is not read past its end. -/
theorem makes_readSide (side : OrderBookSide) (i : ℕ) :
    Makes .undefined (fun entries => readSide c side entries i) (sideDemand c i) :=
  .either (makes_elementAt (.last (makes_readOrderBookEntry c side) fun _ _ => ⟨_, rfl⟩) i) (.pure _)

/-- Reading a balance demands the currency and the amount. -/
theorem makes_readBalance : Makes .undefined (readBalance c) (balanceDemand c) :=
  .also (makes_get asString_defined _) (.alone (makes_get (asNumeral_defined c) _))

/-- Which field the price is read from decides on what is demanded. -/
theorem makes_readOrderPrice (size : ℚ) :
    Makes .undefined (readOrderPrice c size) (orderPriceDemand c) :=
  .either (makes_get (asNumeral_defined c) _)
    (.either (.last (makes_get (asNumeral_defined c) _) fun _ _ => ⟨_, rfl⟩)
      (.last (makes_get (asNumeral_defined c) _) fun _ _ => ⟨_, rfl⟩))

/-- A type that is not known throws. -/
theorem makes_toOrderType (orderTypeString : String) :
    Makes .undefined (fun _ => toOrderType orderTypeString) (orderTypeDemand orderTypeString) := by
  constructor
  · intro _
    change toOrderType orderTypeString ≠ _ ↔ orderTypeString ∈ ["limit", "market", "stop"]
    rw [toOrderType]
    split_ifs <;> simp_all
  · intro _
    change (∃ value, toOrderType orderTypeString = .ok value) ↔
      orderTypeString ∈ ["limit", "market", "stop"]
    rw [toOrderType]
    split_ifs <;> simp_all

/-- Reading an order makes the demand of its fields. -/
theorem makes_readOrder : Makes .undefined (readOrder c) (orderDemand c) :=
  .next (makes_get (asNumeral_defined c) _) fun size => .next (makes_readOrderPrice c size) fun _ =>
    .next (makes_get asString_defined _) fun _ =>
      .next (.also (makes_get asString_defined _)
        (.also (.read (makes_get asString_defined _) makes_toOrderType)
          (.also (makes_get asString_defined _) (.alone (makes_get asString_defined _)))))
        fun _ => .returns fun _ => ⟨_, rfl⟩

/-! ## Documents -/

/-- A document that reports an error is decoded as a failure. -/
def documentDemand (d : Demand Json) : Demand Json :=
  .either (fun json => json.hasMember "message") (has asString "message") d

/-- A document with a message is an error of Coinbase's, whatever its reader demands. -/
theorem decodes_readResult {α : Type} {reader : Json → Except Fault α} {d : Demand Json}
    (h : Makes .undefined reader d) : Decodes (readResult reader) (documentDemand d) :=
  decodes_of_makes (.either (.last (makes_get asString_defined _) fun _ _ => ⟨_, rfl⟩)
    (.last h fun _ _ => ⟨_, rfl⟩)) fun _ => rfl

/-- The candles up to the limit. -/
def ohlcvDataDemand (count : ℤ) : Demand Json :=
  .next (reserves fun json => min json.size count)
    (.loop (fun json => (min (json.size : ℤ) count).toNat) fun i => underAt i candleDemand)

/-- Both sides as deep as was asked for, which has to be a depth, and the number of the book. -/
def orderBookDemand (depth : ℤ) : Demand Json :=
  .read (element "bids") (there "bids") fun bids =>
    .read (element "asks") (there "asks") fun asks =>
      .next (reserves fun _ => depth)
        (.next (.loop (fun _ => depth.toNat) fun i =>
            .next ((sideDemand c i).within fun _ => bids) ((sideDemand c i).within fun _ => asks))
          (has asTime "sequence"))

/-- No more candles are read than there are. -/
theorem makes_readOhlcvData (count : ℤ) :
    Makes .undefined (fun json => do
      let limit := min (json.size : ℤ) count
      reserve limit
      (List.range limit.toNat).mapM fun i : ℕ => do
        let dataElement ← json.elementAt i
        readOhlcvElement dataElement) (ohlcvDataDemand count) :=
  .next (makes_reserve fun json => min json.size count) fun _ =>
    .loop fun i => makes_elementAt makes_readOhlcvElement i

/-- Reading a book demands its sides, each as far as it goes. -/
theorem makes_readOrderBook (depth : ℤ) :
    Makes .undefined (fun json => do
      let bids ← json.element "bids"
      let asks ← json.element "asks"
      reserve depth
      let entries ← (List.range depth.toNat).mapM fun i => do
        let bid ← readSide c .ask bids i
        let ask ← readSide c .bid asks i
        return (ask, bid)
      let sequence ← json.get Json.asTime "sequence"
      return (⟨sequence, entries.filterMap (·.1), entries.filterMap (·.2)⟩ : OrderBookState))
      (orderBookDemand c depth) :=
  .read (makes_there "bids") fun bids => .read (makes_there "asks") fun asks =>
    .next (makes_reserve fun _ => depth) fun _ =>
      .next (.loop fun i => .next ((makes_readSide c .ask i).within fun _ => bids) fun _ =>
          .last ((makes_readSide c .bid i).within fun _ => asks) fun _ _ => ⟨_, rfl⟩)
        fun _ => .last (makes_get asTime_defined _) fun _ _ => ⟨_, rfl⟩

/-! ## Readers -/

/-- The functions that read answers. -/
inductive Reader where
  | tradablePairs
  | ohlcvData (count : ℤ)
  | price
  | orderBook (depth : ℤ)
  | fee
  | balances
  | orders
  | addOrder
  | cancelOrder

namespace Reader

/-- What a reader returns. -/
abbrev Value : Reader → Type
  | tradablePairs => List TradablePair
  | ohlcvData _ => List OhlcvData
  | price | fee => ℚ
  | orderBook _ => OrderBookState
  | balances => UnorderedMap String ℚ
  | orders => List OrderDescription
  | addOrder => String
  | cancelOrder => Unit

/-- The reader of a call. -/
def read : (reader : Reader) → Answer → Except Fault (Result reader.Value)
  | tradablePairs => readTradablePairs
  | ohlcvData count => readOhlcvData count
  | price => readPrice c
  | orderBook depth => readOrderBook c depth
  | fee => readFee c
  | balances => readBalances c
  | orders => readOrders c
  | addOrder => readAddOrder
  | cancelOrder => readCancelOrder

/-- What a reader demands of a document that reports no error. -/
def demand : Reader → Demand Json
  | tradablePairs => .each values tradablePairDemand
  | ohlcvData count => ohlcvDataDemand count
  | price => has (asNumeral c) "price"
  | orderBook depth => orderBookDemand c depth
  | fee => has (asNumeral c) "taker_fee_rate"
  | balances => .each values (balanceDemand c)
  | orders => .each values (orderDemand c)
  | addOrder => has asString "id"
  | cancelOrder => .nothing

/-- Every reader of Coinbase's answers makes the demand that stands beside it. -/
theorem decodes (reader : Reader) :
    Decodes (reader.read c) (documentDemand (reader.demand c)) := by
  cases reader with
  | tradablePairs => exact decodes_readResult (.each makes_readTradablePair)
  | ohlcvData count => exact decodes_readResult (makes_readOhlcvData count)
  | price => exact decodes_readResult (makes_get (asNumeral_defined c) _)
  | orderBook depth => exact decodes_readResult (makes_readOrderBook c depth)
  | fee => exact decodes_readResult (.last (makes_get (asNumeral_defined c) _) fun _ _ => ⟨_, rfl⟩)
  | balances => exact decodes_readResult (.last (.each (makes_readBalance c)) fun _ _ => ⟨_, rfl⟩)
  | orders => exact decodes_readResult (.each (makes_readOrder c))
  | addOrder => exact decodes_readResult (makes_get asString_defined _)
  | cancelOrder => exact decodes_readResult (.pure _)

end Reader

end MarketBlocks.Coinbase
