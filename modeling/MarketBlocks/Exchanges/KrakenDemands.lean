import MarketBlocks.Exchanges.Decoding
import MarketBlocks.Exchanges.KrakenResults

/-!
# What Kraken answers have to be like
-/

namespace MarketBlocks.Kraken

open Library Json

variable (c : Conversions)

/-! ## Parts -/

/-- Closing prices, of which the first is a number. -/
def tickerDemand : Demand Json :=
  .read (get asStrings "c") (has asStrings "c") fun closes =>
    .read (fun _ => at? closes 0) (longerThan closes 0) fun last =>
      (converts (asNumeral c)).within fun _ => .string last

/-- An order and its description. -/
def orderDescriptionDemand : Demand Json :=
  .read (element "descr") (there "descr") fun description =>
    .inTurn [(has asString "pair").within fun _ => description,
      (has asString "type").within fun _ => description,
      (has (asNumeral c) "price").within fun _ => description,
      has (asNumeral c) "vol", has asTime "opentm",
      .read (get asString "ordertype") (has asString "ordertype") fun text =>
        recognises (toOrderType text)]

/-- Only the orders that have a status still are read further. -/
def orderDemand (orderStatus : String) : Demand (Except Fault String × Json) :=
  .next keyed (.read (fun entry => entry.2.get asString "status")
    ((has asString "status").within Prod.snd) fun status =>
      if status = orderStatus then (orderDescriptionDemand c).within Prod.snd else .nothing)

/-- The name of a pair, which a slash divides. -/
def tradablePairDemand : Demand Json :=
  .read (get asString "wsname") (has asString "wsname") fun wsname =>
    .also (longerThan (split wsname '/') 0) (longerThan (split wsname '/') 1)

/-- A time and five numbers at their positions, in any order. -/
def candleDemand : Demand Json :=
  .inAnyOrder [hasAt asTime 0, hasAt (asNumeral c) 1, hasAt (asNumeral c) 2, hasAt (asNumeral c) 3,
    hasAt (asNumeral c) 4, hasAt (asNumeral c) 6]

/-- A candle counted from the end. -/
def lastCandleDemand (i : ℕ) : Demand Json :=
  .part (fun candles => OffersAt (candles.size - i - 1) candles)
    (fun candles => candles.position (candles.size - i - 1)) (candleDemand c)

/-- As many of the last candles as were asked for, which has to be a number of candles. -/
def ohlcvDataDemand (count : ℤ) : Demand Json :=
  .next (reserves fun candles => min candles.size count)
    (.loop (fun candles => (min (candles.size : ℤ) count).toNat) (lastCandleDemand c))

/-- A price and a volume, in any order. -/
def bookEntryDemand : Demand Json := .inAnyOrder [hasAt (asNumeral c) 0, hasAt (asNumeral c) 1]

/-- An ask and the bid beside it. -/
def bookRowDemand (i : ℕ) : Demand (Json × Json) :=
  .read (fun sides => sides.1.elementAt i) ((thereAt i).within Prod.fst) fun ask =>
    .next ((bookEntryDemand c).within fun _ => ask)
      (.read (fun sides => sides.2.elementAt i) ((thereAt i).within Prod.snd) fun bid =>
        .next ((bookEntryDemand c).within fun _ => bid)
          (.inAnyOrder [(hasAt asTime 2).within fun _ => ask, (hasAt asTime 2).within fun _ => bid]))

/-- As many bids as there are asks. -/
def orderBookDemand : Demand Json :=
  .read (element "asks") (there "asks") fun asks =>
    .read (element "bids") (there "bids") fun bids =>
      .loop (fun _ => asks.size) fun i => (bookRowDemand c i).within fun _ => (asks, bids)

/-- Reading a ticker demands a closing price. -/
theorem makes_readTickerPrice : Makes .undefined (readTickerPrice c) (tickerDemand c) :=
  .read (makes_get asStrings_defined _) fun closes => .read (makes_at? closes 0) fun _ =>
    (makes_converts (asNumeral_defined c)).within _

/-- A type that is not known throws, which is defined. -/
theorem toOrderType_defined (text : String) : toOrderType text ≠ .error .undefined := by
  rw [toOrderType]
  split_ifs <;> exact fun h => by cases h

/-- Reading an order makes the demand of its fields in turn. -/
theorem makes_readOrderDescription (orderId : String) :
    Makes .undefined (readOrderDescription c orderId) (orderDescriptionDemand c) :=
  .read (makes_there _) fun _ =>
    .next ((makes_get asString_defined _).within _) fun _ =>
      .next ((makes_get asString_defined _).within _) fun _ =>
        .next ((makes_get (asNumeral_defined c) _).within _) fun _ =>
          .next (makes_get (asNumeral_defined c) _) fun _ => .next (makes_get asTime_defined _) fun _ =>
            .next (.read (makes_get asString_defined _) fun text =>
              makes_recognises (toOrderType_defined text)) fun _ => .pure _

/-- An entry that is no order with the status is read no further. -/
theorem makes_readOrder (orderStatus : String) :
    Makes .undefined (readOrder c orderStatus) (orderDemand c orderStatus) :=
  .next makes_keyed fun orderId => .read ((makes_get asString_defined _).within Prod.snd) fun _ =>
    .ite (.last ((makes_readOrderDescription c orderId).within Prod.snd) fun _ _ => ⟨_, rfl⟩) (.pure _)

/-- Reading a pair demands a name with a slash in it. -/
theorem makes_readTradablePair : Makes .undefined readTradablePair tradablePairDemand :=
  .read (makes_get asString_defined _) fun wsname =>
    .last (.also (makes_at? (split wsname '/') 0) (makes_at? (split wsname '/') 1))
      fun _ _ => ⟨_, rfl⟩

/-- Reading a candle demands the columns that are used. -/
theorem makes_readOhlcvElement : Makes .undefined (readOhlcvElement c) (candleDemand c) :=
  .last (.also (makes_getAt asTime_defined 0) (.also (makes_getAt (asNumeral_defined c) 1)
    (.also (makes_getAt (asNumeral_defined c) 2) (.also (makes_getAt (asNumeral_defined c) 3)
      (.also (makes_getAt (asNumeral_defined c) 4) (.alone (makes_getAt (asNumeral_defined c) 6)))))))
    fun _ _ => ⟨_, rfl⟩

/-- The candles are read from the end. -/
theorem makes_readLastCandle (i : ℕ) :
    Makes .undefined (fun candles => candles.elementAt (candles.size - i - 1) >>= readOhlcvElement c)
      (lastCandleDemand c i) :=
  (makes_readOhlcvElement c).part (fun _ => elementAt_ne_undefined_iff) fun _ _ => elementAt_eq_ok_iff

/-- Reading an entry of a book demands both of its numbers. -/
theorem makes_readOrderBookEntry (side : OrderBookSide) :
    Makes .undefined (readOrderBookEntry c side) (bookEntryDemand c) :=
  .last (.also (makes_getAt (asNumeral_defined c) 0) (.alone (makes_getAt (asNumeral_defined c) 1)))
    fun _ _ => ⟨_, rfl⟩

/-- The two sides are read in turns. -/
theorem makes_readOrderBookRow (i : ℕ) :
    Makes .undefined (fun sides : Json × Json => readOrderBookRow c sides.1 sides.2 i)
      (bookRowDemand c i) :=
  .read ((makes_thereAt i).within Prod.fst) fun ask =>
    .next ((makes_readOrderBookEntry c .ask).within fun _ => ask) fun _ =>
      .read ((makes_thereAt i).within Prod.snd) fun bid =>
        .next ((makes_readOrderBookEntry c .bid).within fun _ => bid) fun _ =>
          .last (.also ((makes_getAt asTime_defined 2).within fun _ => ask)
            (.alone ((makes_getAt asTime_defined 2).within fun _ => bid))) fun _ _ => ⟨_, rfl⟩

/-! ## Documents -/

/-- A document has its errors, and where there are none, what was asked for. -/
def documentDemand (d : Demand Json) : Demand Json :=
  .read getError (has asStrings "error") fun error => if error ≠ "" then .nothing else d

/-- A document with errors is an error of Kraken's. -/
theorem decodes_readDocument {α : Type} {reader : Json → Except Fault α} {d : Demand Json}
    (h : Makes .undefined reader d) : Decodes (readDocument reader) (documentDemand d) :=
  decodes_of_makes (.read (.last (makes_get asStrings_defined _) fun _ _ => ⟨_, rfl⟩) fun _ =>
    .ite (.pure _) (.last h fun _ _ => ⟨_, rfl⟩)) fun _ => rfl

/-- Of any other document the result is read. -/
theorem decodes_readResult {α : Type} {reader : Json → Except Fault α} {d : Demand Json}
    (h : Makes .undefined reader d) :
    Decodes (readResult reader) (documentDemand (under "result" d)) :=
  decodes_readDocument (makes_element h _)

/-! ## Readers -/

/-- The functions that read answers. -/
inductive Reader where
  | systemStatus
  | tradablePairs
  | ohlcvData (count : ℤ)
  | price
  | prices
  | orderBook
  | balances
  | fee
  | openOrders
  | closedOrders
  | addOrder
  | cancelOrder

namespace Reader

/-- What a reader returns. -/
abbrev Value : Reader → Type
  | systemStatus => ExchangeStatus
  | tradablePairs => List TradablePair
  | ohlcvData _ => List OhlcvData
  | price | fee => ℚ
  | prices | balances => UnorderedMap String ℚ
  | orderBook => OrderBookState
  | openOrders | closedOrders => List OrderDescription
  | addOrder => String
  | cancelOrder => Unit

/-- The reader of a call. -/
def read : (reader : Reader) → Answer → Except Fault (Result reader.Value)
  | systemStatus => readSystemStatus
  | tradablePairs => readTradablePairs
  | ohlcvData count => readOhlcvData c count
  | price => readPrice c
  | prices => readPrices c
  | orderBook => readOrderBook c
  | balances => readBalances c
  | fee => readFee c
  | openOrders => readOpenOrders c
  | closedOrders => readClosedOrders c
  | addOrder => readAddOrder
  | cancelOrder => readCancelOrder

/-- What a reader demands of a document without errors. -/
def demand : Reader → Demand Json
  | systemStatus => under "result" (has asString "status")
  | tradablePairs => under "result" (.each values tradablePairDemand)
  | ohlcvData count => under "result" (front (ohlcvDataDemand c count))
  | price => under "result" (front (tickerDemand c))
  | prices =>
    under "result" (.each items (.inAnyOrder [keyed, (tickerDemand c).within Prod.snd]))
  | orderBook => under "result" (front (orderBookDemand c))
  | balances =>
    under "result" (.each items (.inAnyOrder [keyed, (converts (asNumeral c)).within Prod.snd]))
  | fee => under "result" (under "fees" (front (has (asNumeral c) "fee")))
  | openOrders => under "result" (under "open" (.each items (orderDemand c "open")))
  | closedOrders => under "result" (under "closed" (.each items (orderDemand c "closed")))
  | addOrder => under "result" (.read (get asStrings "txid") (has asStrings "txid") (longerThan · 0))
  | cancelOrder => .nothing

/-- Every reader of Kraken's answers makes the demand that stands beside it. -/
theorem decodes (reader : Reader) :
    Decodes (reader.read c) (documentDemand (reader.demand c)) := by
  cases reader with
  | systemStatus =>
    exact decodes_readResult (.last (makes_get asString_defined _) fun _ _ => ⟨_, rfl⟩)
  | tradablePairs => exact decodes_readResult (.each makes_readTradablePair)
  | ohlcvData count =>
    exact decodes_readResult (makes_beginValue (.next
      (makes_reserve fun candles => min candles.size count) fun _ => .loop (makes_readLastCandle c)))
  | price => exact decodes_readResult (makes_beginValue (makes_readTickerPrice c))
  | prices =>
    exact decodes_readResult (.last (.each (.also makes_keyed
      (.alone ((makes_readTickerPrice c).within Prod.snd)))) fun _ _ => ⟨_, rfl⟩)
  | orderBook =>
    exact decodes_readResult (makes_beginValue (.read (makes_there _) fun asks =>
      .read (makes_there _) fun bids => .last (.loop fun i =>
        (makes_readOrderBookRow c i).within fun _ => (asks, bids)) fun _ _ => ⟨_, rfl⟩))
  | balances =>
    exact decodes_readResult (.last (.each (.also makes_keyed
      (.alone ((makes_converts (asNumeral_defined c)).within Prod.snd)))) fun _ _ => ⟨_, rfl⟩)
  | fee =>
    exact decodes_readResult
      (makes_element (makes_beginValue (makes_get (asNumeral_defined c) _)) _)
  | openOrders =>
    exact decodes_readResult (makes_element
      (.last (.each (makes_readOrder c "open")) fun _ _ => ⟨_, rfl⟩) _)
  | closedOrders =>
    exact decodes_readResult (makes_element
      (.last (.each (makes_readOrder c "closed")) fun _ _ => ⟨_, rfl⟩) _)
  | addOrder =>
    exact decodes_readResult (.read (makes_get asStrings_defined _) fun ids => makes_at? ids 0)
  | cancelOrder => exact decodes_readDocument (.pure _)

end Reader

end MarketBlocks.Kraken
