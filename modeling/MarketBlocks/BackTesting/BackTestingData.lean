import MarketBlocks.Common.Fault
import MarketBlocks.Library.UnorderedMap
import MarketBlocks.Trading.Market
import MarketBlocks.Trading.Orders
import Mathlib.Algebra.Order.Ring.Unbundled.Rat

/-!
# The data of a back test

`back_testing_data` serves candles, trades and order books of a moving data time out of one
candle list for each pair, which it may load on first use. A `data_iterator` is an index
into the list of its pair. Reading at an index outside the list is undefined behaviour and
returned as such.
-/

namespace MarketBlocks

open Library

/-! ## Merging candles -/

/-- One round of the loop of `merge_ohlcv`. -/
def mergeStep (merged candle : OhlcvData) : OhlcvData where
  timeStamp := merged.timeStamp
  «open» := merged.open
  high := max merged.high candle.high
  low := min merged.low candle.low
  close := candle.close
  volume := merged.volume + candle.volume

/-- `merge_ohlcv` of the candles from `start` up to `stop`; the first one is read even when the
range is empty. -/
def mergeOhlcv (data : List OhlcvData) (start stop : ℕ) (targetTime : ℤ) : Except Fault OhlcvData :=
  match data[start]? with
  | none => .error .undefined
  | some first =>
    .ok (((data.take stop).drop (start + 1)).foldl mergeStep { first with timeStamp := targetTime })

/-! ## Finding the candle in force -/

/-- The loop of `get_iterator` over the candles from `index` on: the last candle that is not
after `time`, and among candles at `time` the first one it meets. -/
def scanFrom (time : ℤ) : List OhlcvData → ℕ → ℕ
  | [], index => index
  | candle :: rest, index =>
    if candle.timeStamp > time then index - 1
    else if candle.timeStamp = time then index
    else scanFrom time rest (index + 1)

/-- `_iteratorCache`, with indices for iterators. -/
abbrev IteratorCache := UnorderedMap TradablePair ℕ

/-- `get_iterator`: the last row up to the time, looked for from the cached one on. -/
def getIterator (data : List OhlcvData) (pair : TradablePair) (time : ℤ) (cache : IteratorCache) :
    Option ℕ × IteratorCache :=
  match data.head?, data.getLast? with
  | some front, some back =>
    if time < front.timeStamp then (none, cache)
    else if time > back.timeStamp then (some (data.length - 1), cache)
    else
      let start := (cache.lookup pair).getD 0
      let index := scanFrom time (data.drop start) start
      (some index, cache.insert pair index)
  | _, _ => (none, cache)

/-- `back_testing_data`. -/
structure BackTestingData where
  tradablePairs : List TradablePair
  data : UnorderedMap TradablePair (List OhlcvData)
  startTime : ℤ
  endTime : ℤ
  stepSize : ℤ
  timeSteps : ℤ
  /-- `load_data` of the source, which is absent when everything was loaded at the start. -/
  dataSource : Option (TradablePair → ℤ → List OhlcvData)
  dataTime : ℤ
  iteratorCache : IteratorCache

namespace BackTestingData

/-- The constructor. -/
def create (tradablePairs : List TradablePair) (data : UnorderedMap TradablePair (List OhlcvData))
    (startTime endTime stepSize timeSteps : ℤ)
    (dataSource : Option (TradablePair → ℤ → List OhlcvData) := none) : BackTestingData where
  tradablePairs := tradablePairs
  data := data
  startTime := startTime
  endTime := endTime
  stepSize := stepSize
  timeSteps := timeSteps
  dataSource := dataSource
  dataTime := startTime
  iteratorCache := ∅

/-- The candles of a pair that is not held yet. -/
def loadData (d : BackTestingData) (pair : TradablePair) : List OhlcvData :=
  match d.dataSource with
  | some load => load pair d.stepSize
  | none => []

/-- `get_or_load_data`. -/
def getOrLoadData (pair : TradablePair) (d : BackTestingData) : List OhlcvData × BackTestingData :=
  match d.data.lookup pair with
  | some data => (data, d)
  | none => (d.loadData pair, { d with data := d.data.insert pair (d.loadData pair) })

/-- `increment`. -/
def increment (d : BackTestingData) : BackTestingData := { d with dataTime := d.dataTime + d.stepSize }

/-- The inner loop of `get_ohlcv`, which steps back from `start`. -/
def stepBack (data : List OhlcvData) (targetTime : ℤ) : ℕ → Except Fault ℕ
  | 0 => if data.isEmpty then .error .undefined else .ok 0
  | start + 1 =>
    match data[start + 1]? with
    | none => .error .undefined
    | some candle =>
      if candle.timeStamp > targetTime then stepBack data targetTime start else .ok (start + 1)

/-- The outer loop of `get_ohlcv` with `remaining` rounds to go. -/
def ohlcvLoop (data : List OhlcvData) (startTime interval : ℤ) :
    ℕ → ℤ → ℕ → List OhlcvData → Except Fault (List OhlcvData)
  | 0, _, _, merged => .ok merged
  | remaining + 1, targetTime, stop, merged => do
    let targetTime := max (targetTime - interval) startTime
    let some last := data[stop]? | .error .undefined
    let start ← stepBack data targetTime stop
    let stop := if targetTime + interval > last.timeStamp then stop + 1 else stop
    let candle ← mergeOhlcv data start stop targetTime
    if targetTime = startTime ∧ start = 0 then .ok (merged ++ [candle])
    else ohlcvLoop data startTime interval remaining targetTime start (merged ++ [candle])

/-- `get_ohlcv` after the iterator is found. -/
def ohlcvFrom (data : List OhlcvData) (iterator : Option ℕ) (dataTime interval count : ℤ) :
    Except Fault (List OhlcvData) :=
  match data.head?, iterator with
  | some front, some index =>
    if index = 0 ∧ dataTime = front.timeStamp then .ok []
    else if count < 0 then .error .lengthError
    else ohlcvLoop data front.timeStamp interval count.toNat dataTime index []
  | _, _ => .ok []

/-- `get_ohlcv`. -/
def getOhlcv (pair : TradablePair) (interval count : ℤ) (d : BackTestingData) :
    Except Fault (List OhlcvData) × BackTestingData :=
  let (data, d) := getOrLoadData pair d
  if data.isEmpty then (.ok [], d)
  else
    let (iterator, cache) := getIterator data pair d.dataTime d.iteratorCache
    (ohlcvFrom data iterator d.dataTime interval count, { d with iteratorCache := cache })

/-- `get_trade` after the iterator is found. The close of the last candle is the price once its
time has passed. -/
def tradeFrom (data : List OhlcvData) (iterator : Option ℕ) (dataTime : ℤ) :
    Except Fault TradeUpdate :=
  match iterator with
  | none => .ok {}
  | some index =>
    match data[index]? with
    | none => .error .undefined
    | some candle =>
      let price :=
        if index + 1 = data.length ∧ dataTime > candle.timeStamp then candle.close else candle.open
      .ok { timeStamp := candle.timeStamp, price, volume := candle.volume }

/-- `get_trade`. -/
def getTrade (pair : TradablePair) (d : BackTestingData) : Except Fault TradeUpdate × BackTestingData :=
  let (data, d) := getOrLoadData pair d
  let (iterator, cache) := getIterator data pair d.dataTime d.iteratorCache
  (tradeFrom data iterator d.dataTime, { d with iteratorCache := cache })

/-- `get_order_book` after the iterator is found: one level on each side. -/
def orderBookFrom (data : List OhlcvData) (iterator : Option ℕ) : Except Fault OrderBookState :=
  match iterator with
  | none => .ok { timeStamp := 0, asks := [], bids := [] }
  | some index =>
    match data[index]? with
    | none => .error .undefined
    | some candle => .ok
      { timeStamp := candle.timeStamp
        asks := [{ price := candle.high, volume := candle.volume, side := .ask }]
        bids := [{ price := candle.low, volume := candle.volume, side := .bid }] }

/-- `get_order_book`, which does not read its `depth`. -/
def getOrderBook (pair : TradablePair) (_depth : ℤ) (d : BackTestingData) :
    Except Fault OrderBookState × BackTestingData :=
  let (data, d) := getOrLoadData pair d
  let (iterator, cache) := getIterator data pair d.dataTime d.iteratorCache
  (orderBookFrom data iterator, { d with iteratorCache := cache })

end BackTestingData

end MarketBlocks
