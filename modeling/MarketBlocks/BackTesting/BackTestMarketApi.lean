import MarketBlocks.BackTesting.IteratorCache
import MarketBlocks.Exchanges.Results
import MarketBlocks.Websockets.Subscription

/-!
# What a back test shows of the market

`back_test_market_api` and the getters of `backtest_websocket_stream`, which both read the back test
data. Each of them is one query, or one query for every pair of a list, so all replies of one data
time are read off the series as they are.
-/

namespace MarketBlocks

open Library

namespace BackTestingData

variable {α : Type} {d : BackTestingData}

/-! ## The market API -/

/-- `get_price`: that of the current trade. -/
def getPrice (pair : TradablePair) (d : BackTestingData) : Except Fault ℚ × BackTestingData :=
  let (trade, d) := getTrade pair d
  (trade.map (·.price), d)

/-- `back_test_market_api::get_ohlcv`. -/
def getOhlcvFor (pair : TradablePair) (interval : OhlcvInterval) (count : ℤ) (d : BackTestingData) :
    Except Fault (List OhlcvData) × BackTestingData :=
  match secondsOf interval with
  | .error fault => (.error fault, d)
  | .ok seconds => getOhlcv pair seconds count d

/-- The loop of `market_api::get_prices` and of `market_api::get_order_books`. -/
def getEach (get : TradablePair → BackTestingData → Except Fault α × BackTestingData) :
    List TradablePair → UnorderedMap TradablePair α → BackTestingData →
      Except Fault (UnorderedMap TradablePair α) × BackTestingData
  | [], found, d => (.ok found, d)
  | pair :: rest, found, d =>
    match get pair d with
    | (.error fault, d) => (.error fault, d)
    | (.ok value, d) => getEach get rest (UnorderedMap.emplace found pair value) d

/-- `get_prices`, pair by pair. -/
def getPrices (pairs : List TradablePair) (d : BackTestingData) :
    Except Fault (UnorderedMap TradablePair ℚ) × BackTestingData :=
  getEach getPrice pairs ∅ d

/-- `get_order_books`, pair by pair. -/
def getOrderBooks (pairs : List TradablePair) (depth : ℤ) (d : BackTestingData) :
    Except Fault (UnorderedMap TradablePair OrderBookState) × BackTestingData :=
  getEach (getOrderBook · depth) pairs ∅ d

/-! ## The stream -/

/-- `get_last_candle`: the newest candle, or the default one. -/
def getLastCandle (pair : TradablePair) (interval : OhlcvInterval) (d : BackTestingData) :
    Except Fault OhlcvData × BackTestingData :=
  let (candles, d) := getOhlcvFor pair interval 1 d
  (candles.map fun candles => candles.headD {}, d)

/-! ## Queries -/

/-- What `query` answers without a cache. -/
def fresh (answer : List OhlcvData → Option ℕ → ℤ → α) (data : List OhlcvData) (time : ℤ) : α :=
  answer data (freshIterator data time) time

/-- A query answers what one with a fresh iterator does. -/
theorem query_fst (answer : List OhlcvData → Option ℕ → ℤ → α) (h : d.CacheBounded)
    (pair : TradablePair) :
    (query answer pair d).1 = fresh answer (d.series pair) d.dataTime :=
  (query_spec answer h pair).1

/-- The price is the one of the last trade. -/
theorem getPrice_eq_query (pair : TradablePair) (d : BackTestingData) :
    getPrice pair d = query (fun data iterator time => (tradeFrom data iterator time).map (·.price))
      pair d := rfl

/-- A book is a query of the iterator. -/
theorem getOrderBook_eq_query (pair : TradablePair) (depth : ℤ) (d : BackTestingData) :
    getOrderBook pair depth d = query (fun data iterator _ => orderBookFrom data iterator) pair d := rfl

/-- The interval `UNKNOWN` is not asked for in vain: its length is undefined. -/
theorem getOhlcvFor_unknown (pair : TradablePair) (count : ℤ) (d : BackTestingData) :
    getOhlcvFor pair .unknown count d = (.error .undefined, d) := rfl

/-- Candles of a known interval are those of its length. -/
theorem getOhlcvFor_of_ne {interval : OhlcvInterval} (hinterval : interval ≠ .unknown)
    (pair : TradablePair) (count : ℤ) (d : BackTestingData) :
    getOhlcvFor pair interval count d = getOhlcv pair interval.toSeconds count d := by
  rw [getOhlcvFor, secondsOf_of_ne hinterval]

/-- The last candle is the first of the newest ones. -/
theorem getLastCandle_eq (pair : TradablePair) (interval : OhlcvInterval) (d : BackTestingData) :
    getLastCandle pair interval d =
      ((getOhlcvFor pair interval 1 d).1.map fun candles => candles.headD {},
        (getOhlcvFor pair interval 1 d).2) := rfl

/-- What a list of queries answers without a cache. -/
def freshEach (answer : List OhlcvData → Option ℕ → ℤ → Except Fault α)
    (series : TradablePair → List OhlcvData) (time : ℤ) (pairs : List TradablePair)
    (found : UnorderedMap TradablePair α) : Except Fault (UnorderedMap TradablePair α) :=
  pairs.foldlM (fun found pair => do
    let value ← fresh answer (series pair) time
    return UnorderedMap.emplace found pair value) found

/-- The state that queries leave: the same series at the same time, soundly cached. -/
structure SameMoment (d d' : BackTestingData) : Prop where
  same : ∃ data iteratorCache, d' = { d with data, iteratorCache }
  series : d'.series = d.series
  cache : d'.CacheBounded

/-- Nothing has been asked. -/
theorem SameMoment.refl (h : d.CacheBounded) : SameMoment d d := ⟨⟨_, _, rfl⟩, rfl, h⟩

/-- One query after the other. -/
theorem SameMoment.trans {d' d'' : BackTestingData} (h : SameMoment d d') (h' : SameMoment d' d'') :
    SameMoment d d'' := by
  obtain ⟨_, _, rfl⟩ := h.same
  obtain ⟨data, iteratorCache, hsame⟩ := h'.same
  exact ⟨⟨data, iteratorCache, hsame⟩, h'.series.trans h.series, h'.cache⟩

/-- Queries do not move the clock. -/
theorem SameMoment.dataTime {d' : BackTestingData} (h : SameMoment d d') : d'.dataTime = d.dataTime := by
  obtain ⟨_, _, rfl⟩ := h.same
  rfl

/-- A query stays at its moment. -/
theorem sameMoment_query (answer : List OhlcvData → Option ℕ → ℤ → α) (h : d.CacheBounded)
    (pair : TradablePair) : SameMoment d (query answer pair d).2 := by
  obtain ⟨_, hbounded, hseries, hsame⟩ := query_spec answer h pair
  exact ⟨hsame, hseries, hbounded⟩

/-- Candles of any interval are read at the moment. -/
theorem sameMoment_getOhlcvFor (h : d.CacheBounded) (pair : TradablePair) (interval : OhlcvInterval)
    (count : ℤ) : SameMoment d (getOhlcvFor pair interval count d).2 := by
  by_cases hinterval : interval = .unknown
  · rw [hinterval, getOhlcvFor_unknown]
    exact .refl h
  · rw [getOhlcvFor_of_ne hinterval, getOhlcv_eq_query]
    exact sameMoment_query _ h pair

/-- A query for every pair answers as each of them does at the start, and stays at the moment. -/
theorem getEach_spec {get : TradablePair → BackTestingData → Except Fault α × BackTestingData}
    {answer : List OhlcvData → Option ℕ → ℤ → Except Fault α}
    (hget : ∀ pair d, get pair d = query answer pair d) (h : d.CacheBounded) (pairs : List TradablePair)
    (found : UnorderedMap TradablePair α) :
    (getEach get pairs found d).1 = freshEach answer d.series d.dataTime pairs found ∧
      SameMoment d (getEach get pairs found d).2 := by
  induction pairs generalizing found d with
  | nil => exact ⟨rfl, .refl h⟩
  | cons pair rest ih =>
    have hmoment := sameMoment_query answer h pair
    have hvalue := query_fst answer h pair
    rw [getEach, hget, freshEach, List.foldlM_cons]
    rcases hquery : query answer pair d with ⟨fault | value, d'⟩
    · rw [hquery] at hmoment hvalue
      rw [← hvalue]
      exact ⟨rfl, hmoment⟩
    · rw [hquery] at hmoment hvalue
      obtain ⟨hreply, hafter⟩ := ih hmoment.cache (UnorderedMap.emplace found pair value)
      rw [hmoment.series, hmoment.dataTime] at hreply
      rw [← hvalue]
      exact ⟨hreply, hmoment.trans hafter⟩

end BackTestingData

end MarketBlocks
