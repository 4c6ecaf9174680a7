import MarketBlocks.BackTesting.BackTestingData
import MarketBlocks.Library.Runs
import MarketBlocks.Library.TimeSeries

/-!
# The iterator cache

A scan may start at any candle with only earlier candles before it: it ends where the scan
from the first candle ends. The cache keeps such positions, because the data time only
grows. Every query is one read of a series at a moment, and `query` gives it this form.
-/

namespace MarketBlocks

open Library

/-- The candles before a moment, counted from the front of the series. -/
abbrev candlesBefore (time : ℤ) (data : List OhlcvData) : ℕ :=
  countBelow OhlcvData.timeStamp time data

/-- The candle in force when there is a candle at or after `time`: the first one at `time`, else
the last one before it. -/
def inForce (time : ℤ) (data : List OhlcvData) : ℕ :=
  if (data[candlesBefore time data]?).map OhlcvData.timeStamp = some time then
    candlesBefore time data
  else candlesBefore time data - 1

/-- No more rows are in force than have begun. -/
theorem inForce_le (time : ℤ) (data : List OhlcvData) :
    inForce time data ≤ candlesBefore time data := by
  unfold inForce
  split <;> omega

/-- A scan from a candle that has only earlier ones before it finds the candle in force. -/
theorem scanFrom_drop {time : ℤ} {data : List OhlcvData} {start : ℕ}
    (hstart : start ≤ candlesBefore time data) (hlast : candlesBefore time data < data.length) :
    scanFrom time (data.drop start) start = inForce time data := by
  induction hgap : candlesBefore time data - start generalizing start with
  | zero =>
    have heq : start = candlesBefore time data := by omega
    subst heq
    have hentry := List.getElem?_eq_getElem hlast
    have hle : time ≤ data[candlesBefore time data].timeStamp := le_key_of_countBelow hentry
    rw [List.drop_eq_getElem_cons hlast, scanFrom, inForce, hentry]
    rcases hle.lt_or_eq with hlt | heq
    · rw [if_pos hlt, if_neg (by simpa using ne_of_gt hlt)]
    · rw [if_neg (not_lt.mpr heq.ge), if_pos heq.symm, if_pos (by simp [← heq])]
  | succ gap ih =>
    have hlt : start < data.length := by omega
    have hcounted : start < candlesBefore time data := by omega
    have hbefore : data[start].timeStamp < time :=
      key_lt_of_lt_countBelow (List.getElem?_eq_getElem hlt) hcounted
    rw [List.drop_eq_getElem_cons hlt, scanFrom, if_neg (not_lt.mpr hbefore.le),
      if_neg hbefore.ne]
    exact ih (by omega) (by omega)

/-- `get_iterator` without a cache. -/
def freshIterator (data : List OhlcvData) (time : ℤ) : Option ℕ :=
  match data.head?, data.getLast? with
  | some front, some back =>
    if time < front.timeStamp then none
    else if time > back.timeStamp then some (data.length - 1)
    else some (inForce time data)
  | _, _ => none

/-- An iterator points at a candle. -/
theorem freshIterator_lt {data : List OhlcvData} {time : ℤ} {index : ℕ}
    (h : freshIterator data time = some index) : index < data.length := by
  unfold freshIterator at h
  split at h
  · next front back hfront hback =>
    rw [List.getLast?_eq_getElem?, List.getElem?_eq_some_iff] at hback
    obtain ⟨hlength, hback⟩ := hback
    split at h
    · cases h
    · split at h
      · cases h
        exact hlength
      · next _ hend =>
        cases h
        have hentry : data[data.length - 1]? = some back := by
          rw [List.getElem?_eq_getElem hlength, hback]
        have hbefore : candlesBefore time data ≤ data.length - 1 :=
          countBelow_le_of_le hentry (not_lt.mp hend)
        have hle := inForce_le time data
        omega
  · cases h

section GetIterator

variable {data : List OhlcvData} {pair : TradablePair} {time : ℤ} {cache : IteratorCache}

/-- With a cached position that has only earlier candles before it, the lookup finds what it
finds without a cache, and stores another such position at most for its own pair. -/
theorem getIterator_eq
    (hcache : ∀ index, cache.lookup pair = some index → index ≤ candlesBefore time data) :
    getIterator data pair time cache = (freshIterator data time, cache) ∨
      getIterator data pair time cache =
        (freshIterator data time, cache.insert pair (inForce time data)) := by
  unfold getIterator freshIterator
  cases hfront : data.head? with
  | none => exact .inl rfl
  | some front =>
    cases hback : data.getLast? with
    | none => exact .inl rfl
    | some back =>
      simp only
      split
      · exact .inl rfl
      · split
        · exact .inl rfl
        · next _ hend =>
          rw [List.getLast?_eq_getElem?] at hback
          have hlength : data.length - 1 < data.length := by
            rw [List.getElem?_eq_some_iff] at hback
            exact hback.1
          have hlast : candlesBefore time data < data.length :=
            (countBelow_le_of_le hback (not_lt.mp hend)).trans_lt hlength
          have hstart : (cache.lookup pair).getD 0 ≤ candlesBefore time data := by
            cases hlookup : cache.lookup pair with
            | none => exact Nat.zero_le _
            | some index => exact hcache index hlookup
          rw [scanFrom_drop hstart hlast]
          exact .inr rfl

end GetIterator

namespace BackTestingData

variable {α : Type} {d : BackTestingData} {pair : TradablePair}

/-- The candles that the queries of a pair read, loaded or not. -/
def series (d : BackTestingData) (pair : TradablePair) : List OhlcvData :=
  (d.data.lookup pair).getD (d.loadData pair)

/-- Reading a series leaves every series as it is. -/
theorem getOrLoadData_eq (d : BackTestingData) (pair : TradablePair) :
    ∃ data, getOrLoadData pair d = (d.series pair, { d with data }) ∧
      data.lookup pair = some (d.series pair) ∧
      (∀ other known, d.data.lookup other = some known → data.lookup other = some known) ∧
      ∀ other, (data.lookup other).getD (d.loadData other) = d.series other := by
  unfold getOrLoadData series
  cases hlookup : d.data.lookup pair with
  | some known => exact ⟨d.data, rfl, hlookup, fun _ _ h => h, fun _ => rfl⟩
  | none =>
    refine ⟨_, rfl, Finmap.lookup_insert _, ?_, ?_⟩
    · intro other known hknown
      have hne : other ≠ pair := by
        intro heq
        rw [heq, hlookup] at hknown
        cases hknown
      rw [Finmap.lookup_insert_of_ne _ hne, hknown]
    · intro other
      rw [UnorderedMap.lookup_insert_eq]
      split
      · next heq => rw [heq, hlookup]; rfl
      · rfl

/-- Every cached position has only candles before the data time in front of it. -/
def CacheBounded (d : BackTestingData) : Prop :=
  ∀ pair index, d.iteratorCache.lookup pair = some index → ∃ data,
    d.data.lookup pair = some data ∧ index ≤ candlesBefore d.dataTime data

/-- A query of a pair: read its series at the data time. -/
def query (answer : List OhlcvData → Option ℕ → ℤ → α) (pair : TradablePair) (d : BackTestingData) :
    α × BackTestingData :=
  let (data, d) := getOrLoadData pair d
  let (iterator, cache) := getIterator data pair d.dataTime d.iteratorCache
  (answer data iterator d.dataTime, { d with iteratorCache := cache })

/-- What a query leaves: the reply of a fresh scan, a sound cache, and everything that later
queries read. -/
theorem query_spec (answer : List OhlcvData → Option ℕ → ℤ → α) (h : d.CacheBounded)
    (pair : TradablePair) :
    (query answer pair d).1 =
        answer (d.series pair) (freshIterator (d.series pair) d.dataTime) d.dataTime ∧
      (query answer pair d).2.CacheBounded ∧
      (query answer pair d).2.series = d.series ∧
      ∃ data iteratorCache, (query answer pair d).2 = { d with data, iteratorCache } := by
  obtain ⟨data, hload, hpair, hknown, hseries⟩ := getOrLoadData_eq d pair
  have hcache (index : ℕ) (hindex : d.iteratorCache.lookup pair = some index) :
      index ≤ candlesBefore d.dataTime (d.series pair) := by
    obtain ⟨known, hlookup, hle⟩ := h pair index hindex
    rwa [series, hlookup]
  have hbounded (cache : IteratorCache)
      (hnew : cache = d.iteratorCache ∨
        cache = d.iteratorCache.insert pair (inForce d.dataTime (d.series pair))) :
      ({ d with data, iteratorCache := cache } : BackTestingData).CacheBounded := by
    intro other index hindex
    have hold (hindex : d.iteratorCache.lookup other = some index) :
        ∃ known, data.lookup other = some known ∧ index ≤ candlesBefore d.dataTime known := by
      obtain ⟨known, hlookup, hle⟩ := h other index hindex
      exact ⟨known, hknown other known hlookup, hle⟩
    rcases hnew with rfl | rfl
    · exact hold hindex
    · simp only [UnorderedMap.lookup_insert_eq] at hindex
      split at hindex
      · next heq =>
        cases hindex
        exact ⟨d.series pair, heq ▸ hpair, inForce_le _ _⟩
      · exact hold hindex
  unfold query
  rw [hload]
  rcases getIterator_eq hcache with hfound | hfound
  · simp only [hfound]
    exact ⟨trivial, hbounded _ (.inl rfl), funext hseries, _, _, rfl⟩
  · simp only [hfound]
    exact ⟨trivial, hbounded _ (.inr rfl), funext hseries, _, _, rfl⟩

/-- A trade is a query of the iterator. -/
theorem getTrade_eq_query (pair : TradablePair) (d : BackTestingData) :
    getTrade pair d = query tradeFrom pair d := rfl

/-- A trade query reads an existing candle. -/
theorem getTrade_ok (h : d.CacheBounded) (pair : TradablePair) :
    ∃ trade, (getTrade pair d).1 = .ok trade := by
  rw [getTrade_eq_query, (query_spec _ h pair).1]
  cases hiterator : freshIterator (d.series pair) d.dataTime with
  | none => exact ⟨{}, rfl⟩
  | some index =>
    simp only [tradeFrom, List.getElem?_eq_getElem (freshIterator_lt hiterator)]
    exact ⟨_, rfl⟩

/-- The early exit of `get_ohlcv` on an empty series is the answer of the general form. -/
theorem getOhlcv_eq_query (pair : TradablePair) (interval count : ℤ) (d : BackTestingData) :
    getOhlcv pair interval count d =
      query (fun data iterator time => ohlcvFrom data iterator time interval count) pair d := by
  unfold getOhlcv query
  rcases getOrLoadData pair d with ⟨data, d'⟩
  cases data with
  | nil => rfl
  | cons front rest => rfl

/-! ## Runs -/

/-- A call of the back test data. -/
inductive DataCall where
  | increment
  | getOhlcv (pair : TradablePair) (interval count : ℤ)
  | getTrade (pair : TradablePair)
  | getOrderBook (pair : TradablePair) (depth : ℤ)

/-- What a call on the data returns. -/
inductive DataReply where
  | done
  | candles (reply : Except Fault (List OhlcvData))
  | trade (reply : Except Fault TradeUpdate)
  | orderBook (reply : Except Fault OrderBookState)

/-- A call on the data. -/
def perform (call : DataCall) (d : BackTestingData) : DataReply × BackTestingData :=
  match call with
  | .increment => (.done, d.increment)
  | .getOhlcv pair interval count =>
    let (reply, d) := getOhlcv pair interval count d
    (.candles reply, d)
  | .getTrade pair =>
    let (reply, d) := getTrade pair d
    (.trade reply, d)
  | .getOrderBook pair depth =>
    let (reply, d) := getOrderBook pair depth d
    (.orderBook reply, d)

/-- The data after a sequence of calls. -/
def run (d : BackTestingData) (calls : List DataCall) : BackTestingData :=
  calls.foldl (fun d call => (perform call d).2) d

/-- A call other than `increment` is a query. -/
theorem perform_eq_query (call : DataCall) (hcall : call ≠ .increment) :
    ∃ (answer : List OhlcvData → Option ℕ → ℤ → DataReply) (pair : TradablePair),
      ∀ d, perform call d = query answer pair d := by
  cases call with
  | increment => exact absurd rfl hcall
  | getOhlcv pair interval count =>
    refine ⟨fun data iterator time => .candles (ohlcvFrom data iterator time interval count), pair, ?_⟩
    intro d
    rw [perform, getOhlcv_eq_query]
    rfl
  | getTrade pair => exact ⟨fun data iterator time => .trade (tradeFrom data iterator time), pair,
      fun _ => rfl⟩
  | getOrderBook pair depth =>
    exact ⟨fun data iterator _ => .orderBook (orderBookFrom data iterator), pair, fun _ => rfl⟩

/-- An empty cache is sound. -/
theorem cacheBounded_of_empty (h : d.iteratorCache = ∅) : d.CacheBounded := by
  intro pair index hindex
  rw [h, Finmap.lookup_empty] at hindex
  cases hindex

/-- Time that does not run backwards keeps every cached position sound. -/
theorem CacheBounded.increment (h : d.CacheBounded) (hstep : 0 ≤ d.stepSize) :
    d.increment.CacheBounded := by
  intro pair index hindex
  obtain ⟨data, hlookup, hle⟩ := h pair index hindex
  refine ⟨data, hlookup, hle.trans (countBelow_mono ?_)⟩
  simp only [BackTestingData.increment]
  omega

/-- Every call keeps the cache sound and the step size. -/
theorem CacheBounded.perform (h : d.CacheBounded) (hstep : 0 ≤ d.stepSize) (call : DataCall) :
    (perform call d).2.CacheBounded ∧ (BackTestingData.perform call d).2.stepSize = d.stepSize := by
  by_cases hcall : call = .increment
  · subst hcall
    exact ⟨h.increment hstep, rfl⟩
  · obtain ⟨answer, pair, hquery⟩ := perform_eq_query call hcall
    obtain ⟨_, hbounded, _, _, _, hsame⟩ := query_spec answer h pair
    rw [hquery]
    exact ⟨hbounded, by rw [hsame]⟩

/-- In every reachable state the cache is sound. -/
theorem CacheBounded.run (h : d.CacheBounded) (hstep : 0 ≤ d.stepSize) (calls : List DataCall) :
    (run d calls).CacheBounded := by
  refine (foldl_invariant (I := fun d' : BackTestingData => d'.CacheBounded ∧ 0 ≤ d'.stepSize)
    ?_ calls ⟨h, hstep⟩).1
  intro d' call hd'
  obtain ⟨hbounded, hsame⟩ := hd'.1.perform hd'.2 call
  exact ⟨hbounded, hsame ▸ hd'.2⟩

/-- In every reachable state a query replies what it replies with an empty cache. -/
theorem run_cache_transparent (tradablePairs : List TradablePair)
    (data : UnorderedMap TradablePair (List OhlcvData)) (startTime endTime stepSize timeSteps : ℤ)
    (hstep : 0 < stepSize) (dataSource : Option (TradablePair → ℤ → List OhlcvData))
    (calls : List DataCall) (call : DataCall) :
    let d := run (create tradablePairs data startTime endTime stepSize timeSteps dataSource) calls
    (perform call d).1 = (perform call { d with iteratorCache := ∅ }).1 := by
  intro d
  have hbounded : d.CacheBounded := (cacheBounded_of_empty rfl).run hstep.le calls
  by_cases hcall : call = .increment
  · subst hcall
    rfl
  · obtain ⟨answer, pair, hquery⟩ := perform_eq_query call hcall
    have hempty : ({ d with iteratorCache := ∅ } : BackTestingData).CacheBounded :=
      cacheBounded_of_empty rfl
    rw [hquery, hquery, (query_spec answer hbounded pair).1, (query_spec answer hempty pair).1]
    rfl

/-- The position cached at time 20 serves the query at time 40, past a tie at 30. -/
theorem run_cache_transparent_tie :
    let pair : TradablePair := ⟨"BTC", "GBP"⟩
    let candle (timeStamp : ℤ) (price : ℚ) : OhlcvData := ⟨timeStamp, price, price, price, price, 1⟩
    let candles := [candle 10 1, candle 20 2, candle 30 3, candle 30 4, candle 50 5]
    let d := run (create [pair] ((∅ : UnorderedMap _ _).insert pair candles) 20 50 10 4)
      [.getTrade pair, .increment, .increment]
    d.iteratorCache.lookup pair = some 1 ∧
      (perform (.getOrderBook pair 1) d).1 =
        (perform (.getOrderBook pair 1) { d with iteratorCache := ∅ }).1 := by
  intro pair candle candles d
  exact ⟨by decide +kernel, run_cache_transparent [pair] _ 20 50 10 4 (by decide) none _ _⟩

end BackTestingData

end MarketBlocks
