import MarketBlocks.BackTesting.BackTestMarketApi
import MarketBlocks.BackTesting.TradeLookAhead
import MarketBlocks.Library.Interaction
import MarketBlocks.Runner.Watching

/-!
# Back tests of a strategy

A strategy sees the exchange: it calls the market API, the account and the stream, and goes on from
their replies. `back_test_runner::run` notifies the stream, runs the strategy, flushes the trades and
moves the data time. Whatever the strategy does, its account goes through a session of calls at the
prices of the data, one moment after the other.

A strategy registers no handlers of its own here; what it keeps between two iterations is a value of
a type `κ`.
-/

namespace MarketBlocks

open Library PaperTradeApi

/-- A call of `back_test_exchange` or of its stream. The registration of handlers is left out: what
handlers do is modelled where a tick is (`notifyHandlers`). -/
inductive ExchangeCall where
  | getStatus
  | getTradablePairs
  | getOhlcv (pair : TradablePair) (interval : OhlcvInterval) (count : ℤ)
  | getPrice (pair : TradablePair)
  | getPrices (pairs : List TradablePair)
  | getOrderBook (pair : TradablePair) (depth : ℤ)
  | getOrderBooks (pairs : List TradablePair) (depth : ℤ)
  | getBalances
  | getFee (pair : TradablePair)
  | getOpenOrders
  | getClosedOrders
  /-- `add_order`, `add_order_confirm` and `cancel_order`. -/
  | trade (call : StrategyCall)
  | reset
  | disconnect
  | connectionStatus
  | subscribe (subscription : WebsocketSubscription)
  | unsubscribe (subscription : WebsocketSubscription)
  | getSubscriptionStatus (subscription : UniqueWebsocketSubscription)
  | getLastTrade (pair : TradablePair)
  | getLastCandle (pair : TradablePair) (interval : OhlcvInterval)
  | getStreamOrderBook (pair : TradablePair) (depth : ℤ)

/-- `ws_connection_status`. -/
inductive WsConnectionStatus where
  | closed
  | «open»
  deriving DecidableEq, Repr

/-- What a call returns. -/
inductive ExchangeReply where
  | done
  | status (status : ExchangeStatus)
  | tradablePairs (pairs : List TradablePair)
  | candles (candles : List OhlcvData)
  | candle (candle : OhlcvData)
  | price (price : ℚ)
  | prices (prices : UnorderedMap TradablePair ℚ)
  | orderBook (book : OrderBookState)
  | orderBooks (books : UnorderedMap TradablePair OrderBookState)
  | balances (balances : UnorderedMap String ℚ)
  | fee (fee : ℚ)
  | openOrders (orders : UnorderedMap String OrderDescription)
  | closedOrders (orders : List OrderDescription)
  | traded (reply : Reply)
  | connection (status : WsConnectionStatus)
  | subscription (status : SubscriptionStatus)
  | lastTrade (trade : TradeUpdate)

/-- Every entry of the subscription can be hashed. Without that, inserting the first one throws. -/
def WebsocketSubscription.Hashes (subscription : WebsocketSubscription) : Prop :=
  ∀ pair ∈ subscription.pairItem, (subscription.canonical.entry pair).WellFormed

instance (subscription : WebsocketSubscription) : Decidable subscription.Hashes :=
  inferInstanceAs (Decidable (∀ pair ∈ subscription.pairItem, _))

/-- The calls that move the back test, as events of it. -/
def ExchangeCall.event? : ExchangeCall → Option BackTest.Event
  | .trade call => some (.call call)
  | .subscribe subscription => if subscription.Hashes then some (.subscribe subscription) else none
  | .unsubscribe subscription => if subscription.Hashes then some (.unsubscribe subscription) else none
  | _ => none

/-- `run_iteration`: from what the strategy has kept, its calls, how it ends and what it keeps. The
strategy registers no handlers and makes no calls in `initialise`. -/
abbrev Strategy (κ : Type*) :=
  κ → Interaction ExchangeCall (Except Fault ExchangeReply) (Except Fault Unit × κ)

namespace BackTest

/-- A call that reads the data. -/
def read {α : Type} (result : Except Fault α × BackTestingData) (reply : α → ExchangeReply)
    (w : BackTest) : Except Fault ExchangeReply × BackTest :=
  (result.1.map reply, { w with data := result.2 })

/-- `multi_component_exchange` over `back_test_market_api` and `paper_trade_api`, and
`backtest_websocket_stream`. -/
def answer (call : ExchangeCall) (w : BackTest) : Except Fault ExchangeReply × BackTest :=
  match call with
  | .getStatus => (.ok (.status .online), w)
  | .getTradablePairs => (.ok (.tradablePairs w.data.tradablePairs), w)
  | .getOhlcv pair interval count => w.read (w.data.getOhlcvFor pair interval count) .candles
  | .getPrice pair => w.read (w.data.getPrice pair) .price
  | .getPrices pairs => w.read (w.data.getPrices pairs) .prices
  | .getOrderBook pair depth => w.read (w.data.getOrderBook pair depth) .orderBook
  | .getOrderBooks pairs depth => w.read (w.data.getOrderBooks pairs depth) .orderBooks
  | .getBalances => (.ok (.balances w.api.balanceMap), w)
  | .getFee pair => (.ok (.fee (w.api.getFee pair)), w)
  | .getOpenOrders => (.ok (.openOrders (w.api.getOpenOrders w.feed)), w)
  | .getClosedOrders => (.ok (.closedOrders w.api.closedOrders), w)
  | .trade call => ((w.api.perform w.feed call.toCall).1.map .traded, performCall w call)
  | .reset | .disconnect => (.ok .done, w)
  | .connectionStatus => (.ok (.connection .open), w)
  | .subscribe subscription =>
    if subscription.Hashes then (.ok .done, w.step (.subscribe subscription))
    else (.error .otherException, w)
  -- a library may do without the hash while the set is empty, and then nothing is thrown
  | .unsubscribe subscription =>
    if subscription.Hashes then (.ok .done, w.step (.unsubscribe subscription))
    else (.error .otherException, w)
  | .getSubscriptionStatus subscription =>
    if subscription.canonical.WellFormed then
      (.ok (.subscription (if subscription.canonical ∈ w.subscriptions then .subscribed
        else .unsubscribed)), w)
    else (.error .otherException, w)
  | .getLastTrade pair => w.read (w.data.getTrade pair) .lastTrade
  | .getLastCandle pair interval => w.read (w.data.getLastCandle pair interval) .candle
  | .getStreamOrderBook pair depth => w.read (w.data.getOrderBook pair depth) .orderBook

/-- One round of the loop of `run`. An `mb_exception` of the strategy is logged, and anything else
ends the run. -/
def strategyRound {κ : Type*} (strategy : Strategy κ) (order : WalkOrder) (state : κ) (w : BackTest) :
    Except Fault Unit × κ × BackTest :=
  match notify (order.walk w.subscriptions) w with
  | (.error fault, w) => (.error fault, state, w)
  | (.ok (), w) =>
    match (strategy state).run answer w with
    | ((.ok (), state), w) => (.ok (), state, w.step (.finish none))
    | ((.error fault, state), w) =>
      if fault.isMbException then (.ok (), state, w.step (.finish fault.what))
      else (.error fault, state, w)

/-- The loop of `run`, with the order of the walk in each of its rounds. -/
def strategyLoop {κ : Type*} (strategy : Strategy κ) :
    List WalkOrder → κ → BackTest → Except Fault Unit × κ × BackTest
  | [], state, w => (.ok (), state, w)
  | order :: rest, state, w =>
    match strategyRound strategy order state w with
    | (.error fault, state, w) => (.error fault, state, w)
    | (.ok (), state, w) => strategyLoop strategy rest state w

variable {κ : Type*} {w w' : BackTest}

/-! ## What a call does -/

/-- A query leaves the back test steady at its tick. -/
theorem steady_of_sameMoment (h : w.Steady) {data : BackTestingData}
    (hdata : BackTestingData.SameMoment w.data data) :
    Steady { w with data } ∧ SameRound w { w with data } := by
  obtain ⟨_, _, rfl⟩ := hdata.same
  exact ⟨⟨hdata.cache, h.step, h.known, h.trades, h.nodup⟩, rfl, rfl, hdata.series⟩

/-- A call reads the data, is one of the account, or changes the subscriptions. -/
theorem answer_cases (h : w.data.CacheBounded) (call : ExchangeCall) :
    (call.event? = none ∧ ∃ data, BackTestingData.SameMoment w.data data ∧
        (answer call w).2 = { w with data }) ∨
      (∃ trade, call.event? = some (.call trade) ∧ (answer call w).2 = performCall w trade) ∨
      ∃ event subscriptions, call.event? = some event ∧ (answer call w).2 = { w with subscriptions } ∧
        w.step event = { w with subscriptions } := by
  have hquiet : BackTestingData.SameMoment w.data w.data := .refl h
  cases call with
  | getStatus | getTradablePairs | getBalances | getFee | getOpenOrders | getClosedOrders | reset
  | disconnect | connectionStatus => exact .inl ⟨rfl, w.data, hquiet, rfl⟩
  | getSubscriptionStatus subscription =>
    refine .inl ⟨rfl, w.data, hquiet, ?_⟩
    rw [answer]
    split <;> rfl
  | getOhlcv pair interval count =>
    exact .inl ⟨rfl, _, BackTestingData.sameMoment_getOhlcvFor h pair interval count, rfl⟩
  | getPrice pair =>
    refine .inl ⟨rfl, _, ?_, rfl⟩
    rw [BackTestingData.getPrice_eq_query]
    exact BackTestingData.sameMoment_query _ h pair
  | getPrices pairs =>
    exact .inl ⟨rfl, _, (BackTestingData.getEach_spec BackTestingData.getPrice_eq_query h pairs ∅).2, rfl⟩
  | getOrderBook pair depth | getStreamOrderBook pair depth =>
    refine .inl ⟨rfl, _, ?_, rfl⟩
    rw [BackTestingData.getOrderBook_eq_query]
    exact BackTestingData.sameMoment_query _ h pair
  | getOrderBooks pairs depth =>
    exact .inl ⟨rfl, _, (BackTestingData.getEach_spec
      (BackTestingData.getOrderBook_eq_query · depth) h pairs ∅).2, rfl⟩
  | getLastTrade pair =>
    refine .inl ⟨rfl, _, ?_, rfl⟩
    rw [BackTestingData.getTrade_eq_query]
    exact BackTestingData.sameMoment_query _ h pair
  | getLastCandle pair interval =>
    exact .inl ⟨rfl, _, BackTestingData.sameMoment_getOhlcvFor h pair interval 1, rfl⟩
  | trade call => exact .inr (.inl ⟨call, rfl, rfl⟩)
  | subscribe subscription | unsubscribe subscription =>
    by_cases hhashes : subscription.Hashes
    · simp only [answer, ExchangeCall.event?, if_pos hhashes]
      exact .inr (.inr ⟨_, _, rfl, rfl, rfl⟩)
    · simp only [answer, ExchangeCall.event?, if_neg hhashes]
      exact .inl ⟨trivial, w.data, hquiet, rfl⟩

/-- Only a call of the account has the account as its event. -/
theorem eq_trade_of_event {call : ExchangeCall} {trade : StrategyCall}
    (h : call.event? = some (.call trade)) : call = .trade trade := by
  cases call with
  | trade call =>
    cases h
    rfl
  | subscribe | unsubscribe =>
    rw [ExchangeCall.event?] at h
    split at h <;> cases h
  | _ => cases h

/-- A call of the account is one on the paper trade api. -/
theorem performCall_api (w : BackTest) (call : StrategyCall) :
    (performCall w call).api = (w.api.perform w.feed call.toCall).2 := by
  unfold performCall
  cases call.toCall.request? <;> rfl

/-- The last trade that the account reads is the one of the series. -/
theorem fresh_trade (h : w.data.CacheBounded) (pair : TradablePair) :
    BackTestingData.fresh BackTestingData.tradeFrom (w.data.series pair) w.data.dataTime =
      .ok (w.feed.lastTrade pair) := by
  obtain ⟨trade, htrade⟩ := BackTestingData.getTrade_ok h pair
  rw [← BackTestingData.query_fst _ h, ← BackTestingData.getTrade_eq_query, htrade]
  simp only [feed, htrade]

/-- A call leaves a steady state of the same round. -/
theorem Steady.answer (h : w.Steady) (call : ExchangeCall) :
    (BackTest.answer call w).2.Steady ∧ SameRound w (BackTest.answer call w).2 := by
  rcases answer_cases h.cache call with ⟨-, data, hmoment, hnext⟩ | ⟨trade, -, hnext⟩ |
    ⟨event, subscriptions, -, hnext, hevent⟩
  · rw [hnext]
    exact steady_of_sameMoment h hmoment
  · rw [hnext]
    exact h.performCall trade
  · rw [hnext]
    exact ⟨hevent ▸ h.next event, rfl, rfl, rfl⟩

/-- A program of calls stays in the round. -/
theorem Steady.iteration (h : w.Steady) {α : Type*}
    (program : Interaction ExchangeCall (Except Fault ExchangeReply) α) :
    (program.run BackTest.answer w).2.Steady ∧ SameRound w (program.run BackTest.answer w).2 := by
  refine Interaction.run_keeps (I := fun w' => w'.Steady ∧ SameRound w w') ?_ program
    ⟨h, rfl, rfl, rfl⟩
  rintro call w' ⟨hsteady, hround⟩
  obtain ⟨hsteady', hround'⟩ := hsteady.answer call
  exact ⟨hsteady', hround.trans hround'⟩

/-- A round leaves a steady state, at the next moment if it returns. -/
theorem Steady.strategyRound (h : w.Steady) (strategy : Strategy κ) (order : WalkOrder) (state : κ) :
    let result := BackTest.strategyRound strategy order state w
    result.2.2.Steady ∧ (result.1 = .ok () →
      result.2.2.data.dataTime = w.data.dataTime + w.data.stepSize ∧
        result.2.2.data.stepSize = w.data.stepSize) := by
  have hfinish (w' : BackTest) (hround : SameRound w w') (raises : Option String) :
      (w'.step (.finish raises)).data.dataTime = w.data.dataTime + w.data.stepSize ∧
        (w'.step (.finish raises)).data.stepSize = w.data.stepSize := by
    rw [← hround.dataTime, ← hround.stepSize]
    cases raises <;> exact ⟨rfl, rfl⟩
  obtain ⟨hnotified, hstill, -⟩ := h.notify order
  unfold BackTest.strategyRound
  rcases hnotify : BackTest.notify (order.walk w.subscriptions) w with ⟨fault | value, w₁⟩
  · rw [hnotify] at hnotified
    exact ⟨hnotified, fun hok => by cases hok⟩
  · rw [hnotify] at hnotified hstill
    obtain ⟨hiterated, hstill'⟩ := hnotified.iteration (strategy state)
    rcases hrun : (strategy state).run BackTest.answer w₁ with ⟨⟨fault | value, kept⟩, w₂⟩
    · rw [hrun] at hiterated hstill'
      by_cases hcaught : fault.isMbException
      · simpa [hrun, hcaught] using
          ⟨hiterated.next _, hfinish w₂ (hstill.trans hstill') fault.what⟩
      · simpa [hrun, hcaught] using hiterated
    · rw [hrun] at hiterated hstill'
      simpa [hrun] using ⟨hiterated.next _, hfinish w₂ (hstill.trans hstill') none⟩

/-! ## The session of a back test -/

/-- What a stream shows at one of the moments of the data. -/
structure Quotes (data : BackTestingData) (n : ℕ) (feed : Feed) : Prop where
  time : feed.time = data.dataTime + n * data.stepSize
  lastTrade : ∀ pair,
    BackTestingData.tradeReply (data.series pair) feed.time = .ok (feed.lastTrade pair)

/-- The account has come to the `n`th moment through these calls. -/
structure Played (config : PaperTradingConfig) (data : BackTestingData) (n : ℕ) (w : BackTest)
    (inputs : List (Feed × Call)) : Prop where
  steady : w.Steady
  dataTime : w.data.dataTime = data.dataTime + n * data.stepSize
  stepSize : w.data.stepSize = data.stepSize
  series : w.data.series = data.series
  api : w.api = (Session.run config inputs).api
  quotes : ∀ input ∈ inputs, ∃ k ≤ n, Quotes data k input.1
  ordered : inputs.Pairwise (·.1.time ≤ ·.1.time)

namespace Played

variable {config : PaperTradingConfig} {data : BackTestingData} {n : ℕ} {inputs : List (Feed × Call)}

/-- A new back test has been played for no calls. -/
theorem start (config : PaperTradingConfig) (hcache : data.iteratorCache = ∅)
    (hstep : 0 ≤ data.stepSize) : Played config data 0 (BackTest.create config data) [] where
  steady := (Steady.create config hcache hstep).1
  dataTime := by simp [BackTest.create]
  stepSize := rfl
  series := rfl
  api := rfl
  quotes := fun _ h => absurd h List.not_mem_nil
  ordered := List.Pairwise.nil

/-- A move that leaves the account alone stays at the moment. -/
theorem of_same (h : Played config data n w inputs) (hsteady : w'.Steady) (hround : SameRound w w')
    (hapi : w'.api = w.api) : Played config data n w' inputs where
  steady := hsteady
  dataTime := hround.dataTime.trans h.dataTime
  stepSize := hround.stepSize.trans h.stepSize
  series := hround.series.trans h.series
  api := hapi.trans h.api
  quotes := h.quotes
  ordered := h.ordered

/-- The account sees the moment that the data have come to. -/
theorem quotes_feed (h : Played config data n w inputs) : Quotes data n w.feed where
  time := h.dataTime
  lastTrade pair := by
    rw [← h.series]
    exact fresh_trade h.steady.cache pair

/-- The account of a session moves by the calls alone. -/
theorem api_calls (feed : Feed) (later : List Call) (s : Session) :
    ((later.map fun call => (feed, call)).foldl Session.step s).api =
      later.foldl (fun api call => (api.perform feed call).2) s.api := by
  induction later generalizing s with
  | nil => rfl
  | cons call rest ih => exact ih (s.step (feed, call))

/-- Calls at the present moment are added to the session. -/
theorem calls (h : Played config data n w inputs) (later : List Call) (hsteady : w'.Steady)
    (hround : SameRound w w')
    (hapi : w'.api = later.foldl (fun api call => (api.perform w.feed call).2) w.api) :
    Played config data n w' (inputs ++ later.map fun call => (w.feed, call)) where
  steady := hsteady
  dataTime := hround.dataTime.trans h.dataTime
  stepSize := hround.stepSize.trans h.stepSize
  series := hround.series.trans h.series
  api := by
    rw [hapi, h.api, Session.run, Session.run, List.foldl_append, api_calls]
  quotes := by
    intro input hinput
    rcases List.mem_append.mp hinput with hold | hnew
    · exact h.quotes input hold
    · obtain ⟨call, -, rfl⟩ := List.mem_map.mp hnew
      exact ⟨n, le_rfl, h.quotes_feed⟩
  ordered := by
    refine List.pairwise_append.mpr ⟨h.ordered, ?_, ?_⟩
    · rw [List.pairwise_map]
      exact List.pairwise_of_forall fun _ _ => le_rfl
    · intro input hold new hnew
      obtain ⟨call, -, rfl⟩ := List.mem_map.mp hnew
      obtain ⟨k, hk, hquotes⟩ := h.quotes input hold
      have hstep := h.steady.step
      rw [h.stepSize] at hstep
      rw [hquotes.time, h.quotes_feed.time]
      have hmoment : (k : ℤ) * data.stepSize ≤ n * data.stepSize :=
        mul_le_mul_of_nonneg_right (by exact_mod_cast hk) hstep
      omega

/-- A call of the strategy adds to the session what it asks of the account. -/
theorem answer (h : Played config data n w inputs) (call : ExchangeCall) :
    ∃ inputs', Played config data n (BackTest.answer call w).2 inputs' := by
  rcases answer_cases h.steady.cache call with ⟨-, data', hmoment, hnext⟩ | ⟨trade, -, hnext⟩ |
    ⟨event, subscriptions, -, hnext, hevent⟩
  · obtain ⟨hsteady, hround⟩ := steady_of_sameMoment h.steady hmoment
    rw [hnext]
    exact ⟨_, h.of_same hsteady hround rfl⟩
  · obtain ⟨hsteady, hround⟩ := h.steady.performCall trade
    rw [hnext]
    exact ⟨_, h.calls [trade.toCall] hsteady hround (performCall_api w trade)⟩
  · rw [hnext]
    exact ⟨_, h.of_same (hevent ▸ h.steady.next event) ⟨rfl, rfl, rfl⟩ rfl⟩

/-- An iteration of the strategy adds to the session what it asks of the account. -/
theorem iteration (h : Played config data n w inputs) {α : Type*}
    (program : Interaction ExchangeCall (Except Fault ExchangeReply) α) :
    ∃ inputs', Played config data n (program.run BackTest.answer w).2 inputs' := by
  refine Interaction.run_keeps (I := fun w => ∃ inputs', Played config data n w inputs') ?_
    program ⟨inputs, h⟩
  rintro call w ⟨inputs', h⟩
  exact h.answer call

/-- Trade updates up to the first that throws are calls of the account. -/
theorem exists_handled (feed : Feed) (pairs : List TradablePair) (api : PaperTradeApi) :
    ∃ handled : List TradablePair, (handleUpdates feed pairs api).2 =
      (handled.map Call.tradeUpdate).foldl (fun api call => (api.perform feed call).2) api := by
  induction pairs generalizing api with
  | nil => exact ⟨[], rfl⟩
  | cons pair rest ih =>
    rw [handleUpdates]
    rcases hupdate : tradeUpdateHandler feed pair api with ⟨fault | value, api'⟩
    · refine ⟨[pair], ?_⟩
      simp only [List.map_cons, List.map_nil, List.foldl_cons, List.foldl_nil, perform, hupdate]
    · obtain ⟨handled, hrest⟩ := ih api'
      refine ⟨pair :: handled, ?_⟩
      simp only [List.map_cons, List.foldl_cons, perform, hupdate]
      exact hrest

/-- A notification adds its trade updates to the session. -/
theorem notify (h : Played config data n w inputs) (order : WalkOrder) :
    ∃ inputs', Played config data n (BackTest.notify (order.walk w.subscriptions) w).2 inputs' := by
  obtain ⟨hsteady, hround, -⟩ := h.steady.notify order
  obtain ⟨pairs, data', -, -, hnotify, -, -⟩ := h.steady.notify_eq order
  obtain ⟨handled, hhandled⟩ := exists_handled w.feed pairs w.api
  refine ⟨_, h.calls (handled.map Call.tradeUpdate) hsteady hround ?_⟩
  rw [hnotify]
  exact hhandled

/-- The end of a round goes on to the next moment. -/
theorem finish (h : Played config data n w inputs) (raises : Option String) :
    Played config data (n + 1) (w.step (.finish raises)) inputs where
  steady := h.steady.next _
  dataTime := by
    have htime : (w.step (.finish raises)).data.dataTime = w.data.dataTime + w.data.stepSize := by
      cases raises <;> rfl
    rw [htime, h.dataTime, h.stepSize]
    push_cast
    ring
  stepSize := by
    rw [← h.stepSize]
    cases raises <;> rfl
  series := by
    rw [← h.series]
    cases raises <;> rfl
  api := by
    rw [← h.api]
    cases raises <;> rfl
  quotes := fun input hinput => by
    obtain ⟨k, hk, hquotes⟩ := h.quotes input hinput
    exact ⟨k, by omega, hquotes⟩
  ordered := h.ordered

/-- A round that returns goes on to the next moment, and one that throws stays. -/
theorem strategyRound (h : Played config data n w inputs) (strategy : Strategy κ) (order : WalkOrder)
    (state : κ) :
    let result := BackTest.strategyRound strategy order state w
    ∃ inputs', Played config data (if result.1 = .ok () then n + 1 else n) result.2.2 inputs' := by
  obtain ⟨notified, hnotified⟩ := h.notify order
  unfold BackTest.strategyRound
  rcases hnotify : BackTest.notify (order.walk w.subscriptions) w with ⟨fault | value, w₁⟩
  · rw [hnotify] at hnotified
    exact ⟨notified, hnotified⟩
  · rw [hnotify] at hnotified
    obtain ⟨iterated, hiterated⟩ := hnotified.iteration (strategy state)
    rcases hrun : (strategy state).run BackTest.answer w₁ with ⟨⟨fault | value, state'⟩, w₂⟩
    · rw [hrun] at hiterated
      by_cases hcaught : fault.isMbException
      · exact ⟨iterated, by simpa [hrun, hcaught] using hiterated.finish fault.what⟩
      · exact ⟨iterated, by simpa [hrun, hcaught] using hiterated⟩
    · rw [hrun] at hiterated
      exact ⟨iterated, by simpa [hrun] using hiterated.finish none⟩

/-- A loop of `m` rounds stays within the next `m` moments. -/
theorem strategyLoop (h : Played config data n w inputs) (strategy : Strategy κ)
    (orders : List WalkOrder) (state : κ) :
    ∃ last ≤ n + orders.length, ∃ inputs',
      Played config data last (BackTest.strategyLoop strategy orders state w).2.2 inputs' := by
  induction orders generalizing n w inputs state with
  | nil => exact ⟨n, le_rfl, inputs, h⟩
  | cons order rest ih =>
    obtain ⟨inputs', hround⟩ := h.strategyRound strategy order state
    unfold BackTest.strategyLoop
    rcases hresult : BackTest.strategyRound strategy order state w with ⟨fault | value, state', w'⟩
    · rw [hresult] at hround
      exact ⟨n, Nat.le_add_right _ _, inputs', hround⟩
    · rw [hresult] at hround
      obtain ⟨last, hlast, hplayed⟩ := ih hround state'
      exact ⟨last, by rw [List.length_cons]; simp only [if_pos] at hlast; omega, hplayed⟩

end Played

/-- Whatever a strategy does, the account it ends with is the one of a session of calls, each of which
saw the prices of the data at a moment that the back test has come to, in the order of the moments. -/
theorem strategyLoop_session (strategy : Strategy κ) (config : PaperTradingConfig)
    (data : BackTestingData) (hcache : data.iteratorCache = ∅) (hstep : 0 ≤ data.stepSize)
    (orders : List WalkOrder) (state : κ) :
    let ended := (strategyLoop strategy orders state (BackTest.create config data)).2.2
    ∃ last ≤ orders.length, ended.data.dataTime = data.dataTime + last * data.stepSize ∧
      ∃ inputs : List (Feed × Call),
        ended.api = (Session.run config inputs).api ∧
        (∀ input ∈ inputs, ∃ k ≤ last, Quotes data k input.1) ∧
        inputs.Pairwise (·.1.time ≤ ·.1.time) := by
  obtain ⟨last, hlast, inputs, hplayed⟩ :=
    (Played.start config hcache hstep).strategyLoop strategy orders state
  exact ⟨last, by omega, hplayed.dataTime, inputs, hplayed.api, hplayed.quotes, hplayed.ordered⟩

/-- Buy one unit for at most 10 whenever the price is below 10, and count the orders. -/
def buyLow (pair : TradablePair) : Strategy ℕ := fun bought =>
  .call (.getPrice pair) fun reply =>
    match reply with
    | .ok (.price price) =>
      if price < 10 then
        .call (.trade (.addOrder (createLimitOrder pair .buy 10 1))) fun _ => .done (.ok (), bought + 1)
      else .done (.ok (), bought)
    | _ => .done (.ok (), bought)

/-- Two orders are placed and filled when the price has fallen to 9. -/
theorem strategyLoop_session_buyLow :
    let pair : TradablePair := ⟨"BTC", "GBP"⟩
    let inOrder : WalkOrder := ⟨id, fun _ => List.Perm.refl _⟩
    let candles : List OhlcvData := [⟨60, 20, 20, 20, 20, 1⟩, ⟨120, 9, 9, 9, 9, 1⟩]
    let data := BackTestingData.create [pair] ((∅ : UnorderedMap _ _).insert pair candles) 60 120 60 3
    let ended := (strategyLoop (buyLow pair) [inOrder, inOrder, inOrder] 0
      (BackTest.create ⟨0, [("GBP", 100)]⟩ data)).2.2
    ended.api.closedIds = ["1", "2"] ∧
      ∃ last : ℕ, last ≤ 3 ∧ ended.data.dataTime = data.dataTime + last * data.stepSize ∧
        ∃ inputs : List (Feed × Call),
          ended.api = (Session.run ⟨0, [("GBP", 100)]⟩ inputs).api ∧
          (∀ input ∈ inputs, ∃ k ≤ last, Quotes data k input.1) ∧
          inputs.Pairwise (·.1.time ≤ ·.1.time) := by
  intro pair inOrder candles data ended
  exact ⟨by decide +kernel, strategyLoop_session (buyLow pair) ⟨0, [("GBP", 100)]⟩ data rfl (by decide)
    [inOrder, inOrder, inOrder] 0⟩

end BackTest

end MarketBlocks
