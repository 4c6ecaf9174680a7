import MarketBlocks.BackTesting.KnownPast
import MarketBlocks.Runner.Strategy

/-!
# Back tests do not look ahead

A strategy is run on two sets of data that show the same at every moment that it comes to. It cannot
tell them apart: it makes the same calls, it gets the same replies, and it ends with the same account,
whatever the data hold for later. This needs that a series that goes on is not compared with one that
has ended, since the trade of the last candle is made at its close price.
-/

namespace MarketBlocks

open Library PaperTradeApi

namespace BackTest

/-- A notification reads the data. -/
theorem sameMoment_notify {w : BackTest} (h : w.data.CacheBounded)
    (subscriptions : List UniqueWebsocketSubscription) :
    BackTestingData.SameMoment w.data (notify subscriptions w).2.data := by
  induction subscriptions generalizing w with
  | nil => exact .refl h
  | cons subscription rest ih =>
    have hone : BackTestingData.SameMoment w.data (notifyOne subscription w).2.data := by
      unfold notifyOne
      cases subscription.channel with
      | ohlcv | orderBook => exact .refl h
      | trade =>
        have hread := BackTestingData.sameMoment_query BackTestingData.tradeFrom h subscription.pairItem
        rw [← BackTestingData.getTrade_eq_query] at hread
        rcases hquery : w.data.getTrade subscription.pairItem with ⟨fault | trade, data⟩ <;>
          · rw [hquery] at hread
            exact hread
    rw [notify]
    rcases hnext : notifyOne subscription w with ⟨fault | value, w'⟩
    · rw [hnext] at hone
      exact hone
    · rw [hnext] at hone
      exact hone.trans (ih hone.cache)

variable {moments : Set ℤ} {w w' : BackTest}

/-- Two back tests that differ in data which nothing shows at `moments`. -/
structure Alike (moments : Set ℤ) (w w' : BackTest) : Prop where
  steady : w.Steady
  steady' : w'.Steady
  tradablePairs : w.data.tradablePairs = w'.data.tradablePairs
  dataTime : w.data.dataTime = w'.data.dataTime
  stepSize : w.data.stepSize = w'.data.stepSize
  shown : ∀ pair, ∀ time ∈ moments,
    BackTestingData.ShownAlike (w.data.series pair) (w'.data.series pair) time
  subscriptions : w.subscriptions = w'.subscriptions
  api : w.api = w'.api
  logger : w.logger = w'.logger

namespace Alike

/-- A steady back test is like itself. -/
theorem refl (h : w.Steady) : Alike moments w w where
  steady := h
  steady' := h
  tradablePairs := rfl
  dataTime := rfl
  stepSize := rfl
  shown _ _ _ := .refl _ _
  subscriptions := rfl
  api := rfl
  logger := rfl

/-- Reading the data leaves them alike. -/
theorem sameMoment (h : Alike moments w w') {data data' : BackTestingData}
    (hdata : BackTestingData.SameMoment w.data data)
    (hdata' : BackTestingData.SameMoment w'.data data') :
    Alike moments { w with data } { w' with data := data' } := by
  have hsteady := (steady_of_sameMoment h.steady hdata).1
  have hsteady' := (steady_of_sameMoment h.steady' hdata').1
  have hseries := hdata.series
  have hseries' := hdata'.series
  obtain ⟨_, _, rfl⟩ := hdata.same
  obtain ⟨_, _, rfl⟩ := hdata'.same
  refine ⟨hsteady, hsteady', h.tradablePairs, h.dataTime, h.stepSize, fun pair time htime => ?_,
    h.subscriptions, h.api, h.logger⟩
  rw [hseries, hseries']
  exact h.shown pair time htime

/-- The account sees the same prices. -/
theorem feed (h : Alike moments w w') (hnow : w.data.dataTime ∈ moments) : w.feed = w'.feed := by
  have htrade (pair : TradablePair) : (w.data.getTrade pair).1 = (w'.data.getTrade pair).1 := by
    rw [BackTestingData.getTrade_eq_query, BackTestingData.getTrade_eq_query,
      BackTestingData.query_fst _ h.steady.cache, BackTestingData.query_fst _ h.steady'.cache,
      ← h.dataTime]
    exact (h.shown pair _ hnow).trade
  simp only [BackTest.feed, htrade, h.subscriptions, h.dataTime]

/-! ## Calls -/

/-- A query that the moment answers alike. -/
theorem read (h : Alike moments w w') {α : Type}
    {answer : List OhlcvData → Option ℕ → ℤ → Except Fault α} {pair : TradablePair}
    (hshown : BackTestingData.fresh answer (w.data.series pair) w.data.dataTime =
      BackTestingData.fresh answer (w'.data.series pair) w.data.dataTime)
    (reply : α → ExchangeReply) :
    (w.read (BackTestingData.query answer pair w.data) reply).1 =
        (w'.read (BackTestingData.query answer pair w'.data) reply).1 ∧
      Alike moments (w.read (BackTestingData.query answer pair w.data) reply).2
        (w'.read (BackTestingData.query answer pair w'.data) reply).2 := by
  refine ⟨?_, h.sameMoment (BackTestingData.sameMoment_query answer h.steady.cache pair)
    (BackTestingData.sameMoment_query answer h.steady'.cache pair)⟩
  rw [BackTest.read, BackTest.read, BackTestingData.query_fst _ h.steady.cache,
    BackTestingData.query_fst _ h.steady'.cache, ← h.dataTime, hshown]

/-- Candles of any interval. -/
theorem getOhlcvFor (h : Alike moments w w') (hnow : w.data.dataTime ∈ moments) (pair : TradablePair)
    (interval : OhlcvInterval) (count : ℤ) :
    (w.data.getOhlcvFor pair interval count).1 = (w'.data.getOhlcvFor pair interval count).1 := by
  by_cases hinterval : interval = .unknown
  · rw [hinterval, BackTestingData.getOhlcvFor_unknown, BackTestingData.getOhlcvFor_unknown]
  · rw [BackTestingData.getOhlcvFor_of_ne hinterval, BackTestingData.getOhlcvFor_of_ne hinterval,
      BackTestingData.getOhlcv_eq_query, BackTestingData.getOhlcv_eq_query,
      BackTestingData.query_fst _ h.steady.cache, BackTestingData.query_fst _ h.steady'.cache,
      ← h.dataTime]
    exact (h.shown pair _ hnow).candles _ _

/-- A query for every pair of a list. -/
theorem readEach (h : Alike moments w w') {α : Type}
    {get : TradablePair → BackTestingData → Except Fault α × BackTestingData}
    {answer : List OhlcvData → Option ℕ → ℤ → Except Fault α}
    (hget : ∀ pair d, get pair d = BackTestingData.query answer pair d)
    (hshown : ∀ pair, BackTestingData.fresh answer (w.data.series pair) w.data.dataTime =
      BackTestingData.fresh answer (w'.data.series pair) w.data.dataTime)
    (pairs : List TradablePair) (reply : UnorderedMap TradablePair α → ExchangeReply) :
    (w.read (BackTestingData.getEach get pairs ∅ w.data) reply).1 =
        (w'.read (BackTestingData.getEach get pairs ∅ w'.data) reply).1 ∧
      Alike moments (w.read (BackTestingData.getEach get pairs ∅ w.data) reply).2
        (w'.read (BackTestingData.getEach get pairs ∅ w'.data) reply).2 := by
  obtain ⟨hreply, hmoment⟩ := BackTestingData.getEach_spec hget h.steady.cache pairs ∅
  obtain ⟨hreply', hmoment'⟩ := BackTestingData.getEach_spec hget h.steady'.cache pairs ∅
  refine ⟨?_, h.sameMoment hmoment hmoment'⟩
  rw [BackTest.read, BackTest.read, hreply, hreply', ← h.dataTime, BackTestingData.freshEach,
    BackTestingData.freshEach]
  simp only [hshown]

/-- A call of the account. -/
theorem performCall (h : Alike moments w w') (hnow : w.data.dataTime ∈ moments) (call : StrategyCall) :
    Alike moments (w.performCall call) (w'.performCall call) := by
  have hsteady := (h.steady.performCall call).1
  have hsteady' := (h.steady'.performCall call).1
  have hapi : (w.api.perform w.feed call.toCall).2 = (w'.api.perform w'.feed call.toCall).2 := by
    rw [h.feed hnow, h.api]
  revert hsteady hsteady'
  unfold BackTest.performCall
  cases call.toCall.request? with
  | none =>
    intro hsteady hsteady'
    exact ⟨hsteady, hsteady', h.tradablePairs, h.dataTime, h.stepSize, h.shown, h.subscriptions, hapi,
      h.logger⟩
  | some request =>
    intro hsteady hsteady'
    have hread := h.read (h.shown request.pair _ hnow).trade
      .lastTrade
    have hsubscriptions : w.subscribeForOrder request = w'.subscribeForOrder request := by
      rw [subscribeForOrder, subscribeForOrder, h.feed hnow, h.subscriptions]
    exact ⟨hsteady, hsteady', hread.2.tradablePairs, hread.2.dataTime, hread.2.stepSize, hread.2.shown,
      hsubscriptions, hapi, h.logger⟩

/-- Every call of a strategy is answered alike and leaves the back tests alike. -/
theorem answer (h : Alike moments w w') (hnow : w.data.dataTime ∈ moments) (call : ExchangeCall) :
    (BackTest.answer call w).1 = (BackTest.answer call w').1 ∧
      Alike moments (BackTest.answer call w).2 (BackTest.answer call w').2 := by
  cases call with
  | getStatus => exact ⟨rfl, h⟩
  | getTradablePairs => exact ⟨by rw [BackTest.answer, BackTest.answer, h.tradablePairs], h⟩
  | getOhlcv pair interval count =>
    exact ⟨congrArg (Except.map ExchangeReply.candles) (h.getOhlcvFor hnow pair interval count),
      h.sameMoment (BackTestingData.sameMoment_getOhlcvFor h.steady.cache pair interval count)
        (BackTestingData.sameMoment_getOhlcvFor h.steady'.cache pair interval count)⟩
  | getPrice pair =>
    rw [BackTest.answer, BackTest.answer, BackTestingData.getPrice_eq_query,
      BackTestingData.getPrice_eq_query]
    exact h.read (h.shown pair _ hnow).price _
  | getPrices pairs =>
    exact h.readEach BackTestingData.getPrice_eq_query (fun pair => (h.shown pair _ hnow).price) pairs _
  | getOrderBook pair depth | getStreamOrderBook pair depth =>
    rw [BackTest.answer, BackTest.answer, BackTestingData.getOrderBook_eq_query,
      BackTestingData.getOrderBook_eq_query]
    exact h.read (h.shown pair _ hnow).orderBook _
  | getOrderBooks pairs depth =>
    exact h.readEach (BackTestingData.getOrderBook_eq_query · depth)
      (fun pair => (h.shown pair _ hnow).orderBook) pairs _
  | getBalances => exact ⟨by rw [BackTest.answer, BackTest.answer, h.api], h⟩
  | getFee pair => exact ⟨by rw [BackTest.answer, BackTest.answer, h.api], h⟩
  | getOpenOrders => exact ⟨by rw [BackTest.answer, BackTest.answer, h.api, h.feed hnow], h⟩
  | getClosedOrders => exact ⟨by rw [BackTest.answer, BackTest.answer, h.api], h⟩
  | trade call =>
    exact ⟨by rw [BackTest.answer, BackTest.answer, h.api, h.feed hnow], h.performCall hnow call⟩
  | subscribe subscription =>
    rw [BackTest.answer, BackTest.answer]
    split
    · refine ⟨rfl, h.steady.next (.subscribe subscription), h.steady'.next (.subscribe subscription),
        h.tradablePairs, h.dataTime, h.stepSize, h.shown, ?_, h.api, h.logger⟩
      exact congrArg (BackTest.subscribe subscription.canonical) h.subscriptions
    · exact ⟨rfl, h⟩
  | unsubscribe subscription =>
    rw [BackTest.answer, BackTest.answer]
    split
    · refine ⟨rfl, h.steady.next (.unsubscribe subscription), h.steady'.next (.unsubscribe subscription),
        h.tradablePairs, h.dataTime, h.stepSize, h.shown, ?_, h.api, h.logger⟩
      exact congrArg (BackTest.unsubscribe subscription.canonical) h.subscriptions
    · exact ⟨rfl, h⟩
  | reset | disconnect | connectionStatus => exact ⟨rfl, h⟩
  | getSubscriptionStatus subscription =>
    rw [BackTest.answer, BackTest.answer]
    split
    · exact ⟨by rw [h.subscriptions], h⟩
    · exact ⟨rfl, h⟩
  | getLastTrade pair =>
    rw [BackTest.answer, BackTest.answer, BackTestingData.getTrade_eq_query,
      BackTestingData.getTrade_eq_query]
    exact h.read (h.shown pair _ hnow).trade _
  | getLastCandle pair interval =>
    refine ⟨?_, h.sameMoment (BackTestingData.sameMoment_getOhlcvFor h.steady.cache pair interval 1)
      (BackTestingData.sameMoment_getOhlcvFor h.steady'.cache pair interval 1)⟩
    rw [BackTest.answer, BackTest.answer, BackTest.read, BackTest.read,
      BackTestingData.getLastCandle_eq, BackTestingData.getLastCandle_eq,
      h.getOhlcvFor hnow pair interval 1]

/-- No strategy tells them apart within a round. -/
theorem iteration (h : Alike moments w w') (hnow : w.data.dataTime ∈ moments) {α : Type*}
    (program : Interaction ExchangeCall (Except Fault ExchangeReply) α) :
    (program.run BackTest.answer w).1 = (program.run BackTest.answer w').1 ∧
      Alike moments (program.run BackTest.answer w).2 (program.run BackTest.answer w').2 := by
  have hanswer : ∀ call (w w' : BackTest), Alike moments w w' ∧ w.data.dataTime ∈ moments →
      (BackTest.answer call w).1 = (BackTest.answer call w').1 ∧
        Alike moments (BackTest.answer call w).2 (BackTest.answer call w').2 ∧
          (BackTest.answer call w).2.data.dataTime ∈ moments := by
    rintro call w w' ⟨h, hnow⟩
    obtain ⟨hreply, halike⟩ := h.answer hnow call
    exact ⟨hreply, halike, (h.steady.answer call).2.dataTime.symm ▸ hnow⟩
  obtain ⟨hvalue, halike, -⟩ := Interaction.run_lockstep
    (S := fun w w' => Alike moments w w' ∧ w.data.dataTime ∈ moments) hanswer program ⟨h, hnow⟩
  exact ⟨hvalue, halike⟩

/-! ## Rounds -/

/-- The trade messages of some pairs. -/
theorem notify (h : Alike moments w w') (hnow : w.data.dataTime ∈ moments) (order : WalkOrder) :
    (BackTest.notify (order.walk w.subscriptions) w).1 =
        (BackTest.notify (order.walk w'.subscriptions) w').1 ∧
      Alike moments (BackTest.notify (order.walk w.subscriptions) w).2
        (BackTest.notify (order.walk w'.subscriptions) w').2 := by
  obtain ⟨pairs, data, -, hpairs, hnotify, -, -⟩ := h.steady.notify_eq order
  obtain ⟨pairs', data', -, hpairs', hnotify', -, -⟩ := h.steady'.notify_eq order
  have hsame : pairs = pairs' := by
    rw [← h.subscriptions, hpairs] at hpairs'
    refine List.map_injective_iff.mpr ?_ hpairs'
    exact fun _ _ heq => congrArg BasicWebsocketSubscription.pairItem heq
  have hupdates : handleUpdates w.feed pairs w.api = handleUpdates w'.feed pairs' w'.api := by
    rw [h.feed hnow, h.api, hsame]
  have hread := h.sameMoment (sameMoment_notify h.steady.cache (order.walk w.subscriptions))
    (sameMoment_notify h.steady'.cache (order.walk w'.subscriptions))
  have hsteady := (h.steady.notify order).1
  have hsteady' := (h.steady'.notify order).1
  rw [hnotify] at hsteady hread ⊢
  rw [hnotify'] at hsteady' hread ⊢
  refine ⟨?_, hsteady, hsteady', hread.tradablePairs, hread.dataTime,
    hread.stepSize, hread.shown, h.subscriptions, congrArg Prod.snd hupdates, h.logger⟩
  simp only [hupdates]

/-- The end of a round. -/
theorem finish (h : Alike moments w w') (raises : Option String) :
    Alike moments (w.step (.finish raises)) (w'.step (.finish raises)) := by
  have hsteady := h.steady.next (.finish raises)
  have hsteady' := h.steady'.next (.finish raises)
  have htime : w.data.increment.dataTime = w'.data.increment.dataTime := by
    rw [BackTestingData.increment, BackTestingData.increment, h.dataTime, h.stepSize]
  cases raises with
  | none =>
    refine ⟨hsteady, hsteady', h.tradablePairs, htime, h.stepSize, h.shown, h.subscriptions, h.api, ?_⟩
    simp only [BackTest.step, h.logger, h.api]
  | some message =>
    exact ⟨hsteady, hsteady', h.tradablePairs, htime, h.stepSize, h.shown, h.subscriptions, h.api,
      h.logger⟩

/-- A round of a strategy ends alike. -/
theorem strategyRound {κ : Type*} (h : Alike moments w w') (hnow : w.data.dataTime ∈ moments)
    (strategy : Strategy κ) (order : WalkOrder) (state : κ) :
    let result := BackTest.strategyRound strategy order state w
    let result' := BackTest.strategyRound strategy order state w'
    result.1 = result'.1 ∧ result.2.1 = result'.2.1 ∧ Alike moments result.2.2 result'.2.2 := by
  obtain ⟨hresult, hnotified⟩ := h.notify hnow order
  have hstill := (h.steady.notify order).2.1.dataTime
  unfold BackTest.strategyRound
  rcases hnotify : BackTest.notify (order.walk w.subscriptions) w with ⟨result, w₁⟩
  rcases hnotify' : BackTest.notify (order.walk w'.subscriptions) w' with ⟨result', w₁'⟩
  rw [hnotify] at hresult hnotified hstill
  rw [hnotify'] at hresult hnotified
  obtain rfl : result = result' := hresult
  cases result with
  | error fault => exact ⟨rfl, rfl, hnotified⟩
  | ok value =>
    obtain ⟨hvalue, hiterated⟩ := hnotified.iteration (hstill ▸ hnow) (strategy state)
    rcases hrun : (strategy state).run BackTest.answer w₁ with ⟨⟨ended, kept⟩, w₂⟩
    rcases hrun' : (strategy state).run BackTest.answer w₁' with ⟨ended', w₂'⟩
    rw [hrun, hrun'] at hvalue hiterated
    obtain rfl : (ended, kept) = ended' := hvalue
    cases ended with
    | ok value => simpa [hrun, hrun'] using hiterated.finish none
    | error fault =>
      by_cases hcaught : fault.isMbException
      · simpa [hrun, hrun', hcaught] using hiterated.finish fault.what
      · simpa [hrun, hrun', hcaught] using hiterated

/-- A loop over moments that show the same ends alike. -/
theorem strategyLoop {κ : Type*} (h : Alike moments w w') (strategy : Strategy κ)
    (orders : List WalkOrder) (state : κ)
    (hmoments : ∀ k < orders.length, w.data.dataTime + k * w.data.stepSize ∈ moments) :
    let result := BackTest.strategyLoop strategy orders state w
    let result' := BackTest.strategyLoop strategy orders state w'
    result.1 = result'.1 ∧ result.2.1 = result'.2.1 ∧ Alike moments result.2.2 result'.2.2 := by
  induction orders generalizing w w' state with
  | nil => exact ⟨rfl, rfl, h⟩
  | cons order rest ih =>
    have hnow : w.data.dataTime ∈ moments := by
      simpa using hmoments 0 (by simp)
    obtain ⟨hresult, hstate, halike⟩ := h.strategyRound hnow strategy order state
    have hmoves := (h.steady.strategyRound strategy order state).2
    unfold BackTest.strategyLoop
    rcases hround : BackTest.strategyRound strategy order state w with ⟨result, kept, w₁⟩
    rcases hround' : BackTest.strategyRound strategy order state w' with ⟨result', kept', w₁'⟩
    rw [hround] at hresult hstate halike hmoves
    rw [hround'] at hresult hstate halike
    obtain rfl : result = result' := hresult
    obtain rfl : kept = kept' := hstate
    cases result with
    | error fault => exact ⟨rfl, rfl, halike⟩
    | ok value =>
      refine ih halike kept fun k hk => ?_
      obtain ⟨htime, hstep⟩ := hmoves rfl
      have hnext := hmoments (k + 1) (by simpa using hk)
      rw [htime, hstep]
      convert hnext using 1
      push_cast
      ring

end Alike

/-- Two sets of data whose series cannot be told apart until `moment`, for every pair. -/
structure SameUntil (data data' : BackTestingData) (moment : ℤ) : Prop where
  tradablePairs : data.tradablePairs = data'.tradablePairs
  dataTime : data.dataTime = data'.dataTime
  stepSize : data.stepSize = data'.stepSize
  known : ∀ pair, BackTestingData.KnownAlike (data.series pair) (data'.series pair) moment

/-- Back tests that begin on such data are alike until the moment. -/
theorem SameUntil.alike {data data' : BackTestingData} {moment : ℤ} (hsame : SameUntil data data' moment)
    (config : PaperTradingConfig) (hcache : data.iteratorCache = ∅) (hcache' : data'.iteratorCache = ∅)
    (hstep : 0 ≤ data.stepSize) :
    Alike {time | time ≤ moment} (BackTest.create config data) (BackTest.create config data') :=
  ⟨(Steady.create config hcache hstep).1, (Steady.create config hcache' (hsame.stepSize ▸ hstep)).1,
    hsame.tradablePairs, hsame.dataTime, hsame.stepSize,
    fun pair _ htime => (hsame.known pair).shownAlike htime, rfl, rfl, rfl⟩

/-- Every strategy ends alike on two sets of data that cannot be told apart until a moment that the
back test does not go beyond: with the same result and the same value kept, the same account, the same
subscriptions and the same trades logged. -/
theorem strategyLoop_no_look_ahead {κ : Type*} (strategy : Strategy κ) (config : PaperTradingConfig)
    (data data' : BackTestingData) (hcache : data.iteratorCache = ∅) (hcache' : data'.iteratorCache = ∅)
    (hstep : 0 ≤ data.stepSize) {moment : ℤ} (hsame : SameUntil data data' moment)
    (orders : List WalkOrder)
    (hmoment : ∀ k < orders.length, data.dataTime + k * data.stepSize ≤ moment) (state : κ) :
    let ended := strategyLoop strategy orders state (BackTest.create config data)
    let ended' := strategyLoop strategy orders state (BackTest.create config data')
    ended.1 = ended'.1 ∧ ended.2.1 = ended'.2.1 ∧ ended.2.2.api = ended'.2.2.api ∧
      ended.2.2.subscriptions = ended'.2.2.subscriptions ∧ ended.2.2.logger = ended'.2.2.logger := by
  obtain ⟨hresult, hstate, halike⟩ :=
    (hsame.alike config hcache hcache' hstep).strategyLoop strategy orders state hmoment
  exact ⟨hresult, hstate, halike.api, halike.subscriptions, halike.logger⟩

/-- Nothing that happens after the second candle changes the two rounds before it. -/
theorem strategyLoop_no_look_ahead_buyLow :
    let pair : TradablePair := ⟨"BTC", "GBP"⟩
    let inOrder : WalkOrder := ⟨id, fun _ => List.Perm.refl _⟩
    let serve (later : OhlcvData) := BackTestingData.create [pair] ((∅ : UnorderedMap _ _).insert pair
      [⟨60, 20, 20, 20, 20, 1⟩, ⟨120, 9, 9, 9, 9, 1⟩, later]) 60 180 60 3
    let ended (later : OhlcvData) := strategyLoop (buyLow pair) [inOrder, inOrder] 0
      (BackTest.create ⟨0, [("GBP", 100)]⟩ (serve later))
    (ended ⟨180, 50, 50, 50, 50, 1⟩).2.1 = 1 ∧
      (ended ⟨180, 50, 50, 50, 50, 1⟩).2.2.api = (ended ⟨200, 5, 6, 4, 5, 2⟩).2.2.api := by
  intro pair inOrder serve ended
  have hseries (later : OhlcvData) (other : TradablePair) : (serve later).series other =
      if other = pair then [⟨60, 20, 20, 20, 20, 1⟩, ⟨120, 9, 9, 9, 9, 1⟩, later] else [] := by
    simp only [serve, BackTestingData.series, BackTestingData.create, UnorderedMap.lookup_insert_eq]
    split <;> rfl
  have hknown (other : TradablePair) : BackTestingData.KnownAlike
      ((serve ⟨180, 50, 50, 50, 50, 1⟩).series other) ((serve ⟨200, 5, 6, 4, 5, 2⟩).series other)
      120 := by
    rw [hseries, hseries]
    split <;> exact ⟨by decide +kernel, by decide +kernel, by decide +kernel, by decide +kernel⟩
  have hmoment : ∀ k < 2, (60 : ℤ) + (k : ℕ) * 60 ≤ 120 := by decide
  exact ⟨by decide +kernel, (strategyLoop_no_look_ahead (buyLow pair) ⟨0, [("GBP", 100)]⟩
    (serve ⟨180, 50, 50, 50, 50, 1⟩) (serve ⟨200, 5, 6, 4, 5, 2⟩) rfl rfl (by decide)
    ⟨rfl, rfl, rfl, hknown⟩ [inOrder, inOrder] hmoment 0).2.2.1⟩

end BackTest

end MarketBlocks
