import MarketBlocks.Runner.NotifyHandlers
import MarketBlocks.Runner.Strategy

/-!
# One market within an iteration

However many calls a strategy makes in one iteration, and whatever it orders in between, it sees one
market. The market API, the stream and the account agree on the price of a pair: it is the price that
is asked for, the one of the last trade, the one that is confirmed, and the one that market orders are
filled at. The order books of the API and of the stream are one book, and the last candle of the stream
is the newest one of the API.
-/

namespace MarketBlocks

open Library PaperTradeApi

/-- What a moment shows of the market. -/
structure Market where
  lastTrade : TradablePair → TradeUpdate
  book : TradablePair → OrderBookState
  candles : TradablePair → OhlcvInterval → ℤ → Except Fault (List OhlcvData)

/-- The price is the one of the last trade. -/
def Market.price (market : Market) (pair : TradablePair) : ℚ := (market.lastTrade pair).price

/-- The reply to a call agrees with the market. -/
def Market.Shows (market : Market) (reply : Except Fault ExchangeReply) : ExchangeCall → Prop
  | .getPrice pair => reply = .ok (.price (market.price pair))
  | .getPrices pairs => ∃ prices, reply = .ok (.prices prices) ∧
      ∀ pair, prices.lookup pair = if pair ∈ pairs then some (market.price pair) else none
  | .getLastTrade pair => reply = .ok (.lastTrade (market.lastTrade pair))
  | .getOrderBook pair _ | .getStreamOrderBook pair _ => reply = .ok (.orderBook (market.book pair))
  | .getOrderBooks pairs _ => ∃ books, reply = .ok (.orderBooks books) ∧
      ∀ pair, books.lookup pair = if pair ∈ pairs then some (market.book pair) else none
  | .getOhlcv pair interval count => reply = (market.candles pair interval count).map .candles
  | .getLastCandle pair interval =>
    reply = (market.candles pair interval 1).map (fun newest => .candle (newest.headD {})) ∧
      (interval ≠ .unknown → ∃ newest, market.candles pair interval 1 = .ok newest)
  | .trade (.addOrderConfirm request) => ∀ confirmation,
      reply = .ok (.traded (.confirmation confirmation)) →
        confirmation.price = market.price request.pair
  | _ => True

/-- A closed order is one of the request, and a market order was filled at the price of the market. -/
structure Market.Filled (market : Market) (request : OrderRequest) (order : OrderDescription) : Prop where
  pairName : order.pairName = request.pair.toString
  orderType : order.orderType = request.orderType
  price : request.orderType = .market → order.price = market.price request.pair

/-- An order that is closed by a call of the strategy. -/
def Market.Closes (market : Market) (call : ExchangeCall) (order : OrderDescription) : Prop :=
  ∃ trade request, call = .trade trade ∧ trade.toCall.request? = some request ∧
    market.Filled request order

namespace BackTestingData

variable {d : BackTestingData}

/-- Queries that all succeed are collected under their pairs. -/
theorem freshEach_of_ok {α : Type} {answer : List OhlcvData → Option ℕ → ℤ → Except Fault α}
    {series : TradablePair → List OhlcvData} {time : ℤ} {value : TradablePair → α}
    (hvalue : ∀ pair, fresh answer (series pair) time = .ok (value pair)) (pairs : List TradablePair)
    (found : UnorderedMap TradablePair α) :
    ∃ all, freshEach answer series time pairs found = .ok all ∧ ∀ pair, all.lookup pair =
      (found.lookup pair).or (if pair ∈ pairs then some (value pair) else none) := by
  induction pairs generalizing found with
  | nil => exact ⟨found, rfl, by simp⟩
  | cons first rest ih =>
    obtain ⟨all, hall, hlookup⟩ := ih (UnorderedMap.emplace found first (value first))
    refine ⟨all, ?_, fun pair => ?_⟩
    · rw [freshEach, List.foldlM_cons, hvalue first]
      exact hall
    · rw [hlookup, UnorderedMap.lookup_emplace]
      by_cases hfirst : pair = first
      · subst hfirst
        cases found.lookup pair <;> simp
      · simp [hfirst]

end BackTestingData

namespace BackTest

variable {w v : BackTest}

/-- The market that a back test shows. -/
def market (w : BackTest) : Market where
  lastTrade := w.feed.lastTrade
  book pair :=
    match (w.data.getOrderBook pair 0).1 with
    | .ok book => book
    | .error _ => { timeStamp := 0, asks := [], bids := [] }
  candles pair interval count := (w.data.getOhlcvFor pair interval count).1

/-- The price at a tick is that of its market. -/
theorem fresh_price (h : w.data.CacheBounded) (pair : TradablePair) :
    BackTestingData.fresh (fun data iterator time =>
        (BackTestingData.tradeFrom data iterator time).map (·.price)) (w.data.series pair)
      w.data.dataTime = .ok (w.market.price pair) :=
  congrArg (Except.map TradeUpdate.price) (fresh_trade h pair)

/-- The book at a tick is that of its market. -/
theorem fresh_book (h : w.data.CacheBounded) (pair : TradablePair) :
    BackTestingData.fresh (fun data iterator _ => BackTestingData.orderBookFrom data iterator)
      (w.data.series pair) w.data.dataTime = .ok (w.market.book pair) := by
  obtain ⟨book, hbook, -⟩ := BackTestingData.getOrderBook_spec h pair 0
  rw [← BackTestingData.query_fst _ h, ← BackTestingData.getOrderBook_eq_query pair 0, hbook]
  simp only [market, hbook]

/-- The market is fixed by the series and the data time. -/
theorem market_eq (h : w.data.CacheBounded) (h' : v.data.CacheBounded) (hround : SameRound w v) :
    v.market = w.market := by
  have htrade (pair : TradablePair) : v.market.lastTrade pair = w.market.lastTrade pair := by
    have hvalue := fresh_trade h' pair
    rw [hround.series, hround.dataTime, fresh_trade h pair] at hvalue
    exact (Except.ok.inj hvalue).symm
  have hbook (pair : TradablePair) : v.market.book pair = w.market.book pair := by
    have hvalue := fresh_book h' pair
    rw [hround.series, hround.dataTime, fresh_book h pair] at hvalue
    exact (Except.ok.inj hvalue).symm
  have hcandles (pair : TradablePair) (interval : OhlcvInterval) (count : ℤ) :
      v.market.candles pair interval count = w.market.candles pair interval count := by
    simp only [market]
    by_cases hinterval : interval = .unknown
    · rw [hinterval, BackTestingData.getOhlcvFor_unknown, BackTestingData.getOhlcvFor_unknown]
    · rw [BackTestingData.getOhlcvFor_of_ne hinterval, BackTestingData.getOhlcvFor_of_ne hinterval,
        BackTestingData.getOhlcv_eq_query, BackTestingData.getOhlcv_eq_query,
        BackTestingData.query_fst _ h, BackTestingData.query_fst _ h', hround.series, hround.dataTime]
  rw [show v.market = ⟨v.market.lastTrade, v.market.book, v.market.candles⟩ from rfl,
    funext htrade, funext hbook, funext fun pair => funext fun interval => funext (hcandles pair interval)]

/-- Every call is answered out of the market. -/
theorem Steady.shows (h : w.Steady) (call : ExchangeCall) :
    w.market.Shows (BackTest.answer call w).1 call := by
  cases call with
  | getStatus | getTradablePairs | getBalances | getFee | getOpenOrders | getClosedOrders | reset
  | disconnect | connectionStatus | subscribe | unsubscribe | getSubscriptionStatus => trivial
  | getOhlcv pair interval count => exact rfl
  | getPrice pair =>
    rw [Market.Shows, BackTest.answer, BackTestingData.getPrice_eq_query, BackTest.read,
      BackTestingData.query_fst _ h.cache, fresh_price h.cache]
    rfl
  | getPrices pairs =>
    obtain ⟨prices, hprices, hlookup⟩ := BackTestingData.freshEach_of_ok
      (fun pair => fresh_price h.cache pair) pairs ∅
    refine ⟨prices, ?_, by simpa using hlookup⟩
    have hreply := (BackTestingData.getEach_spec BackTestingData.getPrice_eq_query h.cache pairs ∅).1
    rw [BackTest.answer, BackTest.read, BackTestingData.getPrices, hreply, hprices]
    rfl
  | getOrderBook pair depth | getStreamOrderBook pair depth =>
    rw [Market.Shows, BackTest.answer, BackTestingData.getOrderBook_eq_query, BackTest.read,
      BackTestingData.query_fst _ h.cache, fresh_book h.cache]
    rfl
  | getOrderBooks pairs depth =>
    obtain ⟨books, hbooks, hlookup⟩ := BackTestingData.freshEach_of_ok
      (fun pair => fresh_book h.cache pair) pairs ∅
    refine ⟨books, ?_, by simpa using hlookup⟩
    have hreply := (BackTestingData.getEach_spec
      (BackTestingData.getOrderBook_eq_query · depth) h.cache pairs ∅).1
    rw [BackTest.answer, BackTest.read, BackTestingData.getOrderBooks, hreply, hbooks]
    rfl
  | getLastTrade pair =>
    rw [Market.Shows, BackTest.answer, BackTestingData.getTrade_eq_query, BackTest.read,
      BackTestingData.query_fst _ h.cache, fresh_trade h.cache]
    rfl
  | getLastCandle pair interval =>
    constructor
    · simp only [BackTest.answer, BackTest.read, BackTestingData.getLastCandle_eq, market]
      cases (w.data.getOhlcvFor pair interval 1).1 <;> rfl
    · intro hinterval
      simp only [market]
      rw [BackTestingData.getOhlcvFor_of_ne hinterval]
      exact BackTestingData.exists_getOhlcv_one h.cache pair interval.toSeconds
  | trade call =>
    cases call with
    | addOrder | cancelOrder => trivial
    | addOrderConfirm request =>
      intro confirmation hreply
      rw [BackTest.answer, StrategyCall.toCall, perform, addOrderConfirm] at hreply
      rcases hadded : PaperTradeApi.addOrder w.feed request w.api with ⟨fault | orderId, api⟩
      · simp [hadded, Except.map] at hreply
      · simp only [hadded, Except.map, Except.ok.injEq, ExchangeReply.traded.injEq,
          Reply.confirmation.injEq] at hreply
        rw [← hreply]
        rfl

/-- The attempt to fill a new order closes nothing else, and a market order at the last price. -/
theorem tryFillOrder_filled {id : String} {request : OrderRequest} {api : PaperTradeApi}
    (hopen : api.openOrders.lookup id = some request) {order : OrderDescription}
    (hclosed : order ∈ (tryFillOrder w.feed id api).2.closedOrders) :
    order ∈ api.closedOrders ∨ w.market.Filled request order := by
  obtain ⟨result, api', htry, hcase⟩ := tryFillOrder_evaluated w.feed hopen
  rw [htry] at hclosed
  cases hcase with
  | noPrice | waiting | unpaid => exact .inl hclosed
  | filled fillPrice htrigger hcovers =>
    rcases List.mem_append.mp hclosed with hold | hnew
    · exact .inl hold
    · rw [List.mem_singleton.mp hnew]
      refine .inr ⟨rfl, rfl, fun hmarket => ?_⟩
      rw [trigger, triggerPrice, hmarket] at htrigger
      split at htrigger
      · cases htrigger
      · exact (Option.some.inj htrigger).symm

/-- A call closes the order that it adds, at the price of the market. -/
theorem Steady.answer_filled (h : w.Steady) (call : ExchangeCall) {order : OrderDescription}
    (hclosed : order ∈ (BackTest.answer call w).2.api.closedOrders) :
    order ∈ w.api.closedOrders ∨ w.market.Closes call order := by
  rcases answer_cases h.cache call with ⟨-, data, -, hnext⟩ | ⟨trade, hevent, hnext⟩ |
    ⟨event, subscriptions, -, hnext, -⟩
  · exact .inl (by simpa [hnext] using hclosed)
  · obtain ⟨s, hapi, hwell⟩ := h.known
    rw [hnext, performCall_api, ← hapi] at hclosed
    rw [← hapi]
    cases hrequest : trade.toCall.request? with
    | some request =>
      rw [perform_snd_of_request hrequest] at hclosed
      rcases tryFillOrder_filled (hwell.register_lookup request) hclosed with hold | hnew
      · exact .inl hold
      · exact .inr ⟨trade, request, eq_trade_of_event hevent, hrequest, hnew⟩
    | none =>
      cases trade with
      | addOrder | addOrderConfirm => cases hrequest
      | cancelOrder orderId =>
        left
        by_cases hopen : orderId ∈ s.api.openOrders
        · simpa [StrategyCall.toCall, perform, PaperTradeApi.cancelOrder, hopen] using hclosed
        · simpa [StrategyCall.toCall, perform, PaperTradeApi.cancelOrder, hopen] using hclosed
  · exact .inl (by simpa [hnext] using hclosed)

/-- In one iteration, whatever the strategy does, every reply agrees with the market that the
iteration begins with, and every order that is closed comes from a request among its calls, which is
filled at the price of that market if it is a market order. -/
theorem iteration_one_market (h : w.Steady) {α : Type*}
    (program : Interaction ExchangeCall (Except Fault ExchangeReply) α) :
    (∀ call reply, (call, reply) ∈ program.transcript BackTest.answer w →
        w.market.Shows reply call) ∧
      ∀ order ∈ (program.run BackTest.answer w).2.api.closedOrders,
        order ∈ w.api.closedOrders ∨
          ∃ call ∈ program.calls BackTest.answer w, w.market.Closes call order := by
  have hnext : ∀ call v, v.Steady ∧ SameRound w v →
      (BackTest.answer call v).2.Steady ∧ SameRound w (BackTest.answer call v).2 := by
    rintro call v ⟨hsteady, hround⟩
    obtain ⟨hsteady', hround'⟩ := hsteady.answer call
    exact ⟨hsteady', hround.trans hround'⟩
  constructor
  · intro call reply hmem
    obtain ⟨v, ⟨hsteady, hround⟩, rfl⟩ := Interaction.exists_of_mem_transcript
      (I := fun v => v.Steady ∧ SameRound w v) hnext ⟨h, rfl, rfl, rfl⟩ hmem
    rw [← market_eq h.cache hsteady.cache hround]
    exact hsteady.shows call
  · intro order hmem
    refine Interaction.exists_of_mem_run (I := fun v => v.Steady ∧ SameRound w v)
      (fun v => v.api.closedOrders) ?_ program ⟨h, rfl, rfl, rfl⟩ hmem
    intro call v hstate
    refine ⟨hnext call v hstate, fun order hmem => ?_⟩
    have hfilled := hstate.1.answer_filled call hmem
    rw [market_eq h.cache hstate.1.cache hstate.2] at hfilled
    exact hfilled

/-- The price is asked for, two units are bought at the market, and the last trade is read. -/
theorem iteration_one_market_buy :
    let pair : TradablePair := ⟨"BTC", "GBP"⟩
    let candles : List OhlcvData := [⟨60, 20, 21, 19, 20, 3⟩, ⟨120, 9, 9, 9, 9, 1⟩]
    let w := BackTest.create ⟨0, [("GBP", 100)]⟩ (BackTestingData.create [pair]
      ((∅ : UnorderedMap _ _).insert pair candles) 60 120 60 2)
    let program : Interaction ExchangeCall (Except Fault ExchangeReply) Unit :=
      .call (.getPrice pair) fun _ =>
        .call (.trade (.addOrderConfirm (createMarketOrder pair .buy 2))) fun _ =>
          .call (.getLastTrade pair) fun _ => .done ()
    w.market.price pair = 20 ∧ (program.run BackTest.answer w).2.api.closedIds = ["1"] ∧
      (∀ call reply, (call, reply) ∈ program.transcript BackTest.answer w →
        w.market.Shows reply call) ∧
      ∀ order ∈ (program.run BackTest.answer w).2.api.closedOrders,
        order ∈ w.api.closedOrders ∨
          ∃ call ∈ program.calls BackTest.answer w, w.market.Closes call order := by
  intro pair candles w program
  exact ⟨by decide +kernel, by decide +kernel,
    iteration_one_market (Steady.create ⟨0, [("GBP", 100)]⟩ rfl (by decide)).1 program⟩

end BackTest

end MarketBlocks
