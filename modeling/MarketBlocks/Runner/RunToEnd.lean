import MarketBlocks.Runner.BackTestRunner
import Mathlib.Tactic.Ring

/-!
# When a back test runs to its end

A notification is one walk over the orders of all subscribed pairs, at prices that do not
change while it lasts. It returns exactly when every order that triggers is covered at its
turn; nothing else in a round can end the run.
-/

namespace MarketBlocks

open Library PaperTradeApi

namespace BackTest

/-- What every round finds: a sound cache, an account that some session reached, and one
subscription to the trades of each of its pairs. -/
structure Sound (w : BackTest) : Prop where
  cache : w.data.CacheBounded
  step : 0 ≤ w.data.stepSize
  known : ∃ s : Session, s.api = w.api ∧ s.WellFormed
  trades : ∀ subscription ∈ w.subscriptions, subscription = .createTradeSub subscription.pairItem
  nodup : w.subscriptions.Nodup

/-- A sound state as far as the account is concerned: beside the subscriptions to the trades of some
pairs there may be others. -/
structure Steady (w : BackTest) : Prop where
  cache : w.data.CacheBounded
  step : 0 ≤ w.data.stepSize
  known : ∃ s : Session, s.api = w.api ∧ s.WellFormed
  trades : ∀ subscription ∈ w.subscriptions, subscription.channel = .trade →
    subscription = .createTradeSub subscription.pairItem
  nodup : w.subscriptions.Nodup

/-- What is sound is steady. -/
theorem Sound.steady {w : BackTest} (h : w.Sound) : w.Steady :=
  ⟨h.cache, h.step, h.known, fun subscription hmem _ => h.trades subscription hmem, h.nodup⟩

/-- What is steady and watches trades only is sound. -/
theorem Steady.sound {w : BackTest} (h : w.Steady)
    (htrades : ∀ subscription ∈ w.subscriptions, subscription.channel = .trade) : w.Sound :=
  ⟨h.cache, h.step, h.known, fun subscription hmem => h.trades subscription hmem
    (htrades subscription hmem), h.nodup⟩

/-- Two moments of one round. -/
structure SameRound (w w' : BackTest) : Prop where
  dataTime : w'.data.dataTime = w.data.dataTime
  stepSize : w'.data.stepSize = w.data.stepSize
  series : w'.data.series = w.data.series

/-- Two steps within one round. -/
theorem SameRound.trans {w w' w'' : BackTest} (h : SameRound w w') (h' : SameRound w' w'') :
    SameRound w w'' :=
  ⟨h'.dataTime.trans h.dataTime, h'.stepSize.trans h.stepSize, h'.series.trans h.series⟩

/-- The feed is fixed by the series, the data time and the subscriptions. -/
theorem feed_eq {w w' : BackTest} (h : w.data.CacheBounded) (h' : w'.data.CacheBounded)
    (hround : SameRound w w') (hsubscriptions : w'.subscriptions = w.subscriptions) :
    w'.feed = w.feed := by
  have htrade (pair : TradablePair) :
      (w'.data.getTrade pair).1 = (w.data.getTrade pair).1 := by
    rw [BackTestingData.getTrade_eq_query, BackTestingData.getTrade_eq_query,
      (BackTestingData.query_spec _ h pair).1, (BackTestingData.query_spec _ h' pair).1,
      hround.series, hround.dataTime]
  simp only [feed, htrade, hsubscriptions, hround.dataTime]

/-- A query of the data keeps the round and the cache sound. -/
theorem sameRound_query {α : Type} {w : BackTest} (h : w.data.CacheBounded)
    (answer : List OhlcvData → Option ℕ → ℤ → α) (pair : TradablePair) :
    SameRound w { w with data := (BackTestingData.query answer pair w.data).2 } ∧
      (BackTestingData.query answer pair w.data).2.CacheBounded := by
  obtain ⟨_, hbounded, hseries, _, _, hsame⟩ := BackTestingData.query_spec answer h pair
  refine ⟨⟨?_, ?_, hseries⟩, hbounded⟩
  · simp only [hsame]
  · simp only [hsame]

/-- A trade can be taken without leaving the round. -/
theorem sameRound_getTrade {w : BackTest} (h : w.data.CacheBounded) (pair : TradablePair) :
    SameRound w { w with data := (w.data.getTrade pair).2 } ∧
      (w.data.getTrade pair).2.CacheBounded :=
  sameRound_query h BackTestingData.tradeFrom pair

/-! ## The notification -/

/-- One trade message. -/
theorem notifyOne_trade {w : BackTest} (h : w.data.CacheBounded) (pair : TradablePair) :
    notifyOne (.createTradeSub pair) w =
      ((tradeUpdateHandler w.feed pair w.api).1,
        { w with
          data := (w.data.getTrade pair).2
          api := (tradeUpdateHandler w.feed pair w.api).2 }) := by
  obtain ⟨hround, hbounded⟩ := sameRound_getTrade h pair
  have hfeed : BackTest.feed { w with data := (w.data.getTrade pair).2 } = w.feed :=
    feed_eq h hbounded hround rfl
  obtain ⟨trade, htrade⟩ := BackTestingData.getTrade_ok h pair
  have hsplit : w.data.getTrade pair = (.ok trade, (w.data.getTrade pair).2) := by
    rw [← htrade]
  simp only [notifyOne, BasicWebsocketSubscription.createTradeSub]
  rw [hsplit]
  simp only [hfeed]

/-- The trade messages of some pairs are the trade updates of the account, one after the other.
Beside the account they write the data only, and stay at the same moment. -/
theorem notify_pairs {w : BackTest} (h : w.data.CacheBounded) (pairs : List TradablePair) :
    ∃ data, notify (pairs.map .createTradeSub) w =
        ((handleUpdates w.feed pairs w.api).1,
          { w with data, api := (handleUpdates w.feed pairs w.api).2 }) ∧
      data.CacheBounded ∧ SameRound w { w with data } := by
  induction pairs generalizing w with
  | nil => exact ⟨w.data, rfl, h, rfl, rfl, rfl⟩
  | cons pair rest ih =>
    obtain ⟨hround, hbounded⟩ := sameRound_getTrade h pair
    rw [List.map_cons, notify, handleUpdates, notifyOne_trade h pair]
    rcases hupdate : tradeUpdateHandler w.feed pair w.api with ⟨fault | value, api⟩
    · exact ⟨_, rfl, hbounded, hround⟩
    · obtain ⟨data, hnotify, hbounded', hround'⟩ :=
        @ih { w with data := (w.data.getTrade pair).2, api } hbounded
      have hfeed : BackTest.feed { w with data := (w.data.getTrade pair).2, api } = w.feed :=
        feed_eq h hbounded ⟨hround.dataTime, hround.stepSize, hround.series⟩ rfl
      refine ⟨data, ?_, hbounded', hround'.dataTime.trans hround.dataTime,
        hround'.stepSize.trans hround.stepSize, hround'.series.trans hround.series⟩
      rw [hfeed] at hnotify
      exact hnotify

/-! ## One round -/

/-- The ids that a notification walks. -/
def tickIds (w : BackTest) (iteration : Iteration) : List String :=
  ((iteration.order.walk w.subscriptions).filter (·.channel = .trade)).flatMap
    fun subscription => w.api.orderIds subscription.pairItem

/-- Every order that triggers at the prices of the round is covered, at its turn in the walk, by
the balances that the fills before it leave. -/
def Covered (w : BackTest) (iteration : Iteration) : Prop :=
  ∀ id ∈ tickIds w iteration, ¬ Due w.feed (tickIds w iteration) w.api id false

/-- Distinct trade subscriptions are those of distinct pairs. -/
theorem exists_pairs {subscriptions : List UniqueWebsocketSubscription}
    (htrades : ∀ subscription ∈ subscriptions, subscription = .createTradeSub subscription.pairItem)
    (hnodup : subscriptions.Nodup) :
    ∃ pairs : List TradablePair, pairs.Nodup ∧ subscriptions = pairs.map .createTradeSub := by
  have hmap : (subscriptions.map (·.pairItem)).map .createTradeSub = subscriptions := by
    rw [List.map_map]
    conv_rhs => rw [← List.map_id subscriptions]
    exact List.map_congr_left fun subscription hmem => (htrades subscription hmem).symm
  refine ⟨_, List.Nodup.of_map BasicWebsocketSubscription.createTradeSub ?_, hmap.symm⟩
  rwa [hmap]

/-- A notification is one of the trade subscriptions alone. -/
theorem notify_filter (subscriptions : List UniqueWebsocketSubscription) (w : BackTest) :
    notify subscriptions w = notify (subscriptions.filter (·.channel = .trade)) w := by
  induction subscriptions generalizing w with
  | nil => rfl
  | cons subscription rest ih =>
    by_cases htrade : subscription.channel = .trade
    · rw [List.filter_cons_of_pos (by simpa using htrade), notify, notify]
      rcases notifyOne subscription w with ⟨fault | value, w'⟩
      · rfl
      · exact ih w'
    · have hpassed : notifyOne subscription w = (.ok (), w) := by
        unfold notifyOne
        cases hchannel : subscription.channel with
        | trade => exact absurd hchannel htrade
        | ohlcv | orderBook => rfl
      rw [List.filter_cons_of_neg (by simpa using htrade), notify, hpassed]
      exact ih w

/-- A notification handles the trade updates of the subscribed pairs. -/
theorem Steady.notify_eq {w : BackTest} (h : w.Steady) (order : WalkOrder) :
    ∃ pairs : List TradablePair, ∃ data, pairs.Nodup ∧
      (order.walk w.subscriptions).filter (·.channel = .trade) = pairs.map .createTradeSub ∧
      notify (order.walk w.subscriptions) w =
        ((handleUpdates w.feed pairs w.api).1,
          { w with data, api := (handleUpdates w.feed pairs w.api).2 }) ∧
      data.CacheBounded ∧ SameRound w { w with data } := by
  have hperm := order.perm w.subscriptions
  have htrades : ∀ subscription ∈ (order.walk w.subscriptions).filter (·.channel = .trade),
      subscription = .createTradeSub subscription.pairItem := by
    intro subscription hmem
    obtain ⟨hwalked, htrade⟩ := List.mem_filter.mp hmem
    exact h.trades subscription (hperm.mem_iff.mp hwalked) (by simpa using htrade)
  obtain ⟨pairs, hnodup, hpairs⟩ :=
    exists_pairs htrades ((hperm.nodup_iff.mpr h.nodup).filter _)
  obtain ⟨data, hnotify, hbounded, hround⟩ := notify_pairs h.cache pairs
  exact ⟨pairs, data, hnodup, hpairs, by rw [notify_filter, hpairs, hnotify], hbounded, hround⟩

/-- A notification leaves a steady state of the same round. -/
theorem Steady.notify {w : BackTest} (h : w.Steady) (order : WalkOrder) :
    (notify (order.walk w.subscriptions) w).2.Steady ∧
      SameRound w (BackTest.notify (order.walk w.subscriptions) w).2 ∧
      (BackTest.notify (order.walk w.subscriptions) w).2.subscriptions = w.subscriptions := by
  obtain ⟨pairs, data, -, -, hnotify, hbounded, hround⟩ := h.notify_eq order
  obtain ⟨s, hapi, hwell⟩ := h.known
  have hknown : ∃ s' : Session, s'.api = (handleUpdates w.feed pairs w.api).2 ∧ s'.WellFormed :=
    ⟨{ s with api := _ }, rfl, hapi ▸ hwell.handleUpdates w.feed pairs⟩
  rw [hnotify]
  exact ⟨⟨hbounded, hround.stepSize ▸ h.step, hknown, h.trades, h.nodup⟩,
    ⟨hround.dataTime, hround.stepSize, hround.series⟩, rfl⟩

/-- A notification returns exactly when every triggered order is covered. -/
theorem Sound.notify {w : BackTest} (h : w.Sound) (iteration : Iteration) :
    ((notify (iteration.order.walk w.subscriptions) w).1 = .ok () ↔ Covered w iteration) ∧
      (BackTest.notify (iteration.order.walk w.subscriptions) w).2.Sound ∧
      SameRound w (BackTest.notify (iteration.order.walk w.subscriptions) w).2 := by
  obtain ⟨hsteady, hround, hsame⟩ := h.steady.notify iteration.order
  have hsound : (BackTest.notify (iteration.order.walk w.subscriptions) w).2.Sound := by
    refine hsteady.sound ?_
    rw [hsame]
    intro subscription hmem
    rw [h.trades subscription hmem]
    rfl
  refine ⟨?_, hsound, hround⟩
  obtain ⟨pairs, data, hpairs, htrades, hnotify, -, -⟩ := h.steady.notify_eq iteration.order
  obtain ⟨s, hapi, hwell⟩ := h.known
  have hids : tickIds w iteration = pairs.flatMap w.api.orderIds := by
    rw [tickIds, htrades, List.flatMap_map]
    rfl
  have hnodup : (pairs.flatMap w.api.orderIds).Nodup := hapi ▸ hwell.nodup_flatMap_orderIds hpairs
  obtain ⟨lists, hhandled⟩ := handleUpdates_eq_walk w.feed hpairs w.api
  rw [hnotify, hhandled, Covered, hids]
  exact walk_ok_iff hnodup ⟨rfl, rfl, rfl, rfl, fun _ _ => rfl⟩

/-- An entry that the set of subscriptions lacks is the only one to be added. -/
theorem mem_of_added {subscriptions : List UniqueWebsocketSubscription}
    {entry other : UniqueWebsocketSubscription} :
    other ∈ (if entry ∈ subscriptions then subscriptions else subscriptions ++ [entry]) ↔
      other ∈ subscriptions ∨ other = entry := by
  split
  · next hmem =>
    constructor
    · exact .inl
    · rintro (hold | rfl)
      · exact hold
      · exact hmem
  · rw [List.mem_append, List.mem_singleton]

/-- No entry is added twice. -/
theorem nodup_of_added {subscriptions : List UniqueWebsocketSubscription}
    (h : subscriptions.Nodup) (entry : UniqueWebsocketSubscription) :
    (if entry ∈ subscriptions then subscriptions else subscriptions ++ [entry]).Nodup := by
  split
  · exact h
  · next hnew => exact List.nodup_append_comm.mp (List.nodup_cons.mpr ⟨hnew, h⟩)

/-- A new order adds the trades of its pair to the subscriptions. -/
theorem subscribeForOrder_eq (w : BackTest) (request : OrderRequest) :
    w.subscribeForOrder request =
      if .createTradeSub request.pair ∈ w.subscriptions then w.subscriptions
      else w.subscriptions ++ [.createTradeSub request.pair] := by
  by_cases hmem : .createTradeSub request.pair ∈ w.subscriptions
  · simp [subscribeForOrder, subscriptionFor, feed, hmem]
  · have hentry : ({ channel := .trade, pairItem := request.pair, parameter := none } :
        UniqueWebsocketSubscription) ∉ w.subscriptions := hmem
    simp [subscribeForOrder, subscriptionFor, feed, subscribe,
      BasicWebsocketSubscription.createTradeSub, hentry]

/-- A call of the strategy keeps the state steady, at the same moment. -/
theorem Steady.performCall {w : BackTest} (h : w.Steady) (call : StrategyCall) :
    (performCall w call).Steady ∧ SameRound w (BackTest.performCall w call) := by
  obtain ⟨s, hapi, hwell⟩ := h.known
  have hknown : ∃ s' : Session, s'.api = (w.api.perform w.feed call.toCall).2 ∧ s'.WellFormed :=
    ⟨s.step (w.feed, call.toCall), by rw [← hapi]; rfl, hwell.step _⟩
  unfold BackTest.performCall
  cases hrequest : call.toCall.request? with
  | none => exact ⟨⟨h.cache, h.step, hknown, h.trades, h.nodup⟩, rfl, rfl, rfl⟩
  | some request =>
    obtain ⟨hround, hbounded⟩ := sameRound_getTrade h.cache request.pair
    simp only [subscribeForOrder_eq]
    refine ⟨⟨hbounded, hround.stepSize ▸ h.step, hknown, ?_, nodup_of_added h.nodup _⟩,
      hround.dataTime, hround.stepSize, hround.series⟩
    intro subscription hmem
    rcases mem_of_added.mp hmem with hold | rfl
    · exact h.trades subscription hold
    · exact fun _ => rfl

/-- A call subscribes to trades only. -/
theorem mem_performCall {w : BackTest} {call : StrategyCall}
    {subscription : UniqueWebsocketSubscription} :
    subscription ∈ (performCall w call).subscriptions ↔ subscription ∈ w.subscriptions ∨
      ∃ request, call.toCall.request? = some request ∧
        subscription = .createTradeSub request.pair := by
  unfold performCall
  cases hrequest : call.toCall.request? with
  | none => simp
  | some request =>
    simp only [subscribeForOrder_eq, Option.some.injEq, exists_eq_left']
    exact mem_of_added

/-- A call of the strategy keeps the state sound, at the same moment. -/
theorem Sound.performCall {w : BackTest} (h : w.Sound) (call : StrategyCall) :
    (performCall w call).Sound ∧ SameRound w (BackTest.performCall w call) := by
  obtain ⟨hsteady, hround⟩ := h.steady.performCall call
  refine ⟨hsteady.sound ?_, hround⟩
  intro subscription hmem
  rcases mem_performCall.mp hmem with hold | ⟨request, -, rfl⟩
  · rw [h.trades subscription hold]
    rfl
  · rfl

/-- The calls of one iteration keep the state sound, at the same moment. -/
theorem Sound.performCalls {w : BackTest} (h : w.Sound) (calls : List StrategyCall) :
    (calls.foldl BackTest.performCall w).Sound ∧
      SameRound w (calls.foldl BackTest.performCall w) := by
  refine foldl_invariant (I := fun w' : BackTest => w'.Sound ∧ SameRound w w') ?_ calls
    ⟨h, rfl, rfl, rfl⟩
  intro w' call hw'
  obtain ⟨hsound, hround⟩ := hw'.1.performCall call
  exact ⟨hsound, hw'.2.trans hround⟩

/-- A round returns exactly when every triggered order is covered, and then has moved the data
time by one step. -/
theorem Sound.round {w : BackTest} (h : w.Sound) (iteration : Iteration) :
    ((round w iteration).1 = .ok () ↔ Covered w iteration) ∧
      ((BackTest.round w iteration).1 = .ok () → (BackTest.round w iteration).2.Sound ∧
        (BackTest.round w iteration).2.data.dataTime = w.data.dataTime + w.data.stepSize ∧
        (BackTest.round w iteration).2.data.stepSize = w.data.stepSize) := by
  obtain ⟨hiff, hnotified, hround⟩ := h.notify iteration
  unfold BackTest.round
  rw [← hiff]
  rcases hnotify : BackTest.notify (iteration.order.walk w.subscriptions) w with ⟨fault | _, w₁⟩
  · simp
  · rw [hnotify] at hnotified hround
    obtain ⟨hcalls, hround'⟩ := hnotified.performCalls iteration.calls
    have hall := hround.trans hround'
    refine ⟨by simp, fun _ => ?_⟩
    have hmoved (logger : TestLogger) :
        BackTest.Sound { iteration.calls.foldl BackTest.performCall w₁ with
          logger
          data := (iteration.calls.foldl BackTest.performCall w₁).data.increment } :=
      ⟨hcalls.cache.increment hcalls.step, hcalls.step, hcalls.known, hcalls.trades, hcalls.nodup⟩
    have htime : (iteration.calls.foldl BackTest.performCall w₁).data.increment.dataTime =
        w.data.dataTime + w.data.stepSize := by
      rw [BackTestingData.increment, hall.dataTime, hall.stepSize]
    cases iteration.raises with
    | some message => exact ⟨hmoved _, htime, hall.stepSize⟩
    | none => exact ⟨hmoved _, htime, hall.stepSize⟩

/-! ## The run -/

/-- A new back test is sound. -/
theorem Sound.create (config : PaperTradingConfig) {data : BackTestingData}
    (hcache : data.iteratorCache = ∅) (hstep : 0 ≤ data.stepSize) : (create config data).Sound where
  cache := BackTestingData.cacheBounded_of_empty hcache
  step := hstep
  known := ⟨Session.start config, rfl, Session.WellFormed.start config⟩
  trades := fun _ h => absurd h List.not_mem_nil
  nodup := List.nodup_nil

/-- The loop returns exactly when every round does, and its rounds are one step apart. -/
theorem Sound.runLoop {w : BackTest} (h : w.Sound) (iterations : List Iteration) (times : List ℤ) :
    ((runLoop iterations times w).1 = .ok () ↔
        EveryStep (fun w iteration => (BackTest.round w iteration).2) Covered w iterations) ∧
      ((BackTest.runLoop iterations times w).1 = .ok () →
        (BackTest.runLoop iterations times w).2.1 = times ++ (List.range iterations.length).map
          fun k : ℕ => w.data.dataTime + k * w.data.stepSize) := by
  induction iterations generalizing w times with
  | nil => simp [BackTest.runLoop, EveryStep]
  | cons iteration rest ih =>
    obtain ⟨hreturns, hnext⟩ := h.round iteration
    rw [BackTest.runLoop, EveryStep, ← hreturns]
    rcases hround : BackTest.round w iteration with ⟨fault | _, w'⟩
    · simp
    · rw [hround] at hnext
      obtain ⟨hsound, htime, hstep⟩ : w'.Sound ∧
        w'.data.dataTime = w.data.dataTime + w.data.stepSize ∧
        w'.data.stepSize = w.data.stepSize := hnext rfl
      obtain ⟨hiff, htimes⟩ := ih hsound (times ++ [w.data.dataTime])
      simp only [hiff, true_and]
      intro hall
      rw [htimes (hiff.mpr hall), List.length_cons, List.range_succ_eq_map, List.map_cons,
        List.map_map, List.append_assoc]
      simp only [htime, hstep, List.singleton_append, Nat.cast_zero, zero_mul, add_zero]
      congr 2
      refine List.map_congr_left fun k _ => ?_
      simp only [Function.comp_apply, Nat.cast_succ]
      ring

/-- Walk the subscriptions in the order they were made, with the given calls and exception. -/
def plainIteration (calls : List StrategyCall) (raises : Option String := none) : Iteration where
  order := ⟨id, fun _ => List.Perm.refl _⟩
  calls := calls
  raises := raises

end BackTest

end MarketBlocks
