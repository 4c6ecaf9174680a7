import MarketBlocks.Runner.UpdateHandlers

/-!
# What a notification delivers

A walk over the subscriptions comes to its end when every message can be read, no handler raises,
and no call of a handler changes the set. The messages can be read from the data of the tick, and
whether a call changes the set is seen from the set that the walk began with.
-/

namespace MarketBlocks

open Library

/-- The call leaves the set as it is. -/
def HandlerCall.Keeps (subscriptions : List UniqueWebsocketSubscription) : HandlerCall → Prop
  | .subscribe subscription =>
    ∀ pair ∈ subscription.val.pairItem, subscription.val.canonical.entry pair ∈ subscriptions
  | .unsubscribe subscription =>
    ∀ pair ∈ subscription.pairItem, subscription.canonical.entry pair ∉ subscriptions
  | .addOrder request => .createTradeSub request.pair ∈ subscriptions
  | .cancelOrder _ => True

namespace BackTest

/-- What every notification finds: a sound cache, and a set of well formed entries. -/
structure Streaming (w : BackTest) : Prop where
  cache : w.data.CacheBounded
  step : 0 ≤ w.data.stepSize
  nodup : w.subscriptions.Nodup
  wellFormed : ∀ entry ∈ w.subscriptions, entry.WellFormed

variable {w : BackTest} {subscriptions : List UniqueWebsocketSubscription}

/-- Subscribing to nothing new inserts nothing. -/
theorem subscribe_eq_self_iff {subscription : WebsocketSubscription} :
    subscribe subscription subscriptions = subscriptions ↔
      ∀ pair ∈ subscription.pairItem, subscription.entry pair ∈ subscriptions := by
  constructor
  · intro heq pair hpair
    rw [← heq, mem_subscribe]
    exact .inr ⟨pair, hpair, rfl⟩
  · unfold subscribe
    induction subscription.pairItem with
    | nil => exact fun _ => rfl
    | cons pair rest ih =>
      intro hall
      rw [List.forall_mem_cons] at hall
      have hpair := hall.1
      unfold BasicWebsocketSubscription.entry at hpair
      rw [List.foldl_cons]
      dsimp only
      rw [if_pos hpair]
      exact ih hall.2

/-- Unsubscribing from nothing that is there erases nothing. -/
theorem unsubscribe_eq_self_iff {subscription : WebsocketSubscription} (h : subscriptions.Nodup) :
    unsubscribe subscription subscriptions = subscriptions ↔
      ∀ pair ∈ subscription.pairItem, subscription.entry pair ∉ subscriptions := by
  constructor
  · intro heq pair hpair hmem
    rw [← heq, mem_unsubscribe h] at hmem
    exact hmem.2 pair hpair rfl
  · unfold unsubscribe
    induction subscription.pairItem with
    | nil => exact fun _ => rfl
    | cons pair rest ih =>
      intro hall
      rw [List.forall_mem_cons] at hall
      rw [List.foldl_cons, List.erase_of_not_mem hall.1]
      exact ih hall.2

/-- An order changes the set unless its trades are subscribed to. -/
theorem subscribeForOrder_eq_self_iff (w : BackTest) (request : OrderRequest) :
    w.subscribeForOrder request = w.subscriptions ↔
      .createTradeSub request.pair ∈ w.subscriptions := by
  rw [subscribeForOrder_eq]
  split
  · next hmem => simp [hmem]
  · next hmem => simp [hmem]

/-- Whether a call changes the set is seen from the set. -/
theorem step_subscriptions_eq_iff (h : w.subscriptions.Nodup) (call : HandlerCall) :
    (w.step call.toEvent).subscriptions = w.subscriptions ↔ call.Keeps w.subscriptions := by
  cases call with
  | subscribe subscription => exact subscribe_eq_self_iff
  | unsubscribe subscription => exact unsubscribe_eq_self_iff h
  | addOrder request => exact w.subscribeForOrder_eq_self_iff request
  | cancelOrder orderId => exact iff_of_true rfl trivial

/-- A call of a handler reads the data of the tick at most. -/
theorem sameRound_step (h : w.data.CacheBounded) (call : HandlerCall) :
    SameRound w (w.step call.toEvent) ∧ (w.step call.toEvent).data.CacheBounded := by
  cases call with
  | subscribe subscription => exact ⟨⟨rfl, rfl, rfl⟩, h⟩
  | unsubscribe subscription => exact ⟨⟨rfl, rfl, rfl⟩, h⟩
  | cancelOrder orderId => exact ⟨⟨rfl, rfl, rfl⟩, h⟩
  | addOrder request =>
    obtain ⟨hround, hbounded⟩ := sameRound_getTrade h request.pair
    exact ⟨⟨hround.dataTime, hround.stepSize, hround.series⟩, hbounded⟩

end BackTest

/-! ## Reading the data of a tick -/

namespace BackTestingData

variable {d : BackTestingData} {data : List OhlcvData} {time targetTime interval : ℤ}
  {pair : TradablePair}

/-- Stepping back from a candle of any series ends at a candle. -/
theorem exists_stepBack {stop : ℕ} (hstop : stop < data.length) :
    ∃ start, stepBack data targetTime stop = .ok start ∧ start < data.length := by
  induction stop with
  | zero =>
    refine ⟨0, ?_, hstop⟩
    cases data with
    | nil => simp at hstop
    | cons front rest => rfl
  | succ stop ih =>
    rw [stepBack, List.getElem?_eq_getElem hstop]
    dsimp only
    split
    · exact ih (by omega)
    · exact ⟨stop + 1, rfl, hstop⟩

/-- A single candle can be asked for at any time. -/
theorem exists_getOhlcv_one (h : d.CacheBounded) (pair : TradablePair) (interval : ℤ) :
    ∃ candles, (getOhlcv pair interval 1 d).1 = .ok candles := by
  rw [getOhlcv_eq_query, (query_spec _ h pair).1]
  unfold ohlcvFrom
  cases hfront : (d.series pair).head? with
  | none => exact ⟨[], rfl⟩
  | some front =>
    cases hiterator : freshIterator (d.series pair) d.dataTime with
    | none => exact ⟨[], rfl⟩
    | some index =>
      have hindex := freshIterator_lt hiterator
      obtain ⟨start, hback, hstart⟩ :=
        @exists_stepBack (d.series pair) (max (d.dataTime - interval) front.timeStamp) index hindex
      dsimp only
      split
      · exact ⟨[], rfl⟩
      · rw [if_neg (by decide), Int.toNat_one, ohlcvLoop, List.getElem?_eq_getElem hindex, hback]
        simp only [bind, Except.bind, mergeOhlcv, List.getElem?_eq_getElem hstart, ohlcvLoop]
        split
        · exact ⟨_, rfl⟩
        · exact ⟨_, rfl⟩

/-- A lookup finds something from the time of the first candle on. -/
theorem exists_freshIterator_iff :
    (∃ index, freshIterator data time = some index) ↔
      ∃ front, data.head? = some front ∧ front.timeStamp ≤ time := by
  cases data with
  | nil => simp [freshIterator]
  | cons front rest =>
    rw [freshIterator, List.getLast?_eq_getLast_of_ne_nil (List.cons_ne_nil _ _)]
    simp only [List.head?_cons, Option.some.injEq, exists_eq_left']
    split
    · next hbefore => simp [hbefore]
    · next hnot =>
      refine iff_of_true ?_ (not_lt.mp hnot)
      split
      · exact ⟨_, rfl⟩
      · exact ⟨_, rfl⟩

/-- The order book has an ask from the time of the first candle on, and before that it is empty. -/
theorem getOrderBook_spec (h : d.CacheBounded) (pair : TradablePair) (depth : ℤ) :
    ∃ book, (getOrderBook pair depth d).1 = .ok book ∧
      ((∃ entry, book.asks.head? = some entry) ↔
        ∃ front, (d.series pair).head? = some front ∧ front.timeStamp ≤ d.dataTime) := by
  have hquery : getOrderBook pair depth d =
      query (fun data iterator _ => orderBookFrom data iterator) pair d := rfl
  rw [hquery, (query_spec _ h pair).1, ← exists_freshIterator_iff]
  cases hiterator : freshIterator (d.series pair) d.dataTime with
  | none => exact ⟨_, rfl, by simp⟩
  | some index =>
    have hindex := freshIterator_lt hiterator
    simp only [orderBookFrom, List.getElem?_eq_getElem hindex]
    exact ⟨_, rfl, by simp⟩

end BackTestingData

namespace Notification

open BackTest

/-- The notification is still at the tick that it began with. -/
structure AtTick (w : BackTest) (s : Notification) : Prop where
  cache : s.backTest.data.CacheBounded
  round : SameRound w s.backTest

/-- The notification is still at the tick that it began with, and so is its set of subscriptions. -/
structure Unchanged (w : BackTest) (s : Notification) : Prop extends AtTick w s where
  subscriptions : s.backTest.subscriptions = w.subscriptions
  changed : s.changed = false
  inserted : s.inserted = false

variable {w : BackTest} {s : Notification}

/-! ## The calls of a handler -/

/-- A call reads the data of the tick at most. -/
theorem AtTick.call (h : AtTick w s) (call : HandlerCall) : AtTick w (s.call call) := by
  obtain ⟨hround, hbounded⟩ := sameRound_step h.cache call
  exact ⟨hbounded, h.round.trans hround⟩

/-- A change is not forgotten. -/
private theorem changed_call_of_changed (h : s.changed = true) (call : HandlerCall) :
    (s.call call).changed = true := by
  rw [Notification.call, h, Bool.true_or]

/-- Further calls do not take a change back. -/
theorem changed_calls_of_changed (h : s.changed = true) (calls : List HandlerCall) :
    (calls.foldl call s).changed = true := by
  refine foldl_invariant (I := fun s : Notification => s.changed = true) ?_ calls h
  exact fun s call hs => changed_call_of_changed hs call

/-- Calls deliver nothing. -/
theorem delivered_calls (calls : List HandlerCall) :
    (calls.foldl call s).delivered = s.delivered := by
  induction calls generalizing s with
  | nil => rfl
  | cons call rest ih => exact ih

/-- A call changes the set exactly when it does not keep the one that the walk began with. -/
theorem Unchanged.call (h : Unchanged w s) (hnodup : w.subscriptions.Nodup) (call : HandlerCall) :
    ((s.call call).changed = false ↔ call.Keeps w.subscriptions) ∧
      ((s.call call).changed = false → Unchanged w (s.call call)) := by
  have hchanged : (s.call call).changed =
      decide ((s.backTest.step call.toEvent).subscriptions ≠ s.backTest.subscriptions) := by
    rw [Notification.call, h.changed, Bool.false_or]
  have hkeeps : (s.call call).changed = false ↔ call.Keeps w.subscriptions := by
    rw [hchanged, decide_eq_false_iff_not, not_not, ← h.subscriptions]
    exact step_subscriptions_eq_iff (h.subscriptions ▸ hnodup) call
  refine ⟨hkeeps, fun hsame => ?_⟩
  have hkept : (s.backTest.step call.toEvent).subscriptions = s.backTest.subscriptions := by
    rw [hchanged, decide_eq_false_iff_not, not_not] at hsame
    exact hsame
  have hinserted : (s.call call).inserted = false := by
    rw [Notification.call, h.inserted, Bool.false_or, hkept]
    simp
  exact ⟨h.toAtTick.call call, hkept.trans h.subscriptions, hsame, hinserted⟩

/-- Calls that keep the set leave the notification unchanged, and only those do. -/
theorem Unchanged.calls (h : Unchanged w s) (hnodup : w.subscriptions.Nodup)
    (calls : List HandlerCall) :
    ((calls.foldl Notification.call s).changed = false ↔
        ∀ call ∈ calls, call.Keeps w.subscriptions) ∧
      ((calls.foldl Notification.call s).changed = false →
        Unchanged w (calls.foldl Notification.call s)) := by
  induction calls generalizing s with
  | nil => exact ⟨iff_of_true h.changed (by simp), fun _ => h⟩
  | cons call rest ih =>
    obtain ⟨hkeeps, hnext⟩ := h.call hnodup call
    rw [List.foldl_cons, List.forall_mem_cons, ← hkeeps]
    cases hchanged : (s.call call).changed with
    | true =>
      have hrest := changed_calls_of_changed hchanged rest
      simp [hrest]
    | false =>
      obtain ⟨hiff, hunchanged⟩ := ih (hnext hchanged)
      exact ⟨by rw [hiff]; simp, hunchanged⟩

/-! ## The handlers of a message -/

variable {handlers : UpdateHandlers} {subscription : UniqueWebsocketSubscription}

/-- A message is not delivered before all its handlers have returned. -/
theorem delivered_fireHandlers (registered : List TradeUpdateHandler) :
    (fireHandlers subscription registered s).2.delivered = s.delivered := by
  induction registered generalizing s with
  | nil => rfl
  | cons handler rest ih =>
    have hfired : (fireHandler subscription handler s).2.delivered = s.delivered := by
      cases handler with
      | account => rfl
      | strategy handler =>
        rw [fireHandler]
        split
        · exact delivered_calls _
        · exact delivered_calls _
    rw [fireHandlers]
    rcases hfire : fireHandler subscription handler s with ⟨fault | _, s'⟩
    · rw [hfire] at hfired
      exact hfired
    · rw [hfire] at hfired
      exact ih.trans hfired

/-- Further handlers do not take a change back. -/
theorem changed_fireHandlers_of_changed (h : s.changed = true) (registered : List TradeUpdateHandler) :
    (fireHandlers subscription registered s).2.changed = true := by
  induction registered generalizing s with
  | nil => exact h
  | cons handler rest ih =>
    have hfired : (fireHandler subscription handler s).2.changed = true := by
      cases handler with
      | account => exact h
      | strategy handler =>
        rw [fireHandler]
        split
        · exact changed_calls_of_changed h _
        · exact changed_calls_of_changed h _
    rw [fireHandlers]
    rcases hfire : fireHandler subscription handler s with ⟨fault | _, s'⟩
    · rw [hfire] at hfired
      exact hfired
    · rw [hfire] at hfired
      exact ih hfired

/-- The calls of the strategy in answer to a message all leave the set as it is. -/
def KeptBy (subscriptions : List UniqueWebsocketSubscription)
    (subscription : UniqueWebsocketSubscription) (registered : List TradeUpdateHandler) : Prop :=
  ∀ handler, TradeUpdateHandler.strategy handler ∈ registered →
    ∀ call ∈ (handler subscription).calls, call.Keeps subscriptions

/-- Handlers that return leave the set unchanged exactly when all their calls keep it. -/
theorem Unchanged.fireHandlers (h : Unchanged w s) (hnodup : w.subscriptions.Nodup)
    (registered : List TradeUpdateHandler)
    (hreturns : (fireHandlers subscription registered s).1 = .ok ()) :
    ((Notification.fireHandlers subscription registered s).2.changed = false ↔
        KeptBy w.subscriptions subscription registered) ∧
      ((Notification.fireHandlers subscription registered s).2.changed = false →
        Unchanged w (Notification.fireHandlers subscription registered s).2) := by
  induction registered generalizing s with
  | nil => exact ⟨iff_of_true h.changed (by simp [KeptBy]), fun _ => h⟩
  | cons handler rest ih =>
    rw [Notification.fireHandlers] at hreturns ⊢
    cases handler with
    | account =>
      have hkept : KeptBy w.subscriptions subscription (.account :: rest) ↔
          KeptBy w.subscriptions subscription rest := by simp [KeptBy]
      rw [hkept]
      rcases hfire : fireHandler subscription .account s with ⟨fault | _, s'⟩
      · rw [hfire] at hreturns
        cases hreturns
      · rw [hfire] at hreturns
        have hunchanged : Unchanged w s' := by
          have hs' : s' = (fireHandler subscription .account s).2 := by rw [hfire]
          rw [hs']
          exact ⟨⟨h.cache, ⟨h.round.dataTime, h.round.stepSize, h.round.series⟩⟩, h.subscriptions,
            h.changed, h.inserted⟩
        exact ih hunchanged hreturns
    | strategy handler =>
      have hkept : KeptBy w.subscriptions subscription (.strategy handler :: rest) ↔
          (∀ call ∈ (handler subscription).calls, call.Keeps w.subscriptions) ∧
            KeptBy w.subscriptions subscription rest := by
        simp only [KeptBy, List.mem_cons, TradeUpdateHandler.strategy.injEq, forall_eq_or_imp]
      obtain ⟨hcalls, hnext⟩ := h.calls hnodup (handler subscription).calls
      rw [hkept, ← hcalls]
      rw [fireHandler] at hreturns ⊢
      cases hraises : (handler subscription).raises with
      | some fault =>
        simp only [hraises] at hreturns
        cases hreturns
      | none =>
        simp only [hraises] at hreturns ⊢
        cases hchanged : ((handler subscription).calls.foldl Notification.call s).changed with
        | true => simp [changed_fireHandlers_of_changed hchanged rest]
        | false =>
          obtain ⟨hiff, hunchanged⟩ := ih (hnext hchanged) hreturns
          exact ⟨by rw [hiff]; simp, hunchanged⟩

/-! ## The message -/

/-- The message of a subscription can be read at the tick: an order book has begun, and an interval
has a length. -/
def Ready (w : BackTest) (subscription : UniqueWebsocketSubscription) : Prop :=
  match subscription.channel with
  | .trade => True
  | .ohlcv => subscription.parameter ≠ some .unknown
  | .orderBook =>
    ∃ front, (w.data.series subscription.pairItem).head? = some front ∧
      front.timeStamp ≤ w.data.dataTime

/-- What comes of reading a message: it stays at the tick, and succeeds exactly when the message is
ready, which then is that of the subscription. -/
structure Reading (w b : BackTest) (subscription : UniqueWebsocketSubscription)
    (read : Except Fault UpdateMessage × BackTestingData) : Prop where
  cache : read.2.CacheBounded
  round : SameRound b { b with data := read.2 }
  ready : (∃ message, read.1 = .ok message) ↔ Ready w subscription
  message : ∀ message, read.1 = .ok message → message.subscription = subscription

section Reading

variable {b : BackTest} {data : BackTestingData} {pair : TradablePair}

/-- A message that can be read. -/
theorem Reading.of_ok {message : UpdateMessage} (hcache : data.CacheBounded)
    (hround : SameRound b { b with data }) (hready : Ready w subscription)
    (hmessage : message.subscription = subscription) :
    Reading w b subscription (.ok message, data) where
  cache := hcache
  round := hround
  ready := iff_of_true ⟨message, rfl⟩ hready
  message := by
    intro other hother
    cases hother
    exact hmessage

/-- A message that cannot be read. -/
theorem Reading.of_error {fault : Fault} (hcache : data.CacheBounded)
    (hround : SameRound b { b with data }) (hready : ¬Ready w subscription) :
    Reading w b subscription (.error fault, data) where
  cache := hcache
  round := hround
  ready := iff_of_false (fun ⟨_, heq⟩ => by cases heq) hready
  message := fun _ heq => by cases heq

/-- Only candles have a parameter. -/
theorem parameter_eq_none (hwell : subscription.WellFormed)
    (hchannel : subscription.channel ≠ .ohlcv) : subscription.parameter = none := by
  cases hparameter : subscription.parameter with
  | none => rfl
  | some interval => exact absurd (hwell.mpr (by rw [hparameter]; rfl)) hchannel

/-- A trade can be read at any tick. -/
theorem reading_trade (hcache : b.data.CacheBounded) :
    Reading w b ⟨.trade, pair, none⟩ (readMessage ⟨.trade, pair, none⟩ b.data) := by
  obtain ⟨hround, hbounded⟩ := sameRound_getTrade hcache pair
  obtain ⟨trade, htrade⟩ := BackTestingData.getTrade_ok hcache pair
  have hread : readMessage ⟨.trade, pair, none⟩ b.data =
      (.ok (.trade pair trade), (b.data.getTrade pair).2) := by
    simp only [readMessage, htrade, Except.map]
  rw [hread]
  exact .of_ok hbounded hround trivial rfl

/-- A candle can be read of every known interval. -/
private theorem reading_ohlcv (hcache : b.data.CacheBounded) (interval : OhlcvInterval) :
    Reading w b ⟨.ohlcv, pair, some interval⟩
      (readMessage ⟨.ohlcv, pair, some interval⟩ b.data) := by
  by_cases hinterval : interval = .unknown
  · subst hinterval
    exact .of_error hcache ⟨rfl, rfl, rfl⟩ (fun hready => hready rfl)
  · obtain ⟨hround, hbounded⟩ := sameRound_query hcache (fun data iterator time =>
      BackTestingData.ohlcvFrom data iterator time interval.toSeconds 1) pair
    rw [← BackTestingData.getOhlcv_eq_query] at hround hbounded
    obtain ⟨candles, hcandles⟩ :=
      BackTestingData.exists_getOhlcv_one hcache pair interval.toSeconds
    have hread : readMessage ⟨.ohlcv, pair, some interval⟩ b.data =
        (.ok (.ohlcv pair interval (candles.head?.getD {})),
          (b.data.getOhlcv pair interval.toSeconds 1).2) := by
      unfold readMessage
      cases interval <;>
        first
        | exact absurd rfl hinterval
        | simp only [BasicWebsocketSubscription.getOhlcvInterval, hcandles, Except.map]
    rw [hread]
    exact .of_ok hbounded hround (fun heq => hinterval (Option.some.inj heq)) rfl

/-- A book can be read of a pair that has one. -/
private theorem reading_orderBook (hcache : b.data.CacheBounded) (hround : SameRound w b) :
    Reading w b ⟨.orderBook, pair, none⟩ (readMessage ⟨.orderBook, pair, none⟩ b.data) := by
  obtain ⟨hsame, hbounded⟩ := sameRound_query hcache
    (fun data iterator _ => BackTestingData.orderBookFrom data iterator) pair
  obtain ⟨book, hbook, hasks⟩ := BackTestingData.getOrderBook_spec hcache pair 0
  rw [hround.series, hround.dataTime] at hasks
  change (∃ entry, book.asks.head? = some entry) ↔ Ready w ⟨.orderBook, pair, none⟩ at hasks
  rcases hsplit : b.data.getOrderBook pair 0 with ⟨result, data⟩
  have hquery : BackTestingData.query (fun data iterator _ =>
      BackTestingData.orderBookFrom data iterator) pair b.data = (result, data) := hsplit
  rw [hquery] at hsame hbounded
  rw [hsplit] at hbook
  cases hbook
  cases hentry : book.asks.head? with
  | none =>
    have hread : readMessage ⟨.orderBook, pair, none⟩ b.data = (.error .undefined, data) := by
      simp only [readMessage, hsplit, hentry]
    rw [hread]
    exact .of_error hbounded hsame fun hready => by simpa [hentry] using hasks.mpr hready
  | some entry =>
    have hread : readMessage ⟨.orderBook, pair, none⟩ b.data =
        (.ok (.orderBook pair entry), data) := by
      simp only [readMessage, hsplit, hentry]
    rw [hread]
    exact .of_ok hbounded hsame (hasks.mp ⟨entry, hentry⟩) rfl

end Reading

/-- The message of any well-formed feed is read as its state says. -/
theorem AtTick.reading (h : AtTick w s) (hwell : subscription.WellFormed) :
    Reading w s.backTest subscription (readMessage subscription s.backTest.data) := by
  rcases subscription with ⟨channel, pair, parameter⟩
  cases channel with
  | trade =>
    obtain rfl : parameter = none := parameter_eq_none hwell (fun heq => by cases heq)
    exact reading_trade h.cache
  | ohlcv =>
    cases parameter with
    | none => exact absurd (hwell.mp rfl) (by simp)
    | some interval => exact reading_ohlcv h.cache interval
  | orderBook =>
    obtain rfl : parameter = none := parameter_eq_none hwell (fun heq => by cases heq)
    exact reading_orderBook h.cache h.round

/-! ## One subscription -/

/-- The channel of the subscription has handlers. -/
def Handled (handlers : UpdateHandlers) (subscription : UniqueWebsocketSubscription) : Bool :=
  !(handlers.on subscription.channel).isEmpty

/-- The message of a subscription can be read, and the calls made in answer to it keep the set. -/
def Harmless (handlers : UpdateHandlers) (w : BackTest)
    (subscription : UniqueWebsocketSubscription) : Prop :=
  Handled handlers subscription = true →
    Ready w subscription ∧
      KeptBy w.subscriptions subscription (handlers.on subscription.channel)

/-- Every handler that is fired for the subscription, if the walk comes to it, returns normally. -/
def Returns (handlers : UpdateHandlers) (s : Notification)
    (subscription : UniqueWebsocketSubscription) : Prop :=
  subscription ∈ s.backTest.subscriptions → ∀ message data,
    readMessage subscription s.backTest.data = (.ok message, data) →
    (fireHandlers subscription (handlers.on subscription.channel) (s.withData data)).1 = .ok ()

/-- The notification after one subscription, which may be gone by then. -/
def next (handlers : UpdateHandlers) (s : Notification)
    (subscription : UniqueWebsocketSubscription) : Notification :=
  if subscription ∈ s.backTest.subscriptions then (visit handlers subscription s).2 else s

/-- For a handled subscription some handler is registered. -/
theorem isEmpty_on_of_handled (h : Handled handlers subscription = true) :
    (handlers.on subscription.channel).isEmpty = false := by
  simpa [Handled] using h

/-- For a subscription that is not handled no handler is registered. -/
theorem on_of_not_handled (h : Handled handlers subscription = false) :
    handlers.on subscription.channel = [] := by
  simpa [Handled] using h

/-- A subscription without handlers is passed over. -/
theorem visit_of_not_handled (h : Handled handlers subscription = false) (s : Notification) :
    visit handlers subscription s = (.ok (), s) := by
  rw [visit, if_pos (by simpa [Handled] using h)]

/-- A subscription without handlers leaves the notification as it is. -/
theorem next_of_not_handled (h : Handled handlers subscription = false) (s : Notification) :
    next handlers s subscription = s := by
  rw [next, visit_of_not_handled h, ite_self]

/-- Where there are no handlers all of them return. -/
theorem returns_of_not_handled (h : Handled handlers subscription = false) (s : Notification) :
    Returns handlers s subscription := by
  intro _ message data _
  rw [on_of_not_handled h]
  rfl

/-- A visit returns exactly when the message can be read and its handlers return. -/
theorem AtTick.visit_eq_ok_iff (h : AtTick w s) (hwell : subscription.WellFormed)
    (hmem : subscription ∈ s.backTest.subscriptions) (hhandled : Handled handlers subscription = true) :
    (visit handlers subscription s).1 = .ok () ↔
      Ready w subscription ∧ Returns handlers s subscription := by
  have hsome := isEmpty_on_of_handled hhandled
  have hready := (h.reading hwell).ready
  rw [← hready, visit, hsome]
  rcases hread : readMessage subscription s.backTest.data with ⟨fault | message, data⟩
  · simp
  · have hreturns : Returns handlers s subscription ↔
        (fireHandlers subscription (handlers.on subscription.channel) (s.withData data)).1 = .ok () := by
      simp [Returns, hread, hmem]
    rw [hreturns]
    rcases hfire : fireHandlers subscription (handlers.on subscription.channel) (s.withData data) with
      ⟨fault | _, s'⟩
    · simp [hfire]
    · simp [hfire]

/-- A visit that returns has delivered the message of its subscription, if that has handlers. -/
theorem AtTick.delivered_visit (h : AtTick w s) (hwell : subscription.WellFormed)
    (hok : (visit handlers subscription s).1 = .ok ()) :
    (visit handlers subscription s).2.delivered.map UpdateMessage.subscription =
      s.delivered.map UpdateMessage.subscription ++ [subscription].filter (Handled handlers) := by
  cases hhandled : Handled handlers subscription with
  | false =>
    rw [visit_of_not_handled hhandled]
    simp [hhandled]
  | true =>
    have hsome := isEmpty_on_of_handled hhandled
    have hmessage := (h.reading hwell).message
    rw [visit, hsome] at hok ⊢
    rcases hread : readMessage subscription s.backTest.data with ⟨fault | message, data⟩
    · rw [hread] at hok
      cases hok
    · rw [hread] at hok hmessage
      have hdelivered := @delivered_fireHandlers (s.withData data) subscription
        (handlers.on subscription.channel)
      rcases hfire : fireHandlers subscription (handlers.on subscription.channel) (s.withData data) with
        ⟨fault | _, s'⟩
      · simp [hfire] at hok
      · rw [hfire] at hdelivered
        simp only [Bool.false_eq_true, if_false, hfire]
        rw [List.map_append, List.map_singleton, hmessage message rfl,
          List.filter_cons_of_pos hhandled, List.filter_nil]
        exact congrArg (·.map UpdateMessage.subscription ++ [subscription]) hdelivered

/-- A visit that returns keeps the set exactly when the calls made in answer to the message do, and
then it leaves the notification unchanged. -/
theorem Unchanged.visit_of_ok (h : Unchanged w s) (hstream : w.Streaming)
    (hmem : subscription ∈ w.subscriptions) (hhandled : Handled handlers subscription = true)
    (hok : (visit handlers subscription s).1 = .ok ()) :
    ((visit handlers subscription s).2.changed = false ↔
        KeptBy w.subscriptions subscription (handlers.on subscription.channel)) ∧
      ((visit handlers subscription s).2.changed = false →
        Unchanged w (visit handlers subscription s).2) := by
  have hsome := isEmpty_on_of_handled hhandled
  obtain ⟨hbounded, hround, -, -⟩ := h.reading (hstream.wellFormed subscription hmem)
  rw [visit, hsome] at hok ⊢
  rcases hread : readMessage subscription s.backTest.data with ⟨fault | message, data⟩
  · rw [hread] at hok
    cases hok
  · rw [hread] at hok hbounded hround
    have hunchanged : Unchanged w (s.withData data) :=
      ⟨⟨hbounded, h.round.trans hround⟩, h.subscriptions, h.changed, h.inserted⟩
    have hfired := @Unchanged.fireHandlers w _ subscription hunchanged hstream.nodup
      (handlers.on subscription.channel)
    rcases hfire : Notification.fireHandlers subscription (handlers.on subscription.channel)
      (s.withData data) with ⟨fault | _, s'⟩
    · simp [hfire] at hok
    · rw [hfire] at hfired
      obtain ⟨hkept, hnext⟩ := hfired rfl
      simp only [Bool.false_eq_true, if_false, hfire]
      refine ⟨hkept, fun hchanged => ?_⟩
      obtain ⟨htick, hsubscriptions, hsame, hinserted⟩ := hnext hchanged
      exact ⟨⟨htick.cache, htick.round⟩, hsubscriptions, hsame, hinserted⟩

/-- A visit returns and leaves the notification unchanged exactly when its subscription is harmless and
the handlers return. -/
theorem Unchanged.visit (h : Unchanged w s) (hstream : w.Streaming)
    (hmem : subscription ∈ w.subscriptions) :
    ((visit handlers subscription s).1 = .ok () ∧
        (Notification.visit handlers subscription s).2.changed = false ↔
      Harmless handlers w subscription ∧ Returns handlers s subscription) ∧
    ((Notification.visit handlers subscription s).1 = .ok () →
      (Notification.visit handlers subscription s).2.changed = false →
        Unchanged w (Notification.visit handlers subscription s).2) := by
  cases hhandled : Handled handlers subscription with
  | false =>
    have hharmless : Harmless handlers w subscription := by simp [Harmless, hhandled]
    rw [visit_of_not_handled hhandled]
    exact ⟨iff_of_true ⟨rfl, h.changed⟩ ⟨hharmless, returns_of_not_handled hhandled s⟩, fun _ _ => h⟩
  | true =>
    have hthere : subscription ∈ s.backTest.subscriptions := h.subscriptions ▸ hmem
    have hreturns := h.visit_eq_ok_iff (hstream.wellFormed subscription hmem) hthere hhandled
    have hharmless : Harmless handlers w subscription ↔ Ready w subscription ∧
        KeptBy w.subscriptions subscription (handlers.on subscription.channel) := by
      simp [Harmless, hhandled]
    have hkept := h.visit_of_ok hstream hmem hhandled
    rw [hharmless, and_right_comm, ← hreturns]
    exact ⟨and_congr_right fun hok => (hkept hok).1, fun hok => (hkept hok).2⟩

/-! ## The walk -/

/-- A change is not forgotten by the rest of the walk. -/
theorem changed_visitAll_of_changed (h : s.changed = true)
    (subscriptions : List UniqueWebsocketSubscription) :
    (visitAll handlers subscriptions s).2.changed = true := by
  induction subscriptions generalizing s with
  | nil => exact h
  | cons subscription rest ih =>
    have hvisited : (visit handlers subscription s).2.changed = true := by
      rw [visit]
      split
      · exact h
      · rcases readMessage subscription s.backTest.data with ⟨fault | message, data⟩
        · exact h
        · have hstart : (s.withData data).changed = true := h
          have hfired : (fireHandlers subscription (handlers.on subscription.channel)
              (s.withData data)).2.changed = true := changed_fireHandlers_of_changed hstart _
          rcases hfire : fireHandlers subscription (handlers.on subscription.channel)
            (s.withData data) with ⟨fault | _, s'⟩
          · rw [hfire] at hfired
            simpa only [hfire] using hfired
          · rw [hfire] at hfired
            simpa only [hfire] using hfired
    rw [visitAll]
    split
    · exact ih h
    · rcases hvisit : visit handlers subscription s with ⟨fault | _, s'⟩
      · rw [hvisit] at hvisited
        exact hvisited
      · rw [hvisit] at hvisited
        dsimp only
        split
        · exact hvisited
        · exact ih hvisited

/-- A walk that returns and has left the set as it is has visited harmless subscriptions whose handlers
returned, and has delivered the message of each that has handlers. -/
theorem Unchanged.visitAll (h : Unchanged w s) (hstream : w.Streaming)
    {subscriptions : List UniqueWebsocketSubscription} (hsubset : subscriptions ⊆ w.subscriptions) :
    ((visitAll handlers subscriptions s).1 = .ok () ∧
        (Notification.visitAll handlers subscriptions s).2.changed = false ↔
      (∀ subscription ∈ subscriptions, Harmless handlers w subscription) ∧
        EveryStep (next handlers) (Returns handlers) s subscriptions) ∧
    ((Notification.visitAll handlers subscriptions s).1 = .ok () →
      (Notification.visitAll handlers subscriptions s).2.changed = false →
        (Notification.visitAll handlers subscriptions s).2.delivered.map UpdateMessage.subscription =
          s.delivered.map UpdateMessage.subscription ++ subscriptions.filter (Handled handlers)) := by
  induction subscriptions generalizing s with
  | nil =>
    refine ⟨iff_of_true ⟨rfl, h.changed⟩ ⟨by simp, trivial⟩, fun _ _ => ?_⟩
    simp [Notification.visitAll]
  | cons subscription rest ih =>
    obtain ⟨hmem, hrest⟩ := List.cons_subset.mp hsubset
    have hthere : subscription ∈ s.backTest.subscriptions := h.subscriptions ▸ hmem
    obtain ⟨hiff, hvisited⟩ := @Unchanged.visit w s handlers subscription h hstream hmem
    rw [Notification.visitAll, List.forall_mem_cons, EveryStep, and_and_and_comm, ← hiff, next,
      if_pos hthere, if_neg (not_not.mpr hthere)]
    have hdelivered := @AtTick.delivered_visit w s handlers subscription h.toAtTick
      (hstream.wellFormed subscription hmem)
    rcases hvisit : Notification.visit handlers subscription s with ⟨fault | _, s'⟩
    · simp
    · rw [hvisit] at hvisited hdelivered
      cases hchanged : s'.changed with
      | true =>
        -- what follows cannot undo the change
        have hrest : ∀ subscriptions, (Notification.visitAll handlers subscriptions s').2.changed = true :=
          changed_visitAll_of_changed hchanged
        dsimp only
        split
        · simp [hchanged]
        · simp [hrest]
      | false =>
        have hunchanged : Unchanged w s' := hvisited rfl hchanged
        obtain ⟨hall, hreached⟩ := ih (s := s') hunchanged hrest
        have hgoes : ¬(s'.inserted = true ∨ subscription ∉ s'.backTest.subscriptions) := by
          rw [hunchanged.inserted, hunchanged.subscriptions]
          simp [hmem]
        simp only [if_neg hgoes, true_and]
        refine ⟨hall, fun hok hsame => ?_⟩
        have hfirst := hdelivered rfl
        dsimp only at hfirst
        rw [hreached hok hsame, hfirst, List.append_assoc, ← List.filter_append]
        rfl

/-- One visit delivers one message at most. -/
theorem length_delivered_visit (handlers : UpdateHandlers)
    (subscription : UniqueWebsocketSubscription) (s : Notification) :
    (visit handlers subscription s).2.delivered.length +
        (if (visit handlers subscription s).1 = .ok () then 0 else 1) =
      s.delivered.length + ([subscription].filter (Handled handlers)).length := by
  cases hhandled : Handled handlers subscription with
  | false =>
    rw [visit_of_not_handled hhandled]
    simp [hhandled]
  | true =>
    have hsome := isEmpty_on_of_handled hhandled
    rw [visit, hsome, List.filter_cons_of_pos hhandled]
    rcases readMessage subscription s.backTest.data with ⟨fault | message, data⟩
    · rfl
    · have hdelivered := @delivered_fireHandlers (s.withData data) subscription
        (handlers.on subscription.channel)
      rcases hfire : fireHandlers subscription (handlers.on subscription.channel)
        (s.withData data) with ⟨fault | _, s'⟩
      · rw [hfire] at hdelivered
        simp only [Bool.false_eq_true, if_false, hfire, reduceCtorEq]
        exact congrArg (·.length + 1) hdelivered
      · rw [hfire] at hdelivered
        simp only [Bool.false_eq_true, if_false, hfire, if_true]
        have hlength : s'.delivered.length = s.delivered.length := congrArg List.length hdelivered
        rw [List.length_append, hlength]
        rfl

/-- A walk that fails without a change of the set has left a message out. -/
theorem Unchanged.length_delivered_lt (h : Unchanged w s) (hstream : w.Streaming)
    {subscriptions : List UniqueWebsocketSubscription} (hsubset : subscriptions ⊆ w.subscriptions)
    (hfails : (Notification.visitAll handlers subscriptions s).1 ≠ .ok ())
    (hsame : (Notification.visitAll handlers subscriptions s).2.changed = false) :
    (Notification.visitAll handlers subscriptions s).2.delivered.length <
      s.delivered.length + (subscriptions.filter (Handled handlers)).length := by
  induction subscriptions generalizing s with
  | nil => exact absurd rfl hfails
  | cons subscription rest ih =>
    obtain ⟨hmem, hrest⟩ := List.cons_subset.mp hsubset
    have hthere : subscription ∈ s.backTest.subscriptions := h.subscriptions ▸ hmem
    have hvisited := length_delivered_visit handlers subscription s
    obtain ⟨-, hkeeps⟩ := @Unchanged.visit w s handlers subscription h hstream hmem
    have hsplit : (subscription :: rest).filter (Handled handlers) =
        [subscription].filter (Handled handlers) ++ rest.filter (Handled handlers) := by
      rw [← List.filter_append]
      rfl
    rw [hsplit, List.length_append]
    rw [Notification.visitAll, if_neg (not_not.mpr hthere)] at hfails hsame ⊢
    rcases hvisit : Notification.visit handlers subscription s with ⟨fault | _, s'⟩
    · rw [hvisit] at hvisited
      simp only [reduceCtorEq, if_false] at hvisited ⊢
      omega
    · rw [hvisit] at hvisited hfails hsame hkeeps
      simp only [if_true, add_zero] at hvisited
      cases hchanged : s'.changed with
      | true =>
        exfalso
        dsimp only at hsame
        split at hsame
        · simp [hchanged] at hsame
        · simp [changed_visitAll_of_changed hchanged] at hsame
      | false =>
        have hunchanged : Unchanged w s' := hkeeps rfl hchanged
        have hgoes : ¬(s'.inserted = true ∨ subscription ∉ s'.backTest.subscriptions) := by
          rw [hunchanged.inserted, hunchanged.subscriptions]
          simp [hmem]
        simp only [if_neg hgoes] at hfails hsame ⊢
        have hshort := ih (s := s') hunchanged hrest hfails hsame
        omega

end Notification

end MarketBlocks
