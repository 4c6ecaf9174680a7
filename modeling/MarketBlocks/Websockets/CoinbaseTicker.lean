import Mathlib.Data.Finset.SDiff
import MarketBlocks.Websockets.CoinbaseWebsocket
import MarketBlocks.Websockets.OhlcvFamily

/-!
# The ticker of Coinbase

Trades and candles share one channel of the exchange, the ticker, and nothing counts who needs it.
The products with an active ticker follow from the messages that were sent. They should be those with
trades or candles subscribed, and stay so exactly as long as no call gives back what is needed
elsewhere, or leaves what nothing needs.
-/

namespace MarketBlocks

open Library

/-- What a message makes of the products with an active ticker, once it takes effect. -/
def CoinbaseRequest.takeEffect (active : Finset String) (request : CoinbaseRequest) : Finset String :=
  if "ticker" ∈ request.channels then
    if request.type = "subscribe" then active ∪ request.productIds.toFinset
    else if request.type = "unsubscribe" then active \ request.productIds.toFinset
    else active
  else active

/-- The products with an active ticker, after messages that take effect in order. -/
def activeTickers (sent : List CoinbaseRequest) : Finset String :=
  sent.foldl CoinbaseRequest.takeEffect ∅

/-- A call on the stream, with what the network does meanwhile. -/
inductive CoinbaseCall where
  | subscribe (subscription : WebsocketSubscription) (network : MarketNetwork)
  | unsubscribe (subscription : WebsocketSubscription) (network : MarketNetwork)

/-- The names of the products that a subscription is about. -/
def productIds (subscription : WebsocketSubscription) : Finset String :=
  (subscription.pairItem.map (·.toStringWith '-')).toFinset

/-- The stream, and the products that trades are subscribed for. -/
structure TickerRun where
  stream : CoinbaseWebsocketStream
  trades : Finset String

/-- What decides whether the tickers that are needed are active. -/
structure TickerView where
  active : Finset String
  trades : Finset String
  service : OhlcvSubscriptionService

namespace CoinbaseCall

/-- What a call is about. -/
def subscription : CoinbaseCall → WebsocketSubscription
  | .subscribe subscription _ => subscription
  | .unsubscribe subscription _ => subscription

/-- The call on the stream. -/
def perform (call : CoinbaseCall) (s : CoinbaseWebsocketStream) :
    Except Fault Unit × CoinbaseWebsocketStream :=
  match call with
  | .subscribe subscription network => CoinbaseWebsocketStream.subscribe subscription network s
  | .unsubscribe subscription network => CoinbaseWebsocketStream.unsubscribe subscription network s

/-- The products that trades are subscribed for, after a call that has returned. -/
def tradesAfter (trades : Finset String) : CoinbaseCall → Finset String
  | .subscribe subscription _ =>
    if subscription.channel = .trade then trades ∪ productIds subscription else trades
  | .unsubscribe subscription _ =>
    if subscription.channel = .trade then trades \ productIds subscription else trades

end CoinbaseCall

namespace TickerRun

/-- A stream that has its connection. -/
def start (handled : List WebsocketChannel) : TickerRun where
  stream := { CoinbaseWebsocketStream.create with connection := true, handled }
  trades := ∅

/-- A call, after which the trades that were asked for are counted when it returns. -/
def step (r : TickerRun) (call : CoinbaseCall) : TickerRun where
  stream := (call.perform r.stream).2
  trades :=
    match (call.perform r.stream).1 with
    | .ok () => call.tradesAfter r.trades
    | .error _ => r.trades

/-- A run of calls from a new stream. -/
def run (handled : List WebsocketChannel) (calls : List CoinbaseCall) : TickerRun :=
  calls.foldl step (start handled)

/-- What the run comes down to: active tickers, wanted trades, held candles. -/
def view (r : TickerRun) : TickerView where
  active := activeTickers r.stream.sent
  trades := r.trades
  service := r.stream.ohlcvSubscriptionService

end TickerRun

namespace TickerView

/-- The product has its ticker while candles are subscribed, and does not have it while neither
trades nor candles are. -/
def Fed (v : TickerView) : Prop :=
  ∀ productId, (v.service.isSubscribed productId = true → productId ∈ v.active) ∧
    (productId ∉ v.trades → v.service.isSubscribed productId = false → productId ∉ v.active)

/-- A call gives back no ticker that is needed elsewhere, and leaves none that nothing needs: the
last candles of a product are taken away, and candles that cannot be loaded are asked for, only while
its trades are subscribed, or candles of it already; and its trades are unsubscribed only while no
candles of it are subscribed. -/
def Shares (v : TickerView) : CoinbaseCall → Prop
  | .subscribe subscription network =>
    subscription.channel = .ohlcv → network.sendMessage = .ok () →
      ∀ productId ∈ productIds subscription,
        productId ∈ v.trades ∨ v.service.isSubscribed productId = true ∨
          ∃ interval, OhlcvSubscriptionService.loadedInterval subscription = some interval ∧
            (reachedCandle '-' network.getOhlcv interval productId subscription.pairItem).isSome
  | .unsubscribe subscription network =>
    match subscription.channel with
    | .trade => network.sendMessage = .ok () →
        ∀ productId ∈ productIds subscription, v.service.isSubscribed productId = false
    | .ohlcv => ∀ interval, subscription.parameter = some interval →
        ∀ productId ∈ productIds subscription, v.service.isSubscribed productId = true →
          (∀ i ∈ v.service.builders productId, i = interval) → productId ∈ v.trades
    | .orderBook => True

/-- What a call on a connected stream makes of the view. -/
def step (v : TickerView) : CoinbaseCall → TickerView
  | .subscribe subscription network =>
    match network.sendMessage, subscription.channel with
    | .error _, _ => v
    | .ok (), .trade => { v with
        active := v.active ∪ productIds subscription
        trades := v.trades ∪ productIds subscription }
    | .ok (), .ohlcv => { v with
        active := v.active ∪ productIds subscription
        service := (ServiceRun.step .returning '-' (v.service, [])
          (.add network.getOhlcv subscription)).1 }
    | .ok (), .orderBook => v
  | .unsubscribe subscription network =>
    match subscription.channel, network.sendMessage with
    | .ohlcv, _ => { v with
        service := (ServiceRun.step .returning '-' (v.service, []) (.remove subscription)).1 }
    | .trade, .ok () => { v with
        active := v.active \ productIds subscription
        trades := v.trades \ productIds subscription }
    | .trade, .error _ | .orderBook, _ => v

/-! ## The view -/

variable {v : TickerView}

/-- While those with trades have it, exactly the products with trades or candles should have the
ticker. -/
theorem fed_iff (htrades : v.trades ⊆ v.active) :
    v.Fed ↔ ∀ productId, productId ∈ v.active ↔
      productId ∈ v.trades ∨ v.service.isSubscribed productId = true := by
  apply forall_congr'
  intro productId
  have htrade : productId ∈ v.trades → productId ∈ v.active := fun h => htrades h
  by_cases hmem : productId ∈ v.trades
  · simp [hmem, htrade hmem]
  · cases v.service.isSubscribed productId <;> simp [hmem]

/-- Whoever wants trades has a ticker. -/
theorem trades_subset_step (htrades : v.trades ⊆ v.active) (call : CoinbaseCall) :
    (v.step call).trades ⊆ (v.step call).active := by
  cases call with
  | subscribe subscription network =>
    rw [step]
    split
    · exact htrades
    · exact Finset.union_subset_union htrades (Finset.Subset.refl _)
    · exact htrades.trans Finset.subset_union_left
    · exact htrades
  | unsubscribe subscription network =>
    rw [step]
    split
    · exact htrades
    · exact Finset.sdiff_subset_sdiff htrades (Finset.Subset.refl _)
    · exact htrades
    · exact htrades

/-- No pair is held without an interval. -/
theorem noneEmpty_step (hnone : ServiceRun.NoneEmpty (v.service, [])) (call : CoinbaseCall) :
    ServiceRun.NoneEmpty ((v.step call).service, []) := by
  cases call with
  | subscribe subscription network =>
    rw [step]
    split
    · exact hnone
    · exact hnone
    · exact hnone.step .returning (.add network.getOhlcv subscription)
    · exact hnone
  | unsubscribe subscription network =>
    rw [step]
    split
    · exact hnone.step .returning (.remove subscription)
    · exact hnone
    · exact hnone
    · exact hnone

/-- The ids of a subscription are the names of its pairs. -/
theorem mem_productIds {subscription : WebsocketSubscription} {productId : String} :
    productId ∈ productIds subscription ↔
      productId ∈ subscription.pairItem.map (·.toStringWith '-') :=
  List.mem_toFinset

/-- Only the pairs of a subscription are loaded. -/
theorem mem_of_reachedCandle {getOhlcv : GetOhlcv} {interval : OhlcvInterval} {productId : String}
    {pairs : List TradablePair} (h : (reachedCandle '-' getOhlcv interval productId pairs).isSome) :
    productId ∈ pairs.map (·.toStringWith '-') := by
  induction pairs with
  | nil => cases h
  | cons pair rest ih =>
    rw [List.map_cons, List.mem_cons]
    rw [reachedCandle] at h
    split at h
    · cases h
    · split at h
      · next hname => exact .inl hname.symm
      · exact .inr (ih h)

/-- The products with candles after an add. -/
theorem isSubscribed_add (hnone : ServiceRun.NoneEmpty (v.service, [])) (getOhlcv : GetOhlcv)
    (subscription : WebsocketSubscription) (productId : String) :
    (ServiceRun.step .returning '-' (v.service, []) (.add getOhlcv subscription)).1.isSubscribed
        productId = true ↔
      v.service.isSubscribed productId = true ∨ ∃ interval,
        OhlcvSubscriptionService.loadedInterval subscription = some interval ∧
          (reachedCandle '-' getOhlcv interval productId subscription.pairItem).isSome := by
  rw [ServiceRun.isSubscribed_step hnone, hnone.isSubscribed_iff, or_comm, ← exists_or]
  apply exists_congr
  intro interval
  simp only [ServiceCall.reached, ServiceCall.Removes, not_false_eq_true, true_and]
  by_cases hinterval : OhlcvSubscriptionService.loadedInterval subscription = some interval
  · rw [if_pos hinterval, eq_true hinterval, true_and]
  · rw [if_neg hinterval, eq_false hinterval, false_and]
    exact or_congr_left (iff_of_false Bool.false_ne_true not_false)

/-- The products with candles after a removal. -/
theorem isSubscribed_remove (hnone : ServiceRun.NoneEmpty (v.service, []))
    (subscription : WebsocketSubscription) (productId : String) :
    (ServiceRun.step .returning '-' (v.service, []) (.remove subscription)).1.isSubscribed
        productId = true ↔
      ∃ interval ∈ v.service.builders productId,
        ¬(subscription.parameter = some interval ∧ productId ∈ productIds subscription) := by
  rw [ServiceRun.isSubscribed_step hnone]
  apply exists_congr
  intro interval
  simp only [ServiceCall.reached, ServiceCall.Removes, Option.isSome_none, Bool.false_eq_true,
    false_or, mem_productIds, ServiceRun.entry, Finmap.lookup_isSome]
  exact and_comm

/-- Candles that are asked for keep the tickers right exactly when each product gets some, or has its
ticker for another reason. -/
theorem fed_subscribe_iff (hnone : ServiceRun.NoneEmpty (v.service, []))
    (htrades : v.trades ⊆ v.active) (hfed : v.Fed) {subscription : WebsocketSubscription}
    {network : MarketNetwork} (hsend : network.sendMessage = .ok ())
    (hchannel : subscription.channel = .ohlcv) :
    v.Shares (.subscribe subscription network) ↔ (v.step (.subscribe subscription network)).Fed := by
  have hactive := (fed_iff htrades).mp hfed
  rw [fed_iff (trades_subset_step htrades _)]
  simp only [Shares, step, hsend, hchannel, forall_const, Finset.mem_union, isSubscribed_add hnone]
  constructor
  · intro hshares productId
    constructor
    · rintro (hmem | hmem)
      · exact ((hactive productId).mp hmem).imp_right .inl
      · exact hshares productId hmem
    · rintro (htrade | hheld | ⟨interval, _, hreached⟩)
      · exact .inl (htrades htrade)
      · exact .inl ((hactive productId).mpr (.inr hheld))
      · exact .inr (mem_productIds.mpr (mem_of_reachedCandle hreached))
  · intro hfed productId hmem
    exact (hfed productId).mp (.inr hmem)

/-- Candles that are taken away keep the tickers right exactly when products without further ones
have their trades subscribed. -/
theorem fed_unsubscribe_iff (hnone : ServiceRun.NoneEmpty (v.service, []))
    (htrades : v.trades ⊆ v.active) (hfed : v.Fed) {subscription : WebsocketSubscription}
    (network : MarketNetwork) (hchannel : subscription.channel = .ohlcv) :
    v.Shares (.unsubscribe subscription network) ↔
      (v.step (.unsubscribe subscription network)).Fed := by
  have hactive := (fed_iff htrades).mp hfed
  have hheld (productId : String) : v.service.isSubscribed productId = true ↔
      ∃ interval, interval ∈ v.service.builders productId := by
    rw [hnone.isSubscribed_iff]
    simp only [ServiceRun.entry, Finmap.lookup_isSome]
  rw [fed_iff (trades_subset_step htrades _)]
  simp only [Shares, step, hchannel, isSubscribed_remove hnone]
  constructor
  · intro hshares productId
    rw [hactive]
    constructor
    · rintro (htrade | hsubscribed)
      · exact .inl htrade
      · by_contra hnot
        rw [not_or, not_exists] at hnot
        obtain ⟨htrade, hlast⟩ := hnot
        -- every interval that was held has been removed, so there was one only
        have hremoved : ∀ i ∈ v.service.builders productId,
            subscription.parameter = some i ∧ productId ∈ productIds subscription := by
          intro i hi
          by_contra hkept
          exact hlast i ⟨hi, hkept⟩
        obtain ⟨interval, hinterval⟩ := (hheld productId).mp hsubscribed
        obtain ⟨hparameter, hmem⟩ := hremoved interval hinterval
        apply htrade
        apply hshares interval hparameter productId hmem hsubscribed
        intro i hi
        exact Option.some.inj ((hremoved i hi).1.symm.trans hparameter)
    · rintro (htrade | ⟨interval, hinterval, _⟩)
      · exact .inl htrade
      · exact .inr ((hheld productId).mpr ⟨interval, hinterval⟩)
  · intro hfed interval hparameter productId hmem hsubscribed honly
    rcases (hfed productId).mp ((hactive productId).mpr (.inr hsubscribed)) with htrade | ⟨i, hi, hkept⟩
    · exact htrade
    · exact absurd ⟨honly i hi ▸ hparameter, hmem⟩ hkept

/-- Trades that are unsubscribed keep the tickers right exactly when no product of theirs has
candles. -/
private theorem fed_unsubscribe_trade_iff (htrades : v.trades ⊆ v.active) (hfed : v.Fed)
    {subscription : WebsocketSubscription} {network : MarketNetwork}
    (hsend : network.sendMessage = .ok ()) (hchannel : subscription.channel = .trade) :
    v.Shares (.unsubscribe subscription network) ↔
      (v.step (.unsubscribe subscription network)).Fed := by
  have hactive := (fed_iff htrades).mp hfed
  rw [fed_iff (trades_subset_step htrades _)]
  simp only [Shares, step, hsend, hchannel, forall_const, Finset.mem_sdiff, hactive]
  constructor
  · intro hshares productId
    constructor
    · rintro ⟨htrade | hheld, hmem⟩
      · exact .inl ⟨htrade, hmem⟩
      · exact .inr hheld
    · rintro (⟨htrade, hmem⟩ | hheld)
      · exact ⟨.inl htrade, hmem⟩
      · refine ⟨.inr hheld, fun hmem => ?_⟩
        rw [hshares productId hmem] at hheld
        cases hheld
  · intro hfed productId hmem
    by_contra hheld
    exact ((hfed productId).mpr (.inr (Bool.not_eq_false _ ▸ hheld))).2 hmem

/-- A call leaves the candles fed exactly when it shares the tickers. -/
theorem fed_step_iff (hnone : ServiceRun.NoneEmpty (v.service, [])) (htrades : v.trades ⊆ v.active)
    (hfed : v.Fed) (call : CoinbaseCall) : v.Shares call ↔ (v.step call).Fed := by
  cases call with
  | subscribe subscription network =>
    cases hsend : network.sendMessage with
    | error fault =>
      simp only [Shares, step, hsend, reduceCtorEq, false_implies, implies_true, true_iff]
      exact hfed
    | ok value =>
      cases hchannel : subscription.channel with
      | trade =>
        have hactive := (fed_iff htrades).mp hfed
        rw [fed_iff (trades_subset_step htrades _)]
        simp only [Shares, step, hsend, hchannel, reduceCtorEq, false_implies, true_iff,
          Finset.mem_union, hactive]
        intro productId
        exact or_right_comm
      | ohlcv => exact fed_subscribe_iff hnone htrades hfed hsend hchannel
      | orderBook =>
        simp only [Shares, step, hsend, hchannel, reduceCtorEq, false_implies, true_iff]
        exact hfed
  | unsubscribe subscription network =>
    cases hchannel : subscription.channel with
    | trade =>
      cases hsend : network.sendMessage with
      | error fault =>
        simp only [Shares, step, hsend, hchannel, reduceCtorEq, false_implies, true_iff]
        exact hfed
      | ok value => exact fed_unsubscribe_trade_iff htrades hfed hsend hchannel
    | ohlcv => exact fed_unsubscribe_iff hnone htrades hfed network hchannel
    | orderBook =>
      simp only [Shares, step, hchannel, true_iff]
      exact hfed

end TickerView

/-! ## The stream -/

namespace ServicedStream

variable {μ : Type} {s : ServicedStream μ}

/-- A message is sent over a connection that is there, as far as the network lets it. -/
theorem sending_send_of_connection (hconnection : s.connection = true) (network : Network)
    (message : μ) :
    s.sending (·.send network (.ok message)) =
      match network.sendMessage with
      | .error fault => (.error fault, s)
      | .ok () => (.ok (), { s with sent := s.sent ++ [message] }) := by
  rw [sending, SendingStream.send, withRead, SendingStream.sendMessage, if_pos hconnection]
  cases network.sendMessage with
  | error fault => rfl
  | ok value => rfl

/-- In a stream that knows the pairs of a subscription the service adds it as with any callback that
returns. -/
theorem service_addSubscription (s : ServicedStream μ) (getOhlcv : GetOhlcv)
    (subscription : WebsocketSubscription)
    (hpairs : ∀ pair ∈ subscription.pairItem, pair.toStringWith s.pairSeparator ∈ s.pairs) :
    let s' := (s.service (OhlcvSubscriptionService.addSubscription s.pairSeparator getOhlcv
      updateOhlcv subscription)).2
    s'.ohlcvSubscriptionService = (ServiceRun.step .returning s.pairSeparator
        (s.ohlcvSubscriptionService, []) (.add getOhlcv subscription)).1 ∧
      s'.sent = s.sent ∧ s'.connection = s.connection ∧ s'.pairSeparator = s.pairSeparator := by
  let Same (run : OhlcvSubscriptionService × ExchangeWebsocketStream) (run' : ServiceRun) : Prop :=
    run.1 = run'.1 ∧ run.2.pairs = s.pairs ∧ run.2.connection = s.connection ∧
      run.2.pairSeparator = s.pairSeparator
  have hstart : Same (s.ohlcvSubscriptionService, s.toExchangeWebsocketStream)
      (s.ohlcvSubscriptionService, []) := ⟨rfl, rfl, rfl, rfl⟩
  -- the handlers find the pair, so that the update returns as well
  have hbody (interval : OhlcvInterval) (pair : TradablePair)
      (run : OhlcvSubscriptionService × ExchangeWebsocketStream) (run' : ServiceRun)
      (hpair : .ok pair ∈ subscription.pairItem.map (Except.ok : TradablePair → Except Fault _))
      (hsame : Same run run') :
      (OhlcvSubscriptionService.addPair s.pairSeparator getOhlcv updateOhlcv interval
          interval.toSeconds pair run).1 =
        (OhlcvSubscriptionService.addPair s.pairSeparator getOhlcv
          OhlcvCallback.returning.recording interval interval.toSeconds pair run').1 ∧
        Same
          (OhlcvSubscriptionService.addPair s.pairSeparator getOhlcv updateOhlcv interval
            interval.toSeconds pair run).2
          (OhlcvSubscriptionService.addPair s.pairSeparator getOhlcv
            OhlcvCallback.returning.recording interval interval.toSeconds pair run').2 := by
    obtain ⟨service, stream⟩ := run
    obtain ⟨service', log⟩ := run'
    obtain ⟨rfl, hknown, hconnection, hseparator⟩ := hsame
    have hmem : pair.toStringWith s.pairSeparator ∈ stream.pairs := by
      rw [hknown]
      exact hpairs pair (by simpa using hpair)
    unfold OhlcvSubscriptionService.addPair
    split
    · exact ⟨rfl, rfl, hknown, hconnection, hseparator⟩
    · next ohlcvData _ =>
      refine ⟨ExchangeWebsocketStream.fire_ok _ _ _ _ hmem, rfl, ?_, ?_, ?_⟩
      · exact (ExchangeWebsocketStream.fire_pairs _ _ _ _).trans hknown
      · exact (ExchangeWebsocketStream.fire_connection _ _ _ _).trans hconnection
      · exact (ExchangeWebsocketStream.fire_pairSeparator _ _ _ _).trans hseparator
  simp only [service, ServiceRun.step, ServiceRun.perform]
  cases hinterval : OhlcvSubscriptionService.loadedInterval subscription with
  | none =>
    obtain ⟨_, hthrown⟩ := OhlcvSubscriptionService.addSubscription_of_none hinterval
      (s.ohlcvSubscriptionService, s.toExchangeWebsocketStream)
    obtain ⟨_, hthrown'⟩ := OhlcvSubscriptionService.addSubscription_of_none hinterval
      ((s.ohlcvSubscriptionService, []) : ServiceRun)
    rw [hthrown, hthrown']
    exact ⟨rfl, trivial, rfl, rfl⟩
  | some interval =>
    obtain ⟨_, hservice, _, hconnection, hseparator⟩ := forEach_lockstep
      (subscription.pairItem.map .ok) (hbody interval) hstart
    rw [OhlcvSubscriptionService.addSubscription_of_some hinterval,
      OhlcvSubscriptionService.addSubscription_of_some hinterval]
    simp only [true_and]
    exact ⟨hservice, hconnection, hseparator⟩

end ServicedStream

namespace TickerRun

variable {r : TickerRun}

/-- What calls keep on a stream that has its connection. -/
structure Sound (r : TickerRun) : Prop where
  connection : r.stream.connection = true
  pairSeparator : r.stream.pairSeparator = '-'
  noneEmpty : ServiceRun.NoneEmpty (r.view.service, [])
  trades_subset : r.view.trades ⊆ r.view.active

/-- The last request takes effect on what the others have left. -/
theorem activeTickers_concat (sent : List CoinbaseRequest) (request : CoinbaseRequest) :
    activeTickers (sent ++ [request]) = request.takeEffect (activeTickers sent) := by
  rw [activeTickers, List.foldl_append]
  rfl

/-- Products that the ticker is asked for have it. -/
theorem takeEffect_subscribe (active : Finset String) (ids : List String) :
    CoinbaseRequest.takeEffect active ⟨"subscribe", ids, ["ticker"]⟩ = active ∪ ids.toFinset := rfl

/-- Products that the ticker is given back for do not have it. -/
theorem takeEffect_unsubscribe (active : Finset String) (ids : List String) :
    CoinbaseRequest.takeEffect active ⟨"unsubscribe", ids, ["ticker"]⟩ = active \ ids.toFinset := rfl

/-- Messages about books leave the tickers alone. -/
theorem takeEffect_level2 (active : Finset String) (type : String) (ids : List String) :
    CoinbaseRequest.takeEffect active ⟨type, ids, ["level2"]⟩ = active := rfl

/-- The message that a subscription to trades or books is sent with. -/
def request (type : String) (subscription : WebsocketSubscription) : CoinbaseRequest :=
  ⟨type, subscription.pairItem.map (·.toStringWith '-'),
    [if subscription.channel = .trade then "ticker" else "level2"]⟩

/-- Requests for trades and books have the channel of their own. -/
theorem createMessage_eq (type : String) {subscription : WebsocketSubscription}
    (hchannel : subscription.channel ≠ .ohlcv) :
    CoinbaseWebsocketStream.createMessage type subscription = .ok (request type subscription) := by
  unfold CoinbaseWebsocketStream.createMessage request
  cases h : subscription.channel with
  | trade => rfl
  | orderBook => rfl
  | ohlcv => exact absurd h hchannel

/-- A stream that has its connection sends what the network lets through. -/
theorem view_send {s : CoinbaseWebsocketStream} (hconnection : s.connection = true)
    (network : Network) (message : CoinbaseRequest) :
    let sent := s.sending (·.send network (.ok message))
    sent.1 = network.sendMessage ∧
      sent.2.toExchangeWebsocketStream = s.toExchangeWebsocketStream ∧
      ∀ trades, view ⟨sent.2, trades⟩ =
        { view ⟨s, trades⟩ with
          active := match network.sendMessage with
            | .error _ => activeTickers s.sent
            | .ok () => message.takeEffect (activeTickers s.sent) } := by
  rw [ServicedStream.sending_send_of_connection hconnection]
  cases network.sendMessage with
  | error fault => exact ⟨rfl, rfl, fun trades => rfl⟩
  | ok value =>
    refine ⟨rfl, rfl, fun trades => ?_⟩
    rw [view, view, activeTickers_concat]

/-- A stream that has its connection, and the view. -/
structure Shows (r : TickerRun) (v : TickerView) : Prop where
  view : r.view = v
  connection : r.stream.connection = true
  pairSeparator : r.stream.pairSeparator = '-'

/-- Trades and books are asked for with their own message. -/
theorem shows_subscribe (h : r.Sound) (subscription : WebsocketSubscription)
    (network : MarketNetwork) (hchannel : subscription.channel ≠ .ohlcv) :
    (r.step (.subscribe subscription network)).Shows (r.view.step (.subscribe subscription network)) := by
  obtain ⟨hresult, hstream, hview⟩ := view_send
    (s := r.stream.register subscription.pairItem) h.connection network.toNetwork
    (request "subscribe" subscription)
  have hperform : CoinbaseCall.perform (.subscribe subscription network) r.stream =
      (r.stream.register subscription.pairItem).sending
        (·.send network.toNetwork (.ok (request "subscribe" subscription))) := by
    rw [CoinbaseCall.perform, CoinbaseWebsocketStream.subscribe, ServicedStream.subscribe,
      ServicedStream.sendSubscribe, if_neg hchannel, createMessage_eq "subscribe" hchannel]
  rw [step, hperform, hresult]
  refine ⟨?_, (congrArg _ hstream).trans h.connection, (congrArg _ hstream).trans h.pairSeparator⟩
  rw [hview, TickerView.step]
  cases network.sendMessage with
  | error fault => rfl
  | ok value =>
    cases hc : subscription.channel with
    | ohlcv => exact absurd hc hchannel
    | trade =>
      simp only [CoinbaseCall.tradesAfter, request, hc, if_true, takeEffect_subscribe]
      rfl
    | orderBook =>
      simp only [CoinbaseCall.tradesAfter, request, hc, reduceCtorEq, if_false, takeEffect_level2]
      rfl

/-- An unsubscription from trades or books is what its view says. -/
theorem shows_unsubscribe (h : r.Sound) (subscription : WebsocketSubscription)
    (network : MarketNetwork) (hchannel : subscription.channel ≠ .ohlcv) :
    (r.step (.unsubscribe subscription network)).Shows
      (r.view.step (.unsubscribe subscription network)) := by
  obtain ⟨hresult, hstream, hview⟩ := view_send h.connection network.toNetwork
    (request "unsubscribe" subscription)
  have hperform : CoinbaseCall.perform (.unsubscribe subscription network) r.stream =
      r.stream.sending
        (·.send network.toNetwork (.ok (request "unsubscribe" subscription))) := by
    rw [CoinbaseCall.perform, CoinbaseWebsocketStream.unsubscribe, ServicedStream.sendUnsubscribe,
      if_neg hchannel, createMessage_eq "unsubscribe" hchannel]
  rw [step, hperform, hresult]
  refine ⟨?_, (congrArg _ hstream).trans h.connection, (congrArg _ hstream).trans h.pairSeparator⟩
  rw [hview, TickerView.step]
  cases hc : subscription.channel with
  | ohlcv => exact absurd hc hchannel
  | trade =>
    cases network.sendMessage with
    | error fault => rfl
    | ok value =>
      simp only [CoinbaseCall.tradesAfter, request, hc, if_true, takeEffect_unsubscribe]
      rfl
  | orderBook =>
    cases network.sendMessage with
    | error fault => rfl
    | ok value =>
      simp only [CoinbaseCall.tradesAfter, request, hc, reduceCtorEq, if_false, takeEffect_level2]
      rfl

/-- Only calls for trades change what trades are subscribed for. -/
theorem step_of_ne {call : CoinbaseCall} (hcall : call.subscription.channel ≠ .trade) :
    r.step call = ⟨(call.perform r.stream).2, r.trades⟩ := by
  have hafter : call.tradesAfter r.trades = r.trades := by
    cases call with
    | subscribe subscription network => exact if_neg hcall
    | unsubscribe subscription network => exact if_neg hcall
  rw [step, hafter]
  cases (call.perform r.stream).1 <;> rfl

/-- Candles are asked for with the message for trades, and then loaded. -/
private theorem shows_subscribe_ohlcv (h : r.Sound) (subscription : WebsocketSubscription)
    (network : MarketNetwork) (hchannel : subscription.channel = .ohlcv) :
    (r.step (.subscribe subscription network)).Shows (r.view.step (.subscribe subscription network)) := by
  let message := request "subscribe" (.createTradeSub subscription.pairItem)
  let registered := r.stream.register subscription.pairItem
  have hmessage : CoinbaseWebsocketStream.createMessage "subscribe"
      (.createTradeSub subscription.pairItem) = .ok message :=
    createMessage_eq "subscribe" (fun heq => by cases heq)
  have hsend := ServicedStream.sending_send_of_connection (s := registered) h.connection
    network.toNetwork message
  have hperform : CoinbaseCall.perform (.subscribe subscription network) r.stream =
      andThen (registered.sending (·.send network.toNetwork (.ok message))) fun s =>
        s.service (OhlcvSubscriptionService.addSubscription s.pairSeparator network.getOhlcv
          ServicedStream.updateOhlcv subscription) := by
    rw [CoinbaseCall.perform, CoinbaseWebsocketStream.subscribe, ServicedStream.subscribe,
      ServicedStream.sendSubscribe, if_pos hchannel, hmessage]
  rw [step_of_ne (by rw [CoinbaseCall.subscription, hchannel]; decide), hperform, hsend,
    TickerView.step, hchannel]
  cases network.sendMessage with
  | error fault => exact ⟨rfl, h.connection, h.pairSeparator⟩
  | ok value =>
    let s : CoinbaseWebsocketStream := { registered with sent := registered.sent ++ [message] }
    obtain ⟨hservice, hsent, hconnection, hseparator⟩ := s.service_addSubscription network.getOhlcv
      subscription (fun pair hpair => ExchangeWebsocketStream.mem_pairs_registerPairs _ hpair)
    have hs : s.pairSeparator = '-' := h.pairSeparator
    rw [hs] at hservice hsent
    refine ⟨?_, hconnection.trans h.connection, hseparator.trans h.pairSeparator⟩
    rw [andThen, view, hs, hservice, hsent, activeTickers_concat]
    rfl

/-- Candles that are taken away send nothing. -/
private theorem shows_unsubscribe_ohlcv (h : r.Sound) (subscription : WebsocketSubscription)
    (network : MarketNetwork) (hchannel : subscription.channel = .ohlcv) :
    (r.step (.unsubscribe subscription network)).Shows
      (r.view.step (.unsubscribe subscription network)) := by
  have hperform : (CoinbaseCall.perform (.unsubscribe subscription network) r.stream).2 =
      { r.stream with ohlcvSubscriptionService :=
          (r.stream.ohlcvSubscriptionService.removeSubscription r.stream.pairSeparator
            subscription).2 } := by
    rw [CoinbaseCall.perform, CoinbaseWebsocketStream.unsubscribe, ServicedStream.sendUnsubscribe,
      if_pos hchannel]
  rw [step_of_ne (by rw [CoinbaseCall.subscription, hchannel]; decide), hperform, TickerView.step,
    hchannel, h.pairSeparator]
  exact ⟨rfl, h.connection, h.pairSeparator⟩

/-- A call of a sound run is what its view says. -/
theorem Sound.shows (h : r.Sound) (call : CoinbaseCall) : (r.step call).Shows (r.view.step call) := by
  cases call with
  | subscribe subscription network =>
    by_cases hchannel : subscription.channel = .ohlcv
    · exact shows_subscribe_ohlcv h subscription network hchannel
    · exact shows_subscribe h subscription network hchannel
  | unsubscribe subscription network =>
    by_cases hchannel : subscription.channel = .ohlcv
    · exact shows_unsubscribe_ohlcv h subscription network hchannel
    · exact shows_unsubscribe h subscription network hchannel

/-- A call keeps the run sound. -/
theorem Sound.step (h : r.Sound) (call : CoinbaseCall) : (r.step call).Sound := by
  obtain ⟨hview, hconnection, hseparator⟩ := h.shows call
  have htrades := TickerView.trades_subset_step h.trades_subset call
  rw [← hview] at htrades
  refine ⟨hconnection, hseparator, ?_, htrades⟩
  rw [hview]
  exact TickerView.noneEmpty_step h.noneEmpty call

/-- A new stream is sound. -/
theorem sound_start (handled : List WebsocketChannel) : (start handled).Sound where
  connection := rfl
  pairSeparator := rfl
  noneEmpty := fun _ hmem => absurd hmem Finmap.notMem_empty
  trades_subset := Finset.empty_subset _

/-- Candles stay fed until they are unsubscribed, and no ticker is left on that nothing needs,
after every call of a run, exactly when each call of the run shares the tickers. -/
theorem run_fed_iff (handled : List WebsocketChannel) (calls : List CoinbaseCall) :
    EveryStep step (fun r call => r.view.Shares call) (start handled) calls ↔
      ∀ before, before <+: calls → (run handled before).view.Fed := by
  apply everyStep_iff_of_invariant (I := fun r : TickerRun => r.Sound ∧ r.view.Fed)
    (Q := fun r => r.view.Fed)
  · rintro r call ⟨hsound, hfed⟩ hshares
    refine ⟨hsound.step call, ?_⟩
    rw [(hsound.shows call).view]
    exact (TickerView.fed_step_iff hsound.noneEmpty hsound.trades_subset hfed call).mp hshares
  · exact fun r h => h.2
  · rintro r call ⟨hsound, hfed⟩ hnot hafter
    rw [(hsound.shows call).view] at hafter
    exact hnot
      ((TickerView.fed_step_iff hsound.noneEmpty hsound.trades_subset hfed call).mpr hafter)
  · refine ⟨sound_start handled, fun productId => ⟨fun h => ?_, fun _ _ => Finset.notMem_empty _⟩⟩
    cases h

/-- Trades and candles of a pair are subscribed, and then the trades unsubscribed: the candles are
still subscribed, and the exchange sends no ticker. -/
theorem run_not_fed :
    ¬∀ (handled : List WebsocketChannel) (calls : List CoinbaseCall),
      (run handled calls).view.Fed := by
  intro hall
  have h := (hall []
    [.subscribe (.createTradeSub [⟨"BTC", "USD"⟩]) .idle,
      .subscribe (.createOhlcvSub [⟨"BTC", "USD"⟩] .m1) .idle,
      .unsubscribe (.createTradeSub [⟨"BTC", "USD"⟩]) .idle] "BTC-USD").1 (by decide +kernel)
  exact absurd h (by decide +kernel)

end TickerRun

end MarketBlocks
