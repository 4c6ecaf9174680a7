import MarketBlocks.Library.Calls
import MarketBlocks.Trading.OhlcvFromTrades
import MarketBlocks.Websockets.ExchangeWebsocketStream

/-!
# The OHLCV subscription service

`ohlcv_subscription_service` holds a candle builder for every pair name and interval that it is
subscribed to, and passes each new candle to the function `update_ohlcv` of its owner. The owner is
a state beside the service here, of any type. The builders of a pair are kept in an unordered map;
the order in which it is walked is given with each call.
-/

namespace MarketBlocks

open Library

/-- The order in which the intervals of an unordered map are walked. -/
structure IntervalOrder where
  intervals : List OhlcvInterval
  perm : intervals.Perm [.m1, .m5, .m15, .h1, .d1, .w1, .unknown]

/-- What the REST API of an exchange reports of its candles. -/
abbrev GetOhlcv := TradablePair → OhlcvInterval → ℕ → Except Fault (List OhlcvData)

/-- The `update_ohlcv` of an owner. -/
abbrev UpdateOhlcv (σ : Type) := String → OhlcvInterval → OhlcvData → σ → Except Fault Unit × σ

/-- `ohlcv_subscription_service`, with a builder for each pair and interval. -/
structure OhlcvSubscriptionService where
  subscriptions : UnorderedMap String (UnorderedMap OhlcvInterval OhlcvFromTrades)

namespace OhlcvSubscriptionService

/-- A service without subscriptions. -/
def create : OhlcvSubscriptionService := ⟨∅⟩

/-- The builders of a pair, none before its first subscription. -/
def builders (pairName : String) (service : OhlcvSubscriptionService) :
    UnorderedMap OhlcvInterval OhlcvFromTrades :=
  (service.subscriptions.lookup pairName).getD ∅

/-- Replace the builders of a pair. -/
def setBuilders (pairName : String) (builders : UnorderedMap OhlcvInterval OhlcvFromTrades)
    (service : OhlcvSubscriptionService) : OhlcvSubscriptionService :=
  ⟨service.subscriptions.insert pairName builders⟩

/-- `is_subscribed`, to any interval of the pair. -/
def isSubscribed (pairName : String) (service : OhlcvSubscriptionService) : Bool :=
  pairName ∈ service.subscriptions

variable {σ : Type}

/-- The body of the loop of `add_subscription`. A builder that is there is kept, whatever candle
is loaded. -/
def addPair (pairSeparator : Char) (getOhlcv : GetOhlcv) (updateOhlcv : UpdateOhlcv σ)
    (interval : OhlcvInterval) (seconds : ℤ) (pair : TradablePair) (s : OhlcvSubscriptionService × σ) :
    Except Fault Unit × (OhlcvSubscriptionService × σ) :=
  match getOhlcv pair interval 1 with
  | .error fault => (.error fault, s)
  | .ok ohlcvData =>
    let latestOhlcv := ohlcvData.headD {}
    let pairName := pair.toStringWith pairSeparator
    let builders := UnorderedMap.emplace (s.1.builders pairName) interval
      (.ofCandle latestOhlcv seconds)
    let (result, owner) := updateOhlcv pairName interval latestOhlcv s.2
    (result, (s.1.setBuilders pairName builders, owner))

/-- `add_subscription`, pair by pair. -/
def addSubscription (pairSeparator : Char) (getOhlcv : GetOhlcv) (updateOhlcv : UpdateOhlcv σ)
    (subscription : WebsocketSubscription) (s : OhlcvSubscriptionService × σ) :
    Except Fault Unit × (OhlcvSubscriptionService × σ) :=
  withRead subscription.getOhlcvInterval (fun interval =>
    withRead (secondsOf interval) fun seconds =>
      forEach (addPair pairSeparator getOhlcv updateOhlcv interval seconds)
        (subscription.pairItem.map .ok)) s

/-- The body of the loop of `remove_subscription`. -/
def removePair (pairSeparator : Char) (interval : OhlcvInterval) (service : OhlcvSubscriptionService)
    (pair : TradablePair) : OhlcvSubscriptionService :=
  let pairName := pair.toStringWith pairSeparator
  let builders := (service.builders pairName).erase interval
  if builders = ∅ then ⟨service.subscriptions.erase pairName⟩
  else service.setBuilders pairName builders

/-- `remove_subscription`, pair by pair. -/
def removeSubscription (pairSeparator : Char) (subscription : WebsocketSubscription)
    (service : OhlcvSubscriptionService) : Except Fault Unit × OhlcvSubscriptionService :=
  withRead subscription.getOhlcvInterval (fun interval service =>
    (.ok (), subscription.pairItem.foldl (removePair pairSeparator interval) service)) service

/-- The body of the loop of `update_ohlcv`. -/
def updateBuilder (updateOhlcv : UpdateOhlcv σ) (pairName : String) (time : ℤ) (price volume : ℚ)
    (interval : OhlcvInterval) (s : OhlcvSubscriptionService × σ) :
    Except Fault Unit × (OhlcvSubscriptionService × σ) :=
  match (s.1.builders pairName).lookup interval with
  | none => (.ok (), s)
  | some builder =>
    let (ohlcv, builder) := (builder.addTrade time price volume).getOhlcv time
    let (result, owner) := updateOhlcv pairName interval ohlcv s.2
    (result, (s.1.setBuilders pairName ((s.1.builders pairName).insert interval builder), owner))

/-- `update_ohlcv`. -/
def updateAll (order : IntervalOrder) (updateOhlcv : UpdateOhlcv σ) (pairName : String) (time : ℤ)
    (price volume : ℚ) (s : OhlcvSubscriptionService × σ) :
    Except Fault Unit × (OhlcvSubscriptionService × σ) :=
  if s.1.isSubscribed pairName then
    forEach (updateBuilder updateOhlcv pairName time price volume) (order.intervals.map .ok) s
  else (.error (.mbException s!"OHLCV is not subscribed for pair {pairName}"), s)

/-- The interval that `add_subscription` loads candles of: none has the length of `UNKNOWN`. -/
def loadedInterval (subscription : WebsocketSubscription) : Option OhlcvInterval :=
  subscription.parameter.filter (· ≠ .unknown)

/-- Without an interval nothing is added. -/
theorem addSubscription_of_none {pairSeparator : Char} {getOhlcv : GetOhlcv} {updateOhlcv : UpdateOhlcv σ}
    {subscription : WebsocketSubscription} (h : loadedInterval subscription = none)
    (s : OhlcvSubscriptionService × σ) :
    ∃ fault, addSubscription pairSeparator getOhlcv updateOhlcv subscription s = (.error fault, s) := by
  rw [loadedInterval, Option.filter_eq_none_iff] at h
  rw [addSubscription, BasicWebsocketSubscription.getOhlcvInterval]
  cases hparameter : subscription.parameter with
  | none => exact ⟨_, rfl⟩
  | some interval =>
    obtain rfl : interval = .unknown := by simpa using h interval hparameter
    exact ⟨_, rfl⟩

/-- With an interval, all pairs are added for it. -/
theorem addSubscription_of_some {pairSeparator : Char} {getOhlcv : GetOhlcv} {updateOhlcv : UpdateOhlcv σ}
    {subscription : WebsocketSubscription} {interval : OhlcvInterval}
    (h : loadedInterval subscription = some interval) (s : OhlcvSubscriptionService × σ) :
    addSubscription pairSeparator getOhlcv updateOhlcv subscription s =
      forEach (addPair pairSeparator getOhlcv updateOhlcv interval interval.toSeconds)
        (subscription.pairItem.map .ok) s := by
  obtain ⟨hparameter, hknown⟩ := Option.filter_eq_some_iff.mp h
  have hseconds : secondsOf interval = .ok interval.toSeconds := secondsOf_of_ne (by simpa using hknown)
  rw [addSubscription, BasicWebsocketSubscription.getOhlcvInterval, hparameter]
  simp only [withRead, hseconds]

/-! ## What the owner sees -/

variable {R : σ → σ → Prop}

/-- Adding a subscription moves the owner by updates of its pairs for its interval only. -/
theorem addSubscription_rel (hrefl : ∀ s, R s s) (htrans : ∀ s s' s'', R s s' → R s' s'' → R s s'')
    {pairSeparator : Char} {getOhlcv : GetOhlcv} {updateOhlcv : UpdateOhlcv σ}
    {subscription : WebsocketSubscription} (s : OhlcvSubscriptionService × σ)
    (hupdate : ∀ pair ∈ subscription.pairItem, ∀ interval, subscription.parameter = some interval →
      ∀ ohlcv owner,
        R owner (updateOhlcv (pair.toStringWith pairSeparator) interval ohlcv owner).2) :
    R s.2 (addSubscription pairSeparator getOhlcv updateOhlcv subscription s).2.2 := by
  refine withRead_rel (R := fun s s' : OhlcvSubscriptionService × σ => R s.2 s'.2)
    (fun s => hrefl s.2) s fun interval hinterval => ?_
  refine withRead_rel (R := fun s s' : OhlcvSubscriptionService × σ => R s.2 s'.2)
    (fun s => hrefl s.2) s fun seconds _ => ?_
  refine forEach_rel (R := fun s s' : OhlcvSubscriptionService × σ => R s.2 s'.2)
    (fun s => hrefl s.2) (fun s s' s'' => htrans s.2 s'.2 s''.2) _ (fun pair s hpair => ?_) s
  have hmem : pair ∈ subscription.pairItem := by simpa using hpair
  have hparameter : subscription.parameter = some interval := by
    unfold BasicWebsocketSubscription.getOhlcvInterval at hinterval
    split at hinterval
    · next hsome => rw [hsome, Except.ok.inj hinterval]
    · cases hinterval
  unfold addPair
  split
  · exact hrefl s.2
  · exact hupdate pair hmem interval hparameter _ s.2

/-- One builder gets no other interval, and an interval that has none is passed over. -/
theorem updateBuilder_spec (updateOhlcv : UpdateOhlcv σ) (pairName : String) (time : ℤ)
    (price volume : ℚ) (interval : OhlcvInterval) (s : OhlcvSubscriptionService × σ) :
    (∀ other ∈ (updateBuilder updateOhlcv pairName time price volume interval s).2.1.builders pairName,
        other ∈ s.1.builders pairName) ∧
      (interval ∉ s.1.builders pairName →
        updateBuilder updateOhlcv pairName time price volume interval s = (.ok (), s)) ∧
      (interval ∈ s.1.builders pairName → ∃ ohlcv,
        (updateBuilder updateOhlcv pairName time price volume interval s).2.2 =
          (updateOhlcv pairName interval ohlcv s.2).2) := by
  unfold updateBuilder
  cases hlookup : (s.1.builders pairName).lookup interval with
  | none =>
    have hnone : interval ∉ s.1.builders pairName := Finmap.lookup_eq_none.mp hlookup
    exact ⟨fun _ h => h, fun _ => rfl, fun hmem => absurd hmem hnone⟩
  | some builder =>
    have hmem : interval ∈ s.1.builders pairName := Finmap.mem_of_lookup_eq_some hlookup
    refine ⟨fun other hother => ?_, fun hnone => absurd hmem hnone, fun _ => ⟨_, rfl⟩⟩
    simp only [builders, setBuilders, Finmap.lookup_insert, Option.getD_some,
      Finmap.mem_insert] at hother
    rcases hother with rfl | hother
    · exact hmem
    · exact hother

/-- A trade moves the owner by updates of its pair for the intervals that have a builder only. -/
theorem updateAll_rel (hrefl : ∀ s, R s s) (htrans : ∀ s s' s'', R s s' → R s' s'' → R s s'')
    {order : IntervalOrder} {updateOhlcv : UpdateOhlcv σ} {pairName : String} {time : ℤ}
    {price volume : ℚ} (s : OhlcvSubscriptionService × σ)
    (hupdate : ∀ interval ∈ s.1.builders pairName, ∀ ohlcv owner,
      R owner (updateOhlcv pairName interval ohlcv owner).2) :
    R s.2 (updateAll order updateOhlcv pairName time price volume s).2.2 := by
  -- the intervals with a builder can only become fewer, and they are all that the owner hears of
  let R' (s s' : OhlcvSubscriptionService × σ) : Prop :=
    (∀ interval ∈ s'.1.builders pairName, interval ∈ s.1.builders pairName) ∧
      ((∀ interval ∈ s.1.builders pairName, ∀ ohlcv owner,
        R owner (updateOhlcv pairName interval ohlcv owner).2) → R s.2 s'.2)
  have hstep : ∀ interval s,
      R' s (updateBuilder updateOhlcv pairName time price volume interval s).2 := by
    intro interval s
    obtain ⟨hfewer, hpassed, hcalled⟩ :=
      updateBuilder_spec updateOhlcv pairName time price volume interval s
    refine ⟨hfewer, fun hupdate => ?_⟩
    by_cases hmem : interval ∈ s.1.builders pairName
    · obtain ⟨ohlcv, hcall⟩ := hcalled hmem
      rw [hcall]
      exact hupdate interval hmem ohlcv s.2
    · rw [hpassed hmem]
      exact hrefl s.2
  have hloop : R' s (forEach (updateBuilder updateOhlcv pairName time price volume)
      (order.intervals.map .ok) s).2 :=
    forEach_rel (fun s => ⟨fun _ h => h, fun _ => hrefl s.2⟩)
      (fun s s' s'' h h' => ⟨fun interval hmem => h.1 interval (h'.1 interval hmem),
        fun hupdate => htrans _ _ _ (h.2 hupdate)
          (h'.2 fun interval hmem => hupdate interval (h.1 interval hmem))⟩)
      _ (fun interval s _ => hstep interval s) s
  unfold updateAll
  split
  · exact hloop.2 hupdate
  · exact hrefl s.2

end OhlcvSubscriptionService

end MarketBlocks
