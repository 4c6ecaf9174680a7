import MarketBlocks.PaperTrading.PaperTradeApi
import MarketBlocks.Websockets.ExchangeWebsocketStream

/-!
# What the caches of a stream hold

The three caches of a stream are one map from cache keys to entries. An update writes the entry of
one key and everything that the getters return is read off the entry of one key, so what a message
changes and what an unsubscription would have to clear are both sets of keys.
-/

namespace MarketBlocks

open Library

/-- A key of one of the three caches. -/
inductive CacheKey where
  | trade (pairName : String)
  | ohlcv (subId : String)
  | orderBook (pairName : String)
  deriving DecidableEq, Repr

/-- What is cached under a key. -/
inductive CacheEntry where
  | trade (trade : TradeUpdate)
  | ohlcv (ohlcv : OhlcvData)
  | orderBook (cache : OrderBookCache)
  deriving DecidableEq, Repr

/-- The key of a feed under the name of its pair. A candle feed without an interval has no key of
its own; the functions that take one throw. -/
def BasicWebsocketSubscription.namedKey (subscription : NamedSubscription) : CacheKey :=
  match subscription.channel with
  | .trade => .trade subscription.pairItem
  | .ohlcv =>
    .ohlcv (createOhlcvSubId subscription.pairItem (subscription.parameter.getD .unknown))
  | .orderBook => .orderBook subscription.pairItem

/-- A feed under the name of its pair. -/
def BasicWebsocketSubscription.named (separator : Char)
    (subscription : UniqueWebsocketSubscription) : NamedSubscription :=
  { channel := subscription.channel
    pairItem := subscription.pairItem.toStringWith separator
    parameter := subscription.parameter }

/-- The key of a feed. -/
def BasicWebsocketSubscription.cacheKey (separator : Char)
    (subscription : UniqueWebsocketSubscription) : CacheKey :=
  (subscription.named separator).namedKey

/-- Whether a feed has what its channel needs. -/
def BasicWebsocketSubscription.Complete {PairItem : Type}
    (subscription : BasicWebsocketSubscription PairItem) : Prop :=
  subscription.channel = .ohlcv → subscription.parameter ≠ none

/-- A subscription to trades needs no interval. -/
theorem BasicWebsocketSubscription.Complete.createTradeSub {PairItem : Type} (pairItem : PairItem) :
    (BasicWebsocketSubscription.createTradeSub pairItem).Complete := by
  simp [Complete, BasicWebsocketSubscription.createTradeSub]

namespace BasicWebsocketSubscription

variable {separator : Char} {subscription : UniqueWebsocketSubscription}

/-- Trades are cached by the name of their pair. -/
theorem cacheKey_of_trade (hchannel : subscription.channel = .trade) :
    subscription.cacheKey separator = .trade (subscription.pairItem.toStringWith separator) := by
  simp [cacheKey, namedKey, named, hchannel]

/-- Candles are cached by the name of their pair and their interval. -/
theorem cacheKey_of_ohlcv (hchannel : subscription.channel = .ohlcv) {interval : OhlcvInterval}
    (hparameter : subscription.parameter = some interval) :
    subscription.cacheKey separator =
      .ohlcv (createOhlcvSubId (subscription.pairItem.toStringWith separator) interval) := by
  simp [cacheKey, namedKey, named, hchannel, hparameter]

/-- Books are cached by the name of their pair. -/
theorem cacheKey_of_orderBook (hchannel : subscription.channel = .orderBook) :
    subscription.cacheKey separator = .orderBook (subscription.pairItem.toStringWith separator) := by
  simp [cacheKey, namedKey, named, hchannel]

end BasicWebsocketSubscription

/-- What `get_last_trade` returns for an entry, or for none. -/
def CacheEntry.lastTrade : Option CacheEntry → TradeUpdate
  | some (.trade tradeUpdate) => tradeUpdate
  | _ => {}

/-- What `get_last_candle` returns for an entry. -/
def CacheEntry.lastCandle : Option CacheEntry → OhlcvData
  | some (.ohlcv ohlcvData) => ohlcvData
  | _ => {}

/-- What `get_order_book` returns for an entry. -/
def CacheEntry.snapshot (depth : ℤ) : Option CacheEntry → Except Fault OrderBookState
  | some (.orderBook cache) => cache.snapshot depth
  | _ => .ok ⟨0, [], []⟩

namespace ExchangeWebsocketStream

/-- The entry of a key. -/
def cached (key : CacheKey) (s : ExchangeWebsocketStream) : Option CacheEntry :=
  match key with
  | .trade pairName => (s.trades.lookup pairName).map .trade
  | .ohlcv subId => (s.ohlcv.lookup subId).map .ohlcv
  | .orderBook pairName => (s.orderBooks.lookup pairName).map .orderBook

/-- What an account reads of a stream. -/
def feed (time : ℤ) (s : ExchangeWebsocketStream) : Feed where
  lastTrade := (s.getLastTrade ·)
  tradeStatus pair :=
    match s.getSubscriptionStatus (.createTradeSub pair) with
    | .ok status => status
    | .error _ => .unsubscribed
  time := time

/-! ## What the getters read -/

variable {s s' s'' : ExchangeWebsocketStream} {keys keys' : List CacheKey}

/-- What is said of a feed of which nothing is cached: its status, the defaults of its getter, and
for trades that an account subscribes when it adds an order. -/
structure LooksUnsubscribed (s : ExchangeWebsocketStream)
    (subscription : UniqueWebsocketSubscription) : Prop where
  status : s.getSubscriptionStatus subscription = .ok .unsubscribed
  lastTrade : subscription.channel = .trade → s.getLastTrade subscription.pairItem = {}
  lastCandle : subscription.channel = .ohlcv → ∀ interval, subscription.parameter = some interval →
    s.getLastCandle subscription.pairItem interval = {}
  orderBook : subscription.channel = .orderBook → ∀ depth,
    s.getOrderBook subscription.pairItem depth = .ok ⟨0, [], []⟩
  addOrder : subscription.channel = .trade → ∀ time request, request.pair = subscription.pairItem →
    PaperTradeApi.subscriptionFor (s.feed time) request =
      some (.createTradeSub [subscription.pairItem])

/-- The last trade is read off the entry of its key. -/
theorem getLastTrade_eq (pair : TradablePair) :
    s.getLastTrade pair =
      CacheEntry.lastTrade (s.cached (.trade (pair.toStringWith s.pairSeparator))) := by
  simp only [getLastTrade, UnorderedMap.findOrDefault, cached]
  cases s.trades.lookup (pair.toStringWith s.pairSeparator) <;> rfl

/-- The last candle is read off the entry of its key. -/
theorem getLastCandle_eq (pair : TradablePair) (interval : OhlcvInterval) :
    s.getLastCandle pair interval = CacheEntry.lastCandle
      (s.cached (.ohlcv (createOhlcvSubId (pair.toStringWith s.pairSeparator) interval))) := by
  simp only [getLastCandle, UnorderedMap.findOrDefault, cached]
  cases s.ohlcv.lookup (createOhlcvSubId (pair.toStringWith s.pairSeparator) interval) <;> rfl

/-- The book is read off the entry of its key. -/
theorem getOrderBook_eq (pair : TradablePair) (depth : ℤ) :
    s.getOrderBook pair depth =
      CacheEntry.snapshot depth
        (s.cached (.orderBook (pair.toStringWith s.pairSeparator))) := by
  simp only [getOrderBook, cached]
  cases s.orderBooks.lookup (pair.toStringWith s.pairSeparator) <;> rfl

/-- The status says whether there is an entry. -/
theorem getSubscriptionStatus_eq {subscription : UniqueWebsocketSubscription}
    (hcomplete : subscription.Complete) :
    s.getSubscriptionStatus subscription =
      .ok (if (s.cached (subscription.cacheKey s.pairSeparator)).isSome then .subscribed
        else .unsubscribed) := by
  obtain ⟨channel, pair, parameter⟩ := subscription
  cases channel with
  | trade | orderBook =>
    simp [getSubscriptionStatus, BasicWebsocketSubscription.cacheKey,
      BasicWebsocketSubscription.namedKey, BasicWebsocketSubscription.named, cached, pure,
      Except.pure, bind, Except.bind,
      Finmap.lookup_isSome]
  | ohlcv =>
    cases parameter with
    | none => exact absurd rfl (hcomplete rfl)
    | some interval =>
      simp [getSubscriptionStatus, BasicWebsocketSubscription.cacheKey,
        BasicWebsocketSubscription.namedKey, BasicWebsocketSubscription.named,
        BasicWebsocketSubscription.getOhlcvInterval, cached,
        pure, Except.pure, bind, Except.bind, Finmap.lookup_isSome]

/-- A feed looks unsubscribed exactly when nothing is cached for it. -/
theorem looksUnsubscribed_iff {subscription : UniqueWebsocketSubscription}
    (hcomplete : subscription.Complete) :
    s.LooksUnsubscribed subscription ↔ s.cached (subscription.cacheKey s.pairSeparator) = none := by
  have hstatus := getSubscriptionStatus_eq (s := s) hcomplete
  constructor
  · intro h
    rw [h.status] at hstatus
    cases hcached : s.cached (subscription.cacheKey s.pairSeparator) with
    | none => rfl
    | some entry => simp [hcached] at hstatus
  · intro hnone
    rw [hnone] at hstatus
    constructor
    case status => exact hstatus
    case lastTrade =>
      intro hchannel
      rw [getLastTrade_eq, ← BasicWebsocketSubscription.cacheKey_of_trade hchannel, hnone]
      rfl
    case lastCandle =>
      intro hchannel interval hparameter
      rw [getLastCandle_eq, ← BasicWebsocketSubscription.cacheKey_of_ohlcv hchannel hparameter, hnone]
      rfl
    case orderBook =>
      intro hchannel depth
      rw [getOrderBook_eq, ← BasicWebsocketSubscription.cacheKey_of_orderBook hchannel, hnone]
      rfl
    case addOrder =>
      intro hchannel time request hpair
      have hkey : BasicWebsocketSubscription.cacheKey s.pairSeparator
          (.createTradeSub subscription.pairItem) = subscription.cacheKey s.pairSeparator :=
        (BasicWebsocketSubscription.cacheKey_of_trade hchannel).symm
      have hnew : s.getSubscriptionStatus (.createTradeSub subscription.pairItem) =
          .ok .unsubscribed := by
        rw [getSubscriptionStatus_eq (.createTradeSub _), hkey, hnone]
        rfl
      simp [PaperTradeApi.subscriptionFor, feed, hpair, hnew]

/-! ## What the updates write -/

/-- Nothing but the entries of some keys has changed in the caches, and no entry has been removed. -/
structure Writes (keys : List CacheKey) (s s' : ExchangeWebsocketStream) : Prop where
  pairSeparator : s'.pairSeparator = s.pairSeparator
  others : ∀ key ∉ keys, s'.cached key = s.cached key
  kept : ∀ key, s.cached key ≠ none → s'.cached key ≠ none

/-- Nothing is written. -/
theorem Writes.refl (keys : List CacheKey) (s : ExchangeWebsocketStream) : Writes keys s s :=
  ⟨rfl, fun _ _ => rfl, fun _ h => h⟩

/-- One write after the other. -/
theorem Writes.trans (h : Writes keys s s') (h' : Writes keys s' s'') : Writes keys s s'' where
  pairSeparator := h'.pairSeparator.trans h.pairSeparator
  others := fun key hkey => (h'.others key hkey).trans (h.others key hkey)
  kept := fun key hcached => h'.kept key (h.kept key hcached)

/-- A write to some keys is one to more keys. -/
theorem Writes.mono (h : Writes keys s s') (hsub : ∀ key ∈ keys, key ∈ keys') :
    Writes keys' s s' where
  pairSeparator := h.pairSeparator
  others := fun key hkey => h.others key fun hmem => hkey (hsub key hmem)
  kept := h.kept

/-- A stream with the same caches. -/
theorem Writes.of_eq (hseparator : s'.pairSeparator = s.pairSeparator)
    (hcached : ∀ key, s'.cached key = s.cached key) : Writes keys s s' where
  pairSeparator := hseparator
  others := fun key _ => hcached key
  kept := fun key h => hcached key ▸ h

/-- The handlers do not touch the caches. -/
theorem fire_writes (channel : WebsocketChannel) (pairName : String)
    (message : TradablePair → UpdateMessage) (s : ExchangeWebsocketStream) :
    Writes keys s (s.fire channel pairName message).2 := by
  unfold fire
  split
  · split
    · exact .refl keys s
    · exact .of_eq rfl fun key => by cases key <;> rfl
  · exact .refl keys s

/-- A stream with one new entry. -/
theorem Writes.of_insert {key : CacheKey} {entry : CacheEntry}
    (hseparator : s'.pairSeparator = s.pairSeparator)
    (hcached : ∀ other, s'.cached other = if other = key then some entry else s.cached other) :
    Writes [key] s s' := by
  refine ⟨hseparator, fun other hother => ?_, fun other hold => ?_⟩
  · rw [hcached, if_neg fun heq => hother (List.mem_singleton.mpr heq)]
  · rw [hcached]
    split
    · exact Option.some_ne_none entry
    · exact hold

/-- Handlers change no cache. -/
@[simp] theorem fire_cached (channel : WebsocketChannel) (pairName : String)
    (message : TradablePair → UpdateMessage) (s : ExchangeWebsocketStream) (key : CacheKey) :
    (s.fire channel pairName message).2.cached key = s.cached key :=
  (fire_writes channel pairName message s : Writes [] s _).others key List.not_mem_nil

/-- Handlers do not change the separator. -/
@[simp] theorem fire_pairSeparator (channel : WebsocketChannel) (pairName : String)
    (message : TradablePair → UpdateMessage) (s : ExchangeWebsocketStream) :
    (s.fire channel pairName message).2.pairSeparator = s.pairSeparator :=
  (fire_writes channel pairName message s : Writes [] s _).pairSeparator

section Updates

variable (pairName : String) (s : ExchangeWebsocketStream) (key : CacheKey)

/-- A trade is cached under its own key. -/
theorem updateTrade_cached (trade : TradeUpdate) :
    (s.updateTrade pairName trade).2.cached key =
      if key = .trade pairName then some (.trade trade) else s.cached key := by
  rw [updateTrade, fire_cached]
  cases key with
  | trade name =>
    simp only [cached, UnorderedMap.lookup_insert_eq, CacheKey.trade.injEq]
    split <;> rfl
  | ohlcv | orderBook => rfl

/-- A candle is cached under its own key. -/
theorem updateOhlcv_cached (interval : OhlcvInterval) (ohlcvData : OhlcvData) :
    (s.updateOhlcv pairName interval ohlcvData).2.cached key =
      if key = .ohlcv (createOhlcvSubId pairName interval) then some (.ohlcv ohlcvData)
      else s.cached key := by
  rw [updateOhlcv, fire_cached]
  cases key with
  | ohlcv subId =>
    simp only [cached, UnorderedMap.lookup_insert_eq, CacheKey.ohlcv.injEq]
    split <;> rfl
  | trade | orderBook => rfl

/-- A new book is the entry of its pair. -/
theorem insertOrderBook_cached (cache : OrderBookCache) :
    { s with orderBooks := s.orderBooks.insert pairName cache }.cached key =
      if key = .orderBook pairName then some (.orderBook cache) else s.cached key := by
  cases key with
  | orderBook name =>
    simp only [cached, UnorderedMap.lookup_insert_eq, CacheKey.orderBook.injEq]
    split <;> rfl
  | trade | ohlcv => rfl

/-- A snapshot is cached under its own key. -/
theorem initialiseOrderBook_cached (cache : OrderBookCache) :
    (s.initialiseOrderBook pairName cache).2.cached key =
      if key = .orderBook pairName then some (.orderBook cache) else s.cached key := by
  rw [initialiseOrderBook, fire_cached, insertOrderBook_cached]

/-- An update is cached under its own key, on top of the book that was there. -/
theorem updateOrderBook_cached (timeStamp : ℤ) (entry : OrderBookEntry) :
    (s.updateOrderBook pairName timeStamp entry).2.cached key =
      if key = .orderBook pairName then
        some (.orderBook
          (((s.orderBooks.lookup pairName).getD ⟨0, [], []⟩).updateCache timeStamp entry))
      else s.cached key := by
  rw [updateOrderBook_eq, fire_cached, insertOrderBook_cached]

/-- Setting a feed unsubscribed changes the caches only. -/
theorem setUnsubscribed_spec (subscription : NamedSubscription) :
    ∃ trades ohlcv orderBooks,
      (s.setUnsubscribed subscription).2 = { s with trades, ohlcv, orderBooks } := by
  unfold setUnsubscribed
  cases subscription.channel with
  | trade | orderBook => exact ⟨_, _, _, rfl⟩
  | ohlcv => cases subscription.getOhlcvInterval <;> exact ⟨_, _, _, rfl⟩

/-- An unsubscription does not change the separator. -/
@[simp] theorem setUnsubscribed_pairSeparator (subscription : NamedSubscription) :
    (s.setUnsubscribed subscription).2.pairSeparator = s.pairSeparator := by
  obtain ⟨trades, ohlcv, orderBooks, hspec⟩ := s.setUnsubscribed_spec subscription
  rw [hspec]

/-- An unsubscription keeps the names of the pairs. -/
@[simp] theorem setUnsubscribed_pairs (subscription : NamedSubscription) :
    (s.setUnsubscribed subscription).2.pairs = s.pairs := by
  obtain ⟨trades, ohlcv, orderBooks, hspec⟩ := s.setUnsubscribed_spec subscription
  rw [hspec]

/-- An unsubscription delivers nothing. -/
@[simp] theorem setUnsubscribed_delivered (subscription : NamedSubscription) :
    (s.setUnsubscribed subscription).2.delivered = s.delivered := by
  obtain ⟨trades, ohlcv, orderBooks, hspec⟩ := s.setUnsubscribed_spec subscription
  rw [hspec]

/-- A feed that is set unsubscribed loses its entry. -/
theorem setUnsubscribed_cached {subscription : NamedSubscription} (hcomplete : subscription.Complete) :
    (s.setUnsubscribed subscription).2.cached key =
      if key = subscription.namedKey then none else s.cached key := by
  obtain ⟨channel, name, parameter⟩ := subscription
  cases channel with
  | trade =>
    cases key with
    | trade other =>
      simp only [setUnsubscribed, BasicWebsocketSubscription.namedKey, cached,
        UnorderedMap.lookup_erase_eq, CacheKey.trade.injEq]
      split <;> rfl
    | ohlcv | orderBook => rfl
  | orderBook =>
    cases key with
    | orderBook other =>
      simp only [setUnsubscribed, BasicWebsocketSubscription.namedKey, cached,
        UnorderedMap.lookup_erase_eq, CacheKey.orderBook.injEq]
      split <;> rfl
    | trade | ohlcv => rfl
  | ohlcv =>
    cases parameter with
    | none => exact absurd rfl (hcomplete rfl)
    | some interval =>
      cases key with
      | ohlcv other =>
        simp only [setUnsubscribed, BasicWebsocketSubscription.getOhlcvInterval,
          BasicWebsocketSubscription.namedKey, cached, UnorderedMap.lookup_erase_eq,
          CacheKey.ohlcv.injEq, Option.getD_some]
        split <;> rfl
      | trade | orderBook => rfl

end Updates

/-- A trade writes to one key. -/
theorem updateTrade_writes (pairName : String) (trade : TradeUpdate)
    (s : ExchangeWebsocketStream) :
    Writes [.trade pairName] s (s.updateTrade pairName trade).2 :=
  .of_insert (fire_pairSeparator _ _ _ _) fun key => updateTrade_cached pairName s key trade

/-- A candle writes to one key. -/
theorem updateOhlcv_writes (pairName : String) (interval : OhlcvInterval) (ohlcvData : OhlcvData)
    (s : ExchangeWebsocketStream) :
    Writes [.ohlcv (createOhlcvSubId pairName interval)] s
      (s.updateOhlcv pairName interval ohlcvData).2 :=
  .of_insert (fire_pairSeparator _ _ _ _) fun key =>
    updateOhlcv_cached pairName s key interval ohlcvData

/-- A snapshot writes to one key. -/
theorem initialiseOrderBook_writes (pairName : String) (cache : OrderBookCache)
    (s : ExchangeWebsocketStream) :
    Writes [.orderBook pairName] s (s.initialiseOrderBook pairName cache).2 :=
  .of_insert (fire_pairSeparator _ _ _ _) fun key => initialiseOrderBook_cached pairName s key cache

/-- An update of a book writes to one key. -/
theorem updateOrderBook_writes (pairName : String) (timeStamp : ℤ) (entry : OrderBookEntry)
    (s : ExchangeWebsocketStream) :
    Writes [.orderBook pairName] s (s.updateOrderBook pairName timeStamp entry).2 := by
  refine .of_insert ?_ fun key => updateOrderBook_cached pairName s key timeStamp entry
  rw [updateOrderBook_eq, fire_pairSeparator]

/-- Registering pairs does not touch the caches. -/
theorem registerPairs_writes (pairItem : List TradablePair) (s : ExchangeWebsocketStream) :
    Writes keys s (s.registerPairs pairItem) :=
  .of_eq rfl fun key => by cases key <;> rfl

end ExchangeWebsocketStream

end MarketBlocks
