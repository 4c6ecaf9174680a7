import MarketBlocks.Library.Joining
import MarketBlocks.Websockets.StreamImplementations

/-!
# Feeds under one key

The keys of the caches are texts run together of the names in a pair, a separator that may be
missing, and the name of an interval that may begin with a digit. Which feeds get one key is
therefore a matter of how their names can be split, and these feeds, and no others, are taken for
one another.
-/

namespace MarketBlocks

open Library

/-! ## Names of pairs -/

namespace TradablePair

/-- What stands between the two names of a pair. -/
def separatorString (separator : Char) : String :=
  if separator = Char.ofNat 0 then "" else separator.toString

/-- The name of the first pair is the name of the second one split at a later place: what the second
one counts to its asset, the first one has at the front of its price unit. -/
def SplitLater (separator : Char) (pair other : TradablePair) : Prop :=
  ∃ between, other.asset = pair.asset ++ separatorString separator ++ between ∧
    pair.priceUnit = between ++ separatorString separator ++ other.priceUnit

/-- Two pairs are equal, or one's name is the other's split at a later place. -/
def NamedAlike (separator : Char) (pair other : TradablePair) : Prop :=
  pair = other ∨ pair.SplitLater separator other ∨ other.SplitLater separator pair

/-- A pair with something at the end of its name. -/
def extend (pair : TradablePair) (surplus : String) : TradablePair :=
  { pair with priceUnit := pair.priceUnit ++ surplus }

variable {separator : Char} {pair other : TradablePair}

/-- The name of a pair is its two assets around the separator. -/
theorem toStringWith_eq (separator : Char) (pair : TradablePair) :
    pair.toStringWith separator = pair.asset ++ separatorString separator ++ pair.priceUnit := by
  unfold toStringWith separatorString
  split
  · rw [String.append_empty]
    rfl
  · rfl

/-- A longer second asset makes the name longer by as much. -/
@[simp] theorem toStringWith_extend (surplus : String) :
    (pair.extend surplus).toStringWith separator = pair.toStringWith separator ++ surplus := by
  rw [toStringWith_eq, toStringWith_eq]
  exact (String.append_assoc ..).symm

/-- Pairs that are named alike, and no others, have one name. -/
theorem toStringWith_eq_iff :
    pair.toStringWith separator = other.toStringWith separator ↔
      pair.NamedAlike separator other := by
  have hshort : (separatorString separator).toList.length ≤ 1 := by
    unfold separatorString
    split <;> simp
  obtain ⟨asset, priceUnit⟩ := pair
  obtain ⟨asset', priceUnit'⟩ := other
  rw [toStringWith_eq, toStringWith_eq, text_join_eq_join_iff hshort]
  simp [NamedAlike, SplitLater]

end TradablePair

/-! ## Names of candle feeds -/

/-- What the name of the second interval has in front of the name of the first one, when it ends
with it: `15m` has a digit in front of `5m`, and an unknown interval has no name. -/
def OhlcvInterval.surplus : OhlcvInterval → OhlcvInterval → Option String
  | .m5, .m15 => some "1"
  | .unknown, .unknown => none
  | .unknown, interval => some interval.toString
  | _, _ => none

/-- The name of an interval stands in front of another one only by a surplus. -/
theorem OhlcvInterval.frontOf_toString (interval interval' : OhlcvInterval) :
    frontOf interval'.toString interval.toString =
      if interval = interval' then some "" else interval.surplus interval' := by
  cases interval <;> cases interval' <;> decide

/-- The table of surpluses is complete. -/
theorem OhlcvInterval.toString_eq_append_iff {interval interval' : OhlcvInterval}
    {between : String} :
    interval'.toString = between ++ interval.toString ↔
      (interval = interval' ∧ between = "") ∨ interval.surplus interval' = some between := by
  rw [text_eq_append_iff, frontOf_toString]
  split
  · next heq =>
    subst heq
    cases interval <;> simp [surplus, eq_comm]
  · next hne => simp [hne]

/-- Two candle feeds have one name when their pairs and intervals do, and when the interval of one
has at its front what the pair of the other has at its end. -/
theorem createOhlcvSubId_eq_iff {name name' : String} {interval interval' : OhlcvInterval} :
    createOhlcvSubId name interval = createOhlcvSubId name' interval' ↔
      (interval = interval' ∧ name = name') ∨
      (∃ between, interval.surplus interval' = some between ∧ name = name' ++ between) ∨
      ∃ between, interval'.surplus interval = some between ∧ name' = name ++ between := by
  unfold createOhlcvSubId
  rw [text_append_eq_append_iff]
  simp only [OhlcvInterval.toString_eq_append_iff]
  constructor
  · rintro (⟨between, hname, ⟨rfl, rfl⟩ | hsurplus⟩ | ⟨between, hname, ⟨rfl, rfl⟩ | hsurplus⟩)
    · exact .inl ⟨rfl, by simpa using hname.symm⟩
    · exact .inr (.inr ⟨between, hsurplus, hname⟩)
    · exact .inl ⟨rfl, by simpa using hname⟩
    · exact .inr (.inl ⟨between, hsurplus, hname⟩)
  · rintro (⟨rfl, rfl⟩ | ⟨between, hsurplus, hname⟩ | ⟨between, hsurplus, hname⟩)
    · exact .inl ⟨"", by simp, .inl ⟨rfl, rfl⟩⟩
    · exact .inr ⟨between, hname, .inr hsurplus⟩
    · exact .inl ⟨between, hname, .inr hsurplus⟩

/-! ## Feeds -/

/-- Whether two feeds are taken for one another: they are on one channel, their pairs are named
alike, and where the channel is that of candles, they are so with what their intervals do not have
in common. -/
def BasicWebsocketSubscription.Confusable (separator : Char)
    (feed other : UniqueWebsocketSubscription) : Prop :=
  feed.channel = other.channel ∧
    match feed.channel, feed.parameter, other.parameter with
    | .ohlcv, some interval, some interval' =>
      (interval = interval' ∧ feed.pairItem.NamedAlike separator other.pairItem) ∨
      (∃ between, interval.surplus interval' = some between ∧
        feed.pairItem.NamedAlike separator (other.pairItem.extend between)) ∨
      ∃ between, interval'.surplus interval = some between ∧
        other.pairItem.NamedAlike separator (feed.pairItem.extend between)
    | .ohlcv, _, _ => False
    | _, _, _ => feed.pairItem.NamedAlike separator other.pairItem

/-- Feeds that are taken for one another are those with one key. -/
theorem BasicWebsocketSubscription.cacheKey_eq_iff {separator : Char}
    {feed other : UniqueWebsocketSubscription} (hfeed : feed.Complete) (hother : other.Complete) :
    feed.cacheKey separator = other.cacheKey separator ↔ feed.Confusable separator other := by
  obtain ⟨channel, pair, parameter⟩ := feed
  obtain ⟨channel', pair', parameter'⟩ := other
  by_cases hchannel : channel = channel'
  · subst hchannel
    cases channel with
    | trade | orderBook =>
      simpa [cacheKey, namedKey, named, Confusable] using TradablePair.toStringWith_eq_iff
    | ohlcv =>
      obtain ⟨interval, rfl⟩ := Option.ne_none_iff_exists'.mp (hfeed rfl)
      obtain ⟨interval', rfl⟩ := Option.ne_none_iff_exists'.mp (hother rfl)
      simp only [cacheKey, namedKey, named, Confusable, Option.getD_some, CacheKey.ohlcv.injEq,
        createOhlcvSubId_eq_iff, ← TradablePair.toStringWith_extend,
        TradablePair.toStringWith_eq_iff, true_and]
  · have hkeys : cacheKey separator ⟨channel, pair, parameter⟩ ≠
        cacheKey separator ⟨channel', pair', parameter'⟩ := by
      cases channel <;> cases channel' <;> simp_all [cacheKey, namedKey, named]
    exact ⟨fun hkey => absurd hkey hkeys, fun h => absurd h.1 hchannel⟩

/-- Feeds that are taken for one another have what their channel needs. -/
theorem BasicWebsocketSubscription.Confusable.complete {separator : Char}
    {feed other : UniqueWebsocketSubscription} (h : feed.Confusable separator other) :
    feed.Complete ∧ other.Complete := by
  obtain ⟨channel, pair, parameter⟩ := feed
  obtain ⟨channel', pair', parameter'⟩ := other
  obtain ⟨hchannel, hnames⟩ := h
  have hsame : channel = channel' := hchannel
  subst hsame
  cases channel with
  | trade | orderBook => exact ⟨fun h => (by cases h), fun h => (by cases h)⟩
  | ohlcv =>
    cases parameter with
    | none => exact absurd hnames not_false
    | some interval =>
      cases parameter' with
      | none => exact absurd hnames not_false
      | some interval' => exact ⟨fun _ => Option.some_ne_none _, fun _ => Option.some_ne_none _⟩

/-! ## Calls about one feed -/

/-- A call of the stream that is about one feed. -/
inductive FeedCall where
  | updateTrade (pairName : String) (trade : TradeUpdate)
  | updateOhlcv (pairName : String) (interval : OhlcvInterval) (ohlcvData : OhlcvData)
  | initialiseOrderBook (pairName : String) (cache : OrderBookCache)
  | updateOrderBook (pairName : String) (timeStamp : ℤ) (entry : OrderBookEntry)
  | setUnsubscribed (subscription : NamedSubscription)

namespace FeedCall

/-- The feed that a call is about, under the name of its pair. -/
def feed : FeedCall → NamedSubscription
  | .updateTrade pairName _ => .createTradeSub pairName
  | .updateOhlcv pairName interval _ => .createOhlcvSub pairName interval
  | .initialiseOrderBook pairName _ => .createOrderBookSub pairName
  | .updateOrderBook pairName _ _ => .createOrderBookSub pairName
  | .setUnsubscribed subscription => subscription

/-- A call that works on one feed. -/
def handle (call : FeedCall) (s : ExchangeWebsocketStream) :
    Except Fault Unit × ExchangeWebsocketStream :=
  match call with
  | .updateTrade pairName trade => s.updateTrade pairName trade
  | .updateOhlcv pairName interval ohlcvData => s.updateOhlcv pairName interval ohlcvData
  | .initialiseOrderBook pairName cache => s.initialiseOrderBook pairName cache
  | .updateOrderBook pairName timeStamp entry => s.updateOrderBook pairName timeStamp entry
  | .setUnsubscribed subscription => s.setUnsubscribed subscription

/-- What the handlers should be given for a call about a pair. -/
def message (pair : TradablePair) : FeedCall → Option UpdateMessage
  | .updateTrade _ trade => some (.trade pair trade)
  | .updateOhlcv _ interval ohlcvData => some (.ohlcv pair interval ohlcvData)
  | .initialiseOrderBook _ _ => some (.orderBook pair ⟨0, 0, .ask⟩)
  | .updateOrderBook _ _ entry => some (.orderBook pair entry)
  | .setUnsubscribed _ => none

variable (call : FeedCall) (s : ExchangeWebsocketStream)

/-- A call about a feed keeps the entries of all other keys. -/
theorem handle_cached {key : CacheKey} (hcomplete : call.feed.Complete)
    (hkey : key ≠ call.feed.namedKey) : (call.handle s).2.cached key = s.cached key := by
  cases call with
  | updateTrade pairName trade =>
    exact (s.updateTrade_cached pairName key trade).trans (if_neg hkey)
  | updateOhlcv pairName interval ohlcvData =>
    exact (s.updateOhlcv_cached pairName key interval ohlcvData).trans (if_neg hkey)
  | initialiseOrderBook pairName cache =>
    exact (s.initialiseOrderBook_cached pairName key cache).trans (if_neg hkey)
  | updateOrderBook pairName timeStamp entry =>
    exact (s.updateOrderBook_cached pairName key timeStamp entry).trans (if_neg hkey)
  | setUnsubscribed subscription =>
    exact (s.setUnsubscribed_cached key hcomplete).trans (if_neg hkey)

/-- A call about an incomplete feed throws before it has changed anything. -/
theorem handle_of_not_complete (hincomplete : ¬call.feed.Complete) : (call.handle s).2 = s := by
  cases call with
  | updateTrade | initialiseOrderBook | updateOrderBook =>
    exact absurd (fun h => by cases h) hincomplete
  | updateOhlcv => exact absurd (fun _ => Option.some_ne_none _) hincomplete
  | setUnsubscribed subscription =>
    obtain ⟨channel, name, parameter⟩ := subscription
    have hmissing : channel = .ohlcv ∧ parameter = none := by
      simpa [BasicWebsocketSubscription.Complete, feed] using hincomplete
    obtain ⟨rfl, rfl⟩ := hmissing
    rfl

/-- A call on a feed keeps the separator. -/
@[simp] theorem handle_pairSeparator : (call.handle s).2.pairSeparator = s.pairSeparator := by
  cases call with
  | updateOrderBook pairName timeStamp entry =>
    simp [handle, ExchangeWebsocketStream.updateOrderBook_eq]
  | updateTrade | updateOhlcv | initialiseOrderBook =>
    exact ExchangeWebsocketStream.fire_pairSeparator _ _ _ _
  | setUnsubscribed subscription => exact s.setUnsubscribed_pairSeparator subscription

/-- A call on a feed registers no pairs. -/
@[simp] theorem handle_pairs : (call.handle s).2.pairs = s.pairs := by
  cases call with
  | updateOrderBook pairName timeStamp entry =>
    simp [handle, ExchangeWebsocketStream.updateOrderBook_eq]
  | updateTrade | updateOhlcv | initialiseOrderBook =>
    exact ExchangeWebsocketStream.fire_pairs _ _ _ _
  | setUnsubscribed subscription => exact s.setUnsubscribed_pairs subscription

/-- The handlers are given the pair that is registered under the name in the call. -/
theorem handle_delivered : (call.handle s).2.delivered = s.delivered ++
    if call.feed.channel ∈ s.handled then
      ((s.pairs.lookup call.feed.pairItem).bind fun pair => call.message pair).toList
    else [] := by
  cases call with
  | updateOrderBook pairName timeStamp entry =>
    simp only [handle, ExchangeWebsocketStream.updateOrderBook_eq,
      ExchangeWebsocketStream.fire_delivered, Option.map_eq_bind]
    rfl
  | updateTrade | updateOhlcv | initialiseOrderBook =>
    refine (ExchangeWebsocketStream.fire_delivered _ _ _ _).trans ?_
    rw [Option.map_eq_bind]
    rfl
  | setUnsubscribed subscription =>
    rw [handle, s.setUnsubscribed_delivered subscription]
    simp [message]

end FeedCall

namespace ExchangeWebsocketStream

/-! ## What the calls for one feed change for another -/

/-- The getters return the same for a feed. -/
structure SameView (feed : UniqueWebsocketSubscription) (s s' : ExchangeWebsocketStream) : Prop where
  status : s'.getSubscriptionStatus feed = s.getSubscriptionStatus feed
  lastTrade : feed.channel = .trade → s'.getLastTrade feed.pairItem = s.getLastTrade feed.pairItem
  lastCandle : feed.channel = .ohlcv → ∀ interval, feed.parameter = some interval →
    s'.getLastCandle feed.pairItem interval = s.getLastCandle feed.pairItem interval
  orderBook : feed.channel = .orderBook → ∀ depth,
    s'.getOrderBook feed.pairItem depth = s.getOrderBook feed.pairItem depth

variable {separator : Char} {s s' : ExchangeWebsocketStream}
variable {feed other : UniqueWebsocketSubscription}

/-- The getters read one entry. -/
private theorem sameView_of_cached (hcomplete : feed.Complete)
    (hseparator : s'.pairSeparator = s.pairSeparator)
    (hcached : s'.cached (feed.cacheKey s.pairSeparator) =
      s.cached (feed.cacheKey s.pairSeparator)) : SameView feed s s' := by
  constructor
  case status =>
    rw [getSubscriptionStatus_eq hcomplete, getSubscriptionStatus_eq hcomplete, hseparator, hcached]
  case lastTrade =>
    intro hchannel
    rw [BasicWebsocketSubscription.cacheKey_of_trade hchannel] at hcached
    rw [getLastTrade_eq, getLastTrade_eq, hseparator, hcached]
  case lastCandle =>
    intro hchannel interval hparameter
    rw [BasicWebsocketSubscription.cacheKey_of_ohlcv hchannel hparameter] at hcached
    rw [getLastCandle_eq, getLastCandle_eq, hseparator, hcached]
  case orderBook =>
    intro hchannel depth
    rw [BasicWebsocketSubscription.cacheKey_of_orderBook hchannel] at hcached
    rw [getOrderBook_eq, getOrderBook_eq, hseparator, hcached]

/-- A feed without an interval that needs one has no view to change. -/
private theorem sameView_of_not_complete (hincomplete : ¬feed.Complete) : SameView feed s s' := by
  obtain ⟨channel, pair, parameter⟩ := feed
  have hmissing : channel = .ohlcv ∧ parameter = none := by
    simpa [BasicWebsocketSubscription.Complete] using hincomplete
  obtain ⟨rfl, rfl⟩ := hmissing
  exact
    { status := rfl
      lastTrade := fun h => by cases h
      lastCandle := fun _ _ h => by cases h
      orderBook := fun h => by cases h }

/-- The calls about a feed leave the view of another one alone, unless the two are taken for one
another. -/
theorem handle_sameView (hseparator : s.pairSeparator = separator) {call : FeedCall}
    (hcall : call.feed = feed.named separator) (hapart : ¬feed.Confusable separator other) :
    SameView other s (call.handle s).2 := by
  subst hseparator
  by_cases hother : other.Complete
  · by_cases hfeed : feed.Complete
    · have hcomplete : call.feed.Complete := by
        rw [hcall]
        exact hfeed
      have hkeys : other.cacheKey s.pairSeparator ≠ call.feed.namedKey := by
        rw [hcall]
        exact fun hkey => hapart
          ((BasicWebsocketSubscription.cacheKey_eq_iff hfeed hother).mp hkey.symm)
      exact sameView_of_cached hother (call.handle_pairSeparator s)
        (call.handle_cached s hcomplete hkeys)
    · have hincomplete : ¬call.feed.Complete := by
        rw [hcall]
        exact hfeed
      rw [call.handle_of_not_complete s hincomplete]
      exact ⟨rfl, fun _ => rfl, fun _ _ _ => rfl, fun _ _ => rfl⟩
  · exact sameView_of_not_complete hother

/-- Every key can get an entry. -/
theorem exists_call_cached (key : CacheKey) :
    ∃ call : FeedCall, (call.handle s).2.cached key ≠ none := by
  cases key with
  | trade pairName => exact ⟨.updateTrade pairName {}, by simp [FeedCall.handle, updateTrade_cached]⟩
  | ohlcv subId =>
    exact ⟨.updateOhlcv subId .unknown {}, by
      simp [FeedCall.handle, updateOhlcv_cached, createOhlcvSubId, OhlcvInterval.toString]⟩
  | orderBook pairName =>
    exact ⟨.initialiseOrderBook pairName ⟨0, [], []⟩, by
      simp [FeedCall.handle, initialiseOrderBook_cached]⟩

/-- A feed that is set unsubscribed takes with it every feed that it is taken for. -/
theorem setUnsubscribed_not_sameView (hseparator : s.pairSeparator = separator)
    (hconfusable : feed.Confusable separator other)
    (hentry : s.cached (other.cacheKey separator) ≠ none) :
    ¬SameView other s (s.setUnsubscribed (feed.named separator)).2 := by
  subst hseparator
  obtain ⟨hfeed, hother⟩ := hconfusable.complete
  have hkeys := (BasicWebsocketSubscription.cacheKey_eq_iff hfeed hother).mpr hconfusable
  intro hsame
  have hnamed : (feed.named s.pairSeparator).Complete := hfeed
  have hgone : (s.setUnsubscribed (feed.named s.pairSeparator)).2.cached
      (other.cacheKey s.pairSeparator) = none := by
    rw [setUnsubscribed_cached s _ hnamed]
    exact if_pos hkeys.symm
  have hstatus := hsame.status
  rw [getSubscriptionStatus_eq hother, getSubscriptionStatus_eq hother, setUnsubscribed_pairSeparator,
    hgone] at hstatus
  simp [Option.isSome_iff_ne_none, hentry] at hstatus

end ExchangeWebsocketStream

/-! ## Whom the handlers hear about -/

/-- A call of the common stream. -/
inductive StreamCall where
  /-- The part of `subscribe` that all implementations share. -/
  | subscribe (pairItem : List TradablePair)
  | feed (call : FeedCall)
  | addUpdateHandler (channel : WebsocketChannel)
  | reset (network : Network)
  | disconnect (network : Network)

namespace StreamCall

/-- What a call makes of the stream, whether it returns or throws. -/
def step (s : ExchangeWebsocketStream) : StreamCall → ExchangeWebsocketStream
  | .subscribe pairItem => s.registerPairs pairItem
  | .feed call => (call.handle s).2
  | .addUpdateHandler channel => s.addUpdateHandler channel
  | .reset network => (s.reset network).2
  | .disconnect network => (s.disconnect network).2

/-- The pairs that a call registers. -/
def registered : StreamCall → List TradablePair
  | .subscribe pairItem => pairItem
  | .feed _ | .addUpdateHandler _ | .reset _ | .disconnect _ => []

/-- Every call keeps the separator. -/
theorem step_pairSeparator (s : ExchangeWebsocketStream) (call : StreamCall) :
    (step s call).pairSeparator = s.pairSeparator := by
  cases call with
  | subscribe | addUpdateHandler => rfl
  | feed call => exact call.handle_pairSeparator s
  | reset network => exact s.reset_pairSeparator network
  | disconnect network => exact s.disconnect_pairSeparator network

/-- A call adds the pairs that it registers, those of a known name excepted. -/
theorem step_pairs (s : ExchangeWebsocketStream) (call : StreamCall) :
    (step s call).pairs = call.registered.foldl
      (fun pairs pair => pairs.emplace (pair.toStringWith s.pairSeparator) pair) s.pairs := by
  cases call with
  | subscribe | addUpdateHandler => rfl
  | feed call => exact call.handle_pairs s
  | reset network => exact (s.reset_spec network).1
  | disconnect network => exact (s.disconnect_spec network).1

/-- Under each name, a run registers the first pair that has it. -/
theorem run_pairs (s : ExchangeWebsocketStream) (calls : List StreamCall) (pairName : String) :
    (calls.foldl step s).pairs.lookup pairName = (s.pairs.lookup pairName).or
      ((calls.flatMap registered).find? fun pair => pairName = pair.toStringWith s.pairSeparator) := by
  induction calls generalizing s with
  | nil => simp
  | cons call rest ih =>
    rw [List.foldl_cons, ih, step_pairs, step_pairSeparator, UnorderedMap.lookup_foldl_emplace,
      Option.or_assoc, List.flatMap_cons, List.find?_append]

/-- A run keeps the separator that the stream was made with. -/
theorem run_pairSeparator (separator : Char) (calls : List StreamCall) :
    (calls.foldl step (.create separator)).pairSeparator = separator :=
  foldl_invariant (I := fun s => s.pairSeparator = separator)
    (fun s call h => (step_pairSeparator s call).trans h) calls rfl

end StreamCall

/-- The handlers are fired with a pair for each message under its name. -/
def ExchangeWebsocketStream.FiresWith (pair : TradablePair) (s : ExchangeWebsocketStream) : Prop :=
  ∀ call : FeedCall, call.feed.pairItem = pair.toStringWith s.pairSeparator →
    call.feed.channel ∈ s.handled →
      (call.handle s).2.delivered = s.delivered ++ (call.message pair).toList

namespace ExchangeWebsocketStream

variable {s : ExchangeWebsocketStream} {pair : TradablePair}

/-- Handlers are given a pair that is found under its own name. -/
theorem firesWith_of_lookup (hlookup : s.pairs.lookup (pair.toStringWith s.pairSeparator) = some pair) :
    s.FiresWith pair := by
  intro call hname hhandled
  rw [FeedCall.handle_delivered, if_pos hhandled, hname, hlookup]
  rfl

/-- What the handlers are fired with is registered. -/
theorem FiresWith.lookup (hfires : s.FiresWith pair) (hhandled : .trade ∈ s.handled) :
    s.pairs.lookup (pair.toStringWith s.pairSeparator) = some pair := by
  have hchannel : (FeedCall.updateTrade (pair.toStringWith s.pairSeparator) {}).feed.channel ∈
      s.handled := hhandled
  have hdelivered := hfires (.updateTrade (pair.toStringWith s.pairSeparator) {}) rfl hchannel
  rw [FeedCall.handle_delivered, if_pos hchannel] at hdelivered
  have hmessages := List.append_cancel_left hdelivered
  cases hlookup : s.pairs.lookup (pair.toStringWith s.pairSeparator) with
  | none =>
    simp [FeedCall.feed, FeedCall.message, BasicWebsocketSubscription.createTradeSub,
      hlookup] at hmessages
  | some first =>
    simp [FeedCall.feed, FeedCall.message, BasicWebsocketSubscription.createTradeSub,
      hlookup] at hmessages
    rw [hmessages]

end ExchangeWebsocketStream

namespace StreamCall

variable {separator : Char} {calls : List StreamCall}

/-- When no two pairs in use are named alike, the handlers are fired with each of them. -/
theorem run_firesWith
    (hapart : ∀ pair ∈ calls.flatMap registered, ∀ other ∈ calls.flatMap registered,
      pair.NamedAlike separator other → pair = other)
    {pair : TradablePair} (hpair : pair ∈ calls.flatMap registered) :
    (calls.foldl step (.create separator)).FiresWith pair := by
  apply ExchangeWebsocketStream.firesWith_of_lookup
  rw [run_pairSeparator, run_pairs]
  obtain ⟨first, hfirst⟩ : ∃ first, (calls.flatMap registered).find?
      (fun other => pair.toStringWith separator = other.toStringWith separator) = some first := by
    rw [← Option.isSome_iff_exists, List.find?_isSome]
    exact ⟨pair, hpair, by simp⟩
  have hnames : pair.toStringWith separator = first.toStringWith separator := by
    simpa using List.find?_some hfirst
  have hsame : pair = first := hapart pair hpair first (List.mem_of_find?_eq_some hfirst)
    (TradablePair.toStringWith_eq_iff.mp hnames)
  rw [← hsame] at hfirst
  exact hfirst

/-- Of two pairs that are named alike, the handlers are not fired with the one that comes second. -/
theorem run_not_firesWith {pair other : TradablePair} (halike : pair.NamedAlike separator other)
    (hne : pair ≠ other) :
    ¬([addUpdateHandler .trade, .subscribe [other, pair]].foldl step
      (.create separator)).FiresWith pair := by
  intro hfires
  have hlookup := hfires.lookup List.mem_cons_self
  have hregistered : ([.addUpdateHandler .trade, .subscribe [other, pair]] : List StreamCall).flatMap
      registered = [other, pair] := rfl
  have hname : pair.toStringWith separator = other.toStringWith separator :=
    TradablePair.toStringWith_eq_iff.mpr halike
  have hfound : [other, pair].find?
      (fun first => pair.toStringWith separator = first.toStringWith separator) = some other :=
    List.find?_cons_of_pos (decide_eq_true hname)
  rw [run_pairSeparator, run_pairs, hregistered] at hlookup
  exact hne (Option.some.inj (hlookup.symm.trans hfound))

/-- Feeds are kept apart exactly when they cannot be taken for one another: in every run, a message
for one of them or setting it unsubscribed then leaves what the getters return for the other one
alone. And the handlers are fired with the right pairs exactly when no two of the pairs in use are
named alike. -/
theorem run_keeps_apart_iff (separator : Char) :
    (∀ feed other : UniqueWebsocketSubscription,
      (∀ (calls : List StreamCall) (call : FeedCall), call.feed = feed.named separator →
        ExchangeWebsocketStream.SameView other (calls.foldl step (.create separator))
          (call.handle (calls.foldl step (.create separator))).2) ↔
      ¬feed.Confusable separator other) ∧
    ∀ pairs : List TradablePair,
      (∀ calls : List StreamCall, (∀ pair ∈ calls.flatMap registered, pair ∈ pairs) →
        ∀ pair ∈ calls.flatMap registered,
          (calls.foldl step (.create separator)).FiresWith pair) ↔
      ∀ pair ∈ pairs, ∀ other ∈ pairs, pair.NamedAlike separator other → pair = other := by
  refine ⟨fun feed other => ⟨fun hsame hconfusable => ?_, fun hapart calls call hcall => ?_⟩,
    fun pairs => ⟨fun hfires pair hpair other hother halike => ?_,
      fun hapart calls hused pair hpair => ?_⟩⟩
  · obtain ⟨call, hentry⟩ := (ExchangeWebsocketStream.create separator).exists_call_cached
      (other.cacheKey separator)
    have hseparator := run_pairSeparator separator [.feed call]
    exact ExchangeWebsocketStream.setUnsubscribed_not_sameView hseparator hconfusable hentry
      (hsame [.feed call] (.setUnsubscribed (feed.named separator)) rfl)
  · exact ExchangeWebsocketStream.handle_sameView (run_pairSeparator separator calls) hcall hapart
  · by_contra hne
    refine run_not_firesWith halike hne (hfires _ ?_ pair ?_)
    · simp [registered, hpair, hother]
    · simp [registered]
  · exact run_firesWith (fun pair hpair other hother =>
      hapart pair (hused pair hpair) other (hused other hother)) hpair

/-- Two pairs whose names run together give one symbol, and an interval of five minutes for one pair
has the key of an interval of fifteen for another one. A trade of the first pair becomes the last
trade of the second one, which is also what the handler is given, and so does the candle. -/
theorem run_confuses_feeds :
    let pair : TradablePair := ⟨"AB", "C"⟩
    let other : TradablePair := ⟨"A", "BC"⟩
    let calls : List StreamCall := [.addUpdateHandler .trade, .subscribe [other, pair]]
    let s := calls.foldl step (.create (Char.ofNat 0))
    let call : FeedCall := .updateTrade (pair.toStringWith (Char.ofNat 0)) ⟨60, 20, 1⟩
    let pair' : TradablePair := ⟨"BTC", "USD1"⟩
    let other' : TradablePair := ⟨"BTC", "USD"⟩
    let s' := [StreamCall.subscribe [other', pair']].foldl step (.create '/')
    let call' : FeedCall := .updateOhlcv (pair'.toStringWith '/') .m5 ⟨60, 20, 20, 20, 20, 1⟩
    pair ≠ other ∧ s.getLastTrade other = {} ∧ (call.handle s).2.getLastTrade other = ⟨60, 20, 1⟩ ∧
      (call.handle s).2.delivered = [.trade other ⟨60, 20, 1⟩] ∧
      pair' ≠ other' ∧ s'.getLastCandle other' .m15 = {} ∧
      (call'.handle s').2.getLastCandle other' .m15 = ⟨60, 20, 20, 20, 20, 1⟩ := by
  decide +kernel

end StreamCall

end MarketBlocks
