import MarketBlocks.Websockets.OrderBookCache
import MarketBlocks.Websockets.Subscription

/-!
# The stream of an exchange

`exchange_websocket_stream` is what the streams of all exchanges share: the last trade,
candle and order book of every pair, under the name that the exchange gives the pair, and
the connection. Update handlers are taken to return; what they are given is logged in
`delivered`. As everywhere, a call that throws leaves the state as it is at the throw.
-/

namespace MarketBlocks

open Library

/-- What an update handler is given. -/
inductive UpdateMessage where
  | trade (pair : TradablePair) (trade : TradeUpdate)
  | ohlcv (pair : TradablePair) (interval : OhlcvInterval) (ohlcv : OhlcvData)
  | orderBook (pair : TradablePair) (entry : OrderBookEntry)
  deriving DecidableEq, Repr

/-- What the connection and the REST API answer while one call runs. -/
structure Network where
  close : Except Fault Unit := .ok ()
  createConnection : Except Fault Unit := .ok ()
  sendMessage : Except Fault Unit := .ok ()
  getOrderBook : TradablePair → ℕ → Except Fault OrderBookState

/-- A network without failures and with one order book to report. -/
def Network.reporting (orderBook : OrderBookState) : Network where
  getOrderBook := fun _ _ => .ok orderBook

/-- `create_ohlcv_sub_id`. -/
def createOhlcvSubId (pairName : String) (interval : OhlcvInterval) : String :=
  pairName ++ interval.toString

/-- `exchange_websocket_stream`: the caches, the names of the pairs, and the connection. -/
structure ExchangeWebsocketStream where
  pairSeparator : Char
  trades : UnorderedMap String TradeUpdate
  ohlcv : UnorderedMap String OhlcvData
  orderBooks : UnorderedMap String OrderBookCache
  pairs : UnorderedMap String TradablePair
  /-- Whether `_connection` holds a connection, open or closed. -/
  connection : Bool
  /-- The channels that have an update handler. -/
  handled : List WebsocketChannel
  delivered : List UpdateMessage

namespace ExchangeWebsocketStream

/-- The constructor. -/
def create (pairSeparator : Char) : ExchangeWebsocketStream where
  pairSeparator := pairSeparator
  trades := ∅
  ohlcv := ∅
  orderBooks := ∅
  pairs := ∅
  connection := false
  handled := []
  delivered := []

/-- `add_trade_update_handler` and its two siblings. -/
def addUpdateHandler (channel : WebsocketChannel) (s : ExchangeWebsocketStream) :
    ExchangeWebsocketStream :=
  { s with handled := s.handled ++ [channel] }

/-- `clear_subscriptions`, which keeps the names of the pairs. -/
def clearSubscriptions (s : ExchangeWebsocketStream) : ExchangeWebsocketStream :=
  { s with trades := ∅, ohlcv := ∅, orderBooks := ∅ }

/-- Without a connection a null pointer is dereferenced. -/
def disconnect (network : Network) (s : ExchangeWebsocketStream) :
    Except Fault Unit × ExchangeWebsocketStream :=
  if s.connection then
    match network.close with
    | .error fault => (.error fault, s)
    | .ok () => (.ok (), s.clearSubscriptions)
  else (.error .undefined, s)

/-- `reset`: a connection that is there is closed before a new one is made. -/
def reset (network : Network) (s : ExchangeWebsocketStream) :
    Except Fault Unit × ExchangeWebsocketStream :=
  let disconnected := if s.connection then s.disconnect network else (.ok (), s)
  match disconnected with
  | (.error fault, s') => (.error fault, s')
  | (.ok (), s') =>
    match network.createConnection with
    | .error fault => (.error fault, s')
    | .ok () => (.ok (), { s' with connection := true })

/-- The part of `subscribe` before the message is sent. -/
def registerPairs (pairItem : List TradablePair) (s : ExchangeWebsocketStream) :
    ExchangeWebsocketStream :=
  { s with
    pairs := pairItem.foldl
      (fun pairs pair => pairs.emplace (pair.toStringWith s.pairSeparator) pair) s.pairs }

/-- Hand a message about a pair to the handlers of its channel, when there are any. -/
def fire (channel : WebsocketChannel) (pairName : String) (message : TradablePair → UpdateMessage)
    (s : ExchangeWebsocketStream) : Except Fault Unit × ExchangeWebsocketStream :=
  if channel ∈ s.handled then
    match s.pairs.lookup pairName with
    | none => (.error .outOfRange, s)
    | some pair => (.ok (), { s with delivered := s.delivered ++ [message pair] })
  else (.ok (), s)

/-- `update_trade`. -/
def updateTrade (pairName : String) (trade : TradeUpdate) (s : ExchangeWebsocketStream) :
    Except Fault Unit × ExchangeWebsocketStream :=
  { s with trades := s.trades.insert pairName trade }.fire .trade pairName (.trade · trade)

/-- `update_ohlcv`. -/
def updateOhlcv (pairName : String) (interval : OhlcvInterval) (ohlcvData : OhlcvData)
    (s : ExchangeWebsocketStream) : Except Fault Unit × ExchangeWebsocketStream :=
  { s with ohlcv := s.ohlcv.insert (createOhlcvSubId pairName interval) ohlcvData }.fire
    .ohlcv pairName (.ohlcv · interval ohlcvData)

/-- `initialise_order_book`, whose handlers are given an empty entry. -/
def initialiseOrderBook (pairName : String) (cache : OrderBookCache) (s : ExchangeWebsocketStream) :
    Except Fault Unit × ExchangeWebsocketStream :=
  { s with orderBooks := s.orderBooks.insert pairName cache }.fire
    .orderBook pairName (.orderBook · ⟨0, 0, .ask⟩)

/-- A pair without a book gets an empty one first. -/
def updateOrderBook (pairName : String) (timeStamp : ℤ) (entry : OrderBookEntry)
    (s : ExchangeWebsocketStream) : Except Fault Unit × ExchangeWebsocketStream :=
  let orderBooks := s.orderBooks.emplace pairName ⟨0, [], []⟩
  match orderBooks.lookup pairName with
  | none => (.error .undefined, s)
  | some cache =>
    { s with orderBooks := orderBooks.insert pairName (cache.updateCache timeStamp entry) }.fire
      .orderBook pairName (.orderBook · entry)

/-- `get_order_book`; a pair without a book has an empty one. -/
def getOrderBook (pair : TradablePair) (depth : ℤ) (s : ExchangeWebsocketStream) :
    Except Fault OrderBookState :=
  match s.orderBooks.lookup (pair.toStringWith s.pairSeparator) with
  | some cache => cache.snapshot depth
  | none => .ok ⟨0, [], []⟩

/-- `get_last_trade`; a pair without trades has a default one. -/
def getLastTrade (pair : TradablePair) (s : ExchangeWebsocketStream) : TradeUpdate :=
  s.trades.findOrDefault (pair.toStringWith s.pairSeparator)

/-- `get_last_candle`; a feed without candles has a default one. -/
def getLastCandle (pair : TradablePair) (interval : OhlcvInterval) (s : ExchangeWebsocketStream) :
    OhlcvData :=
  s.ohlcv.findOrDefault (createOhlcvSubId (pair.toStringWith s.pairSeparator) interval)

/-- The status is read off the caches: a feed is subscribed when something has come in for it. -/
def getSubscriptionStatus (subscription : UniqueWebsocketSubscription)
    (s : ExchangeWebsocketStream) : Except Fault SubscriptionStatus := do
  let pairName := subscription.pairItem.toStringWith s.pairSeparator
  let subscribed ← match subscription.channel with
    | .trade => pure (decide (pairName ∈ s.trades))
    | .ohlcv =>
      let interval ← subscription.getOhlcvInterval
      pure (decide (createOhlcvSubId pairName interval ∈ s.ohlcv))
    | .orderBook => pure (decide (pairName ∈ s.orderBooks))
  return if subscribed then .subscribed else .unsubscribed

/-- `set_unsubscribed`. -/
def setUnsubscribed (subscription : NamedSubscription) (s : ExchangeWebsocketStream) :
    Except Fault Unit × ExchangeWebsocketStream :=
  match subscription.channel with
  | .trade => (.ok (), { s with trades := s.trades.erase subscription.pairItem })
  | .ohlcv =>
    match subscription.getOhlcvInterval with
    | .error fault => (.error fault, s)
    | .ok interval =>
      (.ok (), { s with ohlcv := s.ohlcv.erase (createOhlcvSubId subscription.pairItem interval) })
  | .orderBook => (.ok (), { s with orderBooks := s.orderBooks.erase subscription.pairItem })

/-! ## What a call leaves alone -/

variable (channel : WebsocketChannel) (pairName : String) (message : TradablePair → UpdateMessage)
variable (s : ExchangeWebsocketStream)

/-- Handlers leave the books alone. -/
@[simp] theorem fire_orderBooks :
    (s.fire channel pairName message).2.orderBooks = s.orderBooks := by
  unfold fire
  split
  · split <;> rfl
  · rfl

/-- Handlers leave the names of the pairs alone. -/
@[simp] theorem fire_pairs : (s.fire channel pairName message).2.pairs = s.pairs := by
  unfold fire
  split
  · split <;> rfl
  · rfl

/-- Handlers leave the connection alone. -/
@[simp] theorem fire_connection :
    (s.fire channel pairName message).2.connection = s.connection := by
  unfold fire
  split
  · split <;> rfl
  · rfl

/-- The handlers of a channel that has some are given the pair under the name, when there is one. -/
theorem fire_delivered : (s.fire channel pairName message).2.delivered = s.delivered ++
    if channel ∈ s.handled then ((s.pairs.lookup pairName).map message).toList else [] := by
  unfold fire
  split
  · cases s.pairs.lookup pairName with
    | none => exact (List.append_nil _).symm
    | some pair => rfl
  · exact (List.append_nil _).symm

/-- The handlers are reached when the pair is known. -/
theorem fire_ok (hpair : pairName ∈ s.pairs) : (s.fire channel pairName message).1 = .ok () := by
  obtain ⟨pair, hlookup⟩ := Finmap.mem_iff.mp hpair
  unfold fire
  split
  · rw [hlookup]
  · rfl

/-- An update works on the book that is there, or on an empty one. -/
theorem updateOrderBook_eq (timeStamp : ℤ) (entry : OrderBookEntry) :
    s.updateOrderBook pairName timeStamp entry =
      let cache := (s.orderBooks.lookup pairName).getD ⟨0, [], []⟩
      { s with orderBooks := s.orderBooks.insert pairName (cache.updateCache timeStamp entry) }.fire
        .orderBook pairName (.orderBook · entry) := by
  have hlookup : (s.orderBooks.emplace pairName ⟨0, [], []⟩).lookup pairName
      = some ((s.orderBooks.lookup pairName).getD ⟨0, [], []⟩) := by
    rw [UnorderedMap.lookup_emplace, if_pos rfl]
    cases s.orderBooks.lookup pairName <;> rfl
  unfold updateOrderBook
  simp only [hlookup, UnorderedMap.insert_emplace]

/-- A disconnection that goes through clears the caches, and no other one changes anything. -/
theorem disconnect_eq (network : Network) :
    (s.disconnect network).2 =
      if s.connection = true ∧ network.close = .ok () then s.clearSubscriptions else s := by
  unfold disconnect
  split
  · next hconnection =>
    split
    · next hclose => rw [if_neg (by simp [hclose])]
    · next hclose => rw [if_pos ⟨hconnection, hclose⟩]
  · next hconnection => rw [if_neg fun h => hconnection h.1]

/-- But for the connection, a reset is a disconnection. -/
theorem reset_eq (network : Network) :
    ∃ connection, (s.reset network).2 = { (s.disconnect network).2 with connection } := by
  unfold reset
  by_cases hconnection : s.connection = true
  · rw [if_pos hconnection]
    rcases s.disconnect network with ⟨⟨⟩ | ⟨⟩, s'⟩
    · exact ⟨s'.connection, rfl⟩
    · cases network.createConnection with
      | error => exact ⟨s'.connection, rfl⟩
      | ok => exact ⟨true, rfl⟩
  · rw [if_neg hconnection, disconnect_eq, if_neg fun h => hconnection h.1]
    cases network.createConnection with
    | error => exact ⟨s.connection, rfl⟩
    | ok => exact ⟨true, rfl⟩

/-- A disconnection keeps the pairs and at most clears the books. -/
theorem disconnect_spec (network : Network) :
    (s.disconnect network).2.pairs = s.pairs ∧
      (s.disconnect network).2.orderBooks =
        if s.connection = true ∧ network.close = .ok () then ∅ else s.orderBooks := by
  rw [disconnect_eq]
  split <;> exact ⟨rfl, rfl⟩

/-- A reset clears the books exactly when the disconnection in it does. -/
theorem reset_spec (network : Network) :
    (s.reset network).2.pairs = s.pairs ∧
      (s.reset network).2.orderBooks =
        if s.connection = true ∧ network.close = .ok () then ∅ else s.orderBooks := by
  obtain ⟨connection, hreset⟩ := s.reset_eq network
  rw [hreset]
  exact s.disconnect_spec network

/-- A disconnection keeps the separator. -/
@[simp] theorem disconnect_pairSeparator (network : Network) :
    (s.disconnect network).2.pairSeparator = s.pairSeparator := by
  rw [disconnect_eq]
  split <;> rfl

/-- A reset keeps the separator. -/
@[simp] theorem reset_pairSeparator (network : Network) :
    (s.reset network).2.pairSeparator = s.pairSeparator := by
  obtain ⟨connection, hreset⟩ := s.reset_eq network
  rw [hreset]
  exact s.disconnect_pairSeparator network

/-- Registered pairs stay registered. -/
theorem mem_registerPairs (pairItem : List TradablePair) (hpair : pairName ∈ s.pairs) :
    (s.registerPairs pairItem).pairs.lookup pairName = s.pairs.lookup pairName := by
  obtain ⟨pair, hlookup⟩ := Finmap.mem_iff.mp hpair
  rw [registerPairs, UnorderedMap.lookup_foldl_emplace, hlookup, Option.some_or]

/-- The pairs of a subscription are registered. -/
theorem mem_pairs_registerPairs {pairItem : List TradablePair} {pair : TradablePair}
    (h : pair ∈ pairItem) :
    pair.toStringWith s.pairSeparator ∈ (s.registerPairs pairItem).pairs := by
  rw [← Finmap.lookup_isSome, registerPairs, UnorderedMap.lookup_foldl_emplace, Option.isSome_or,
    Bool.or_eq_true]
  exact .inr (List.find?_isSome.mpr ⟨pair, h, decide_eq_true rfl⟩)

end ExchangeWebsocketStream

end MarketBlocks
