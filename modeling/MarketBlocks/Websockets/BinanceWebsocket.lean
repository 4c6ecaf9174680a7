import MarketBlocks.Library.Runs
import MarketBlocks.Websockets.ExchangeWebsocketStream

/-!
# The Binance stream

`binance_websocket_stream` adds to the common stream the update id that the cached order
book of each symbol stands at. Messages are taken field by field: a field that is absent or
of the wrong type raises when it is read and not before. Symbols are the names of the pairs
run together.
-/

namespace MarketBlocks

open Library

/-- The fields of a trade, each with what reading it throws. -/
structure TradeMessage where
  symbol : Except Fault String
  price : Except Fault ℚ
  volume : Except Fault ℚ
  /-- The field `T`, in milliseconds. -/
  time : Except Fault ℤ

/-- The symbol and the trade; the fields are read in this order. -/
def TradeMessage.read (message : TradeMessage) : Except Fault (String × TradeUpdate) := do
  let symbol ← message.symbol
  let price ← message.price
  let volume ← message.volume
  let time ← message.time
  return (symbol, { timeStamp := time.tdiv 1000, price, volume })

/-- The fields of a candle. -/
structure KlineMessage where
  symbol : Except Fault String
  interval : Except Fault String
  /-- The field `t` of the element `k`, in milliseconds. -/
  startTime : Except Fault ℤ
  «open» : Except Fault ℚ
  high : Except Fault ℚ
  low : Except Fault ℚ
  close : Except Fault ℚ
  volume : Except Fault ℚ

/-- The symbol, the interval and the candle. -/
def KlineMessage.read (message : KlineMessage) :
    Except Fault (String × OhlcvInterval × OhlcvData) := do
  let symbol ← message.symbol
  let interval ← message.interval
  let startTime ← message.startTime
  let «open» ← message.open
  let high ← message.high
  let low ← message.low
  let close ← message.close
  let volume ← message.volume
  return (symbol, parseOhlcvInterval interval,
    { timeStamp := startTime.tdiv 1000, «open», high, low, close, volume })

/-- The price and the volume of one entry of a `depthUpdate`. -/
abbrev DepthEntry := Except Fault (ℚ × ℚ)

/-- The fields of an update of a book. -/
structure DepthUpdate where
  symbol : Except Fault String
  /-- The field `u`. -/
  finalUpdateId : Except Fault ℤ
  asks : Except Fault (List DepthEntry)
  bids : Except Fault (List DepthEntry)

/-- What `on_message` distinguishes. -/
inductive BinanceMessage where
  /-- A text that is no JSON, or whose `msg` or `e` is no string. -/
  | unreadable (fault : Fault)
  /-- A message with `msg`, which is logged. -/
  | notice (text : String)
  | trade (message : TradeMessage)
  | kline (message : KlineMessage)
  | depthUpdate (message : DepthUpdate)
  | other

/-- `create_message`: the fields of the JSON text that is sent. -/
structure SubscriptionMessage where
  method : String
  params : List String
  id : ℕ
  deriving DecidableEq, Repr

/-- `binance_websocket_stream`. -/
structure BinanceWebsocketStream extends ExchangeWebsocketStream where
  orderBookIds : UnorderedMap String ℤ
  /-- The messages handed to the connection. -/
  sent : List SubscriptionMessage

namespace BinanceWebsocketStream

/-- The constructor. -/
def create : BinanceWebsocketStream where
  toExchangeWebsocketStream := .create (Char.ofNat 0)
  orderBookIds := ∅
  sent := []

/-- A function of the common stream, at work in this one. -/
def common (f : ExchangeWebsocketStream → Except Fault Unit × ExchangeWebsocketStream)
    (s : BinanceWebsocketStream) : Except Fault Unit × BinanceWebsocketStream :=
  let (result, stream) := f s.toExchangeWebsocketStream
  (result, { s with toExchangeWebsocketStream := stream })

/-! ## Messages -/

/-- `process_trade_message`. -/
def processTradeMessage (message : TradeMessage) (s : BinanceWebsocketStream) :
    Except Fault Unit × BinanceWebsocketStream :=
  match message.read with
  | .error fault => (.error fault, s)
  | .ok (symbol, trade) => s.common (·.updateTrade symbol trade)

/-- `process_ohlcv_message`. -/
def processOhlcvMessage (message : KlineMessage) (s : BinanceWebsocketStream) :
    Except Fault Unit × BinanceWebsocketStream :=
  match message.read with
  | .error fault => (.error fault, s)
  | .ok (symbol, interval, ohlcv) => s.common (·.updateOhlcv symbol interval ohlcv)

/-- `process_order_book_element`. -/
def processOrderBookElement (side : OrderBookSide) (pair : String) (id : ℤ) :
    List DepthEntry → BinanceWebsocketStream → Except Fault Unit × BinanceWebsocketStream
  | [], s => (.ok (), s)
  | .error fault :: _, s => (.error fault, s)
  | .ok (price, volume) :: rest, s =>
    match s.common (·.updateOrderBook pair id ⟨price, volume, side⟩) with
    | (.error fault, s') => (.error fault, s')
    | (.ok (), s') => processOrderBookElement side pair id rest s'

/-- One side of a `depthUpdate`, with the reading of its element. -/
def processOrderBookSide (side : OrderBookSide) (pair : String) (id : ℤ)
    (element : Except Fault (List DepthEntry)) (s : BinanceWebsocketStream) :
    Except Fault Unit × BinanceWebsocketStream :=
  match element with
  | .error fault => (.error fault, s)
  | .ok entries => processOrderBookElement side pair id entries s

/-- The branch of `process_order_book_message` for a symbol without an id. The message is
dropped once the snapshot is loaded. -/
def loadOrderBook (symbol : String) (network : Network) (s : BinanceWebsocketStream) :
    Except Fault Unit × BinanceWebsocketStream :=
  match s.pairs.lookup symbol with
  | none => (.error .outOfRange, s)
  | some pair =>
    match network.getOrderBook pair 100 with
    | .error fault => (.error fault, s)
    | .ok snapshot =>
      { s with orderBookIds := s.orderBookIds.insert symbol snapshot.timeStamp }.common
        (·.initialiseOrderBook symbol (OrderBookCache.fromSnapshot snapshot))

/-- The branch of `process_order_book_message` for an update that is not outdated. -/
def applyOrderBook (symbol : String) (finalUpdateId : ℤ) (message : DepthUpdate)
    (s : BinanceWebsocketStream) : Except Fault Unit × BinanceWebsocketStream :=
  match processOrderBookSide .ask symbol finalUpdateId message.asks s with
  | (.error fault, s₁) => (.error fault, s₁)
  | (.ok (), s₁) =>
    match processOrderBookSide .bid symbol finalUpdateId message.bids s₁ with
    | (.error fault, s₂) => (.error fault, s₂)
    | (.ok (), s₂) =>
      (.ok (), { s₂ with orderBookIds := s₂.orderBookIds.insert symbol finalUpdateId })

/-- An update of a book that is not held yet has the whole book loaded. -/
def processOrderBookMessage (message : DepthUpdate) (network : Network)
    (s : BinanceWebsocketStream) : Except Fault Unit × BinanceWebsocketStream :=
  match message.symbol with
  | .error fault => (.error fault, s)
  | .ok symbol =>
    match s.orderBookIds.lookup symbol with
    | none => s.loadOrderBook symbol network
    | some lastUpdate =>
      match message.finalUpdateId with
      | .error fault => (.error fault, s)
      | .ok finalUpdateId =>
        if finalUpdateId ≤ lastUpdate then (.ok (), s)
        else s.applyOrderBook symbol finalUpdateId message

/-- `on_message`. -/
def onMessage (message : BinanceMessage) (network : Network) (s : BinanceWebsocketStream) :
    Except Fault Unit × BinanceWebsocketStream :=
  match message with
  | .unreadable fault => (.error fault, s)
  | .notice _ => (.ok (), s)
  | .trade message => s.processTradeMessage message
  | .kline message => s.processOhlcvMessage message
  | .depthUpdate message => s.processOrderBookMessage message network
  | .other => (.ok (), s)

/-! ## Subscriptions -/

/-- `get_channel_name`; the interval of a candle subscription that has none cannot be read. -/
def getChannelName (subscription : WebsocketSubscription) : Except Fault String :=
  match subscription.channel, subscription.parameter with
  | .trade, _ => .ok "trade"
  | .ohlcv, some interval => .ok ("kline_" ++ interval.toString)
  | .ohlcv, none => .error .otherException
  | .orderBook, _ => .ok "depth@100ms"

/-- `create_message`, with the names in lower case. -/
def createMessage (method channel : String) (pairs : List TradablePair) : SubscriptionMessage where
  method := method
  params := pairs.map fun pair => pair.toString.toLower ++ "@" ++ channel
  id := 1

/-- `send_message` of the connection, which has to be there. -/
def sendMessage (message : SubscriptionMessage) (network : Network) (s : BinanceWebsocketStream) :
    Except Fault Unit × BinanceWebsocketStream :=
  if s.connection then
    match network.sendMessage with
    | .error fault => (.error fault, s)
    | .ok () => (.ok (), { s with sent := s.sent ++ [message] })
  else (.error .undefined, s)

/-- `send_subscribe` and `send_unsubscribe`. -/
def sendSubscription (method : String) (subscription : WebsocketSubscription) (network : Network)
    (s : BinanceWebsocketStream) : Except Fault Unit × BinanceWebsocketStream :=
  match getChannelName subscription with
  | .error fault => (.error fault, s)
  | .ok channel => s.sendMessage (createMessage method channel subscription.pairItem) network

/-- `subscribe`. -/
def subscribe (subscription : WebsocketSubscription) (network : Network)
    (s : BinanceWebsocketStream) : Except Fault Unit × BinanceWebsocketStream :=
  sendSubscription "SUBSCRIBE" subscription network
    { s with toExchangeWebsocketStream := s.registerPairs subscription.pairItem }

/-- `unsubscribe`, which leaves the caches as they are. -/
def unsubscribe (subscription : WebsocketSubscription) (network : Network)
    (s : BinanceWebsocketStream) : Except Fault Unit × BinanceWebsocketStream :=
  s.sendSubscription "UNSUBSCRIBE" subscription network

/-! ## Runs -/

/-- A call of the stream, or a message that arrives at it. -/
inductive Event where
  | message (message : BinanceMessage)
  | subscribe (subscription : WebsocketSubscription)
  | unsubscribe (subscription : WebsocketSubscription)
  | addUpdateHandler (channel : WebsocketChannel)
  | reset
  | disconnect

/-- What happens on a stream. -/
def handle (event : Event) (network : Network) (s : BinanceWebsocketStream) :
    Except Fault Unit × BinanceWebsocketStream :=
  match event with
  | .message message => s.onMessage message network
  | .subscribe subscription => s.subscribe subscription network
  | .unsubscribe subscription => s.unsubscribe subscription network
  | .addUpdateHandler channel => s.common fun stream => (.ok (), stream.addUpdateHandler channel)
  | .reset => s.common (·.reset network)
  | .disconnect => s.common (·.disconnect network)

/-- What one event makes of the stream, whether it returns or throws. -/
def step (s : BinanceWebsocketStream) (input : Event × Network) : BinanceWebsocketStream :=
  (s.handle input.1 input.2).2

/-! ## What a call leaves alone -/

/-- Nothing but the book of one pair has changed, and a book that was there is still there. -/
structure WorksOn (pair : String) (s s' : BinanceWebsocketStream) : Prop where
  orderBookIds : s'.orderBookIds = s.orderBookIds
  pairs : s'.pairs = s.pairs
  others : ∀ symbol, symbol ≠ pair → s'.orderBooks.lookup symbol = s.orderBooks.lookup symbol
  kept : pair ∈ s.orderBooks → pair ∈ s'.orderBooks

/-- Nothing has been done. -/
theorem WorksOn.refl (pair : String) (s : BinanceWebsocketStream) : WorksOn pair s s :=
  ⟨rfl, rfl, fun _ _ => rfl, id⟩

/-- Two works on one book. -/
theorem WorksOn.trans {pair : String} {s s' s'' : BinanceWebsocketStream} (h : WorksOn pair s s')
    (h' : WorksOn pair s' s'') : WorksOn pair s s'' where
  orderBookIds := h'.orderBookIds.trans h.orderBookIds
  pairs := h'.pairs.trans h.pairs
  others := fun symbol hne => (h'.others symbol hne).trans (h.others symbol hne)
  kept := fun hmem => h'.kept (h.kept hmem)

/-- An update of the book of one pair works on that book. -/
theorem updateOrderBook_worksOn (pair : String) (id : ℤ) (entry : OrderBookEntry)
    (s : BinanceWebsocketStream) :
    WorksOn pair s (s.common (·.updateOrderBook pair id entry)).2 := by
  refine ⟨rfl, ?_, ?_, ?_⟩
  · simp [common, ExchangeWebsocketStream.updateOrderBook_eq]
  · intro symbol hne
    simp [common, ExchangeWebsocketStream.updateOrderBook_eq, Finmap.lookup_insert_of_ne _ hne]
  · intro _
    simp [common, ExchangeWebsocketStream.updateOrderBook_eq]

/-- However far the entries can be read, they work on the book of their pair. -/
theorem processOrderBookElement_worksOn (side : OrderBookSide) (pair : String) (id : ℤ)
    (entries : List DepthEntry) (s : BinanceWebsocketStream) :
    WorksOn pair s (processOrderBookElement side pair id entries s).2 := by
  induction entries generalizing s with
  | nil => exact WorksOn.refl pair s
  | cons entry rest ih =>
    rcases entry with fault | ⟨price, volume⟩
    · exact WorksOn.refl pair s
    · have hupdate := updateOrderBook_worksOn pair id ⟨price, volume, side⟩ s
      unfold processOrderBookElement
      split
      · next hresult =>
        rw [hresult] at hupdate
        exact hupdate
      · next hresult =>
        rw [hresult] at hupdate
        exact hupdate.trans (ih _)

/-- Reading one side of an update works on the book of its pair. -/
theorem processOrderBookSide_worksOn (side : OrderBookSide) (pair : String) (id : ℤ)
    (element : Except Fault (List DepthEntry)) (s : BinanceWebsocketStream) :
    WorksOn pair s (processOrderBookSide side pair id element s).2 := by
  cases element with
  | error fault => exact WorksOn.refl pair s
  | ok entries => exact processOrderBookElement_worksOn side pair id entries s

/-- An update, whether it returns or throws, works on the book of its symbol and at most sets
its id. -/
theorem applyOrderBook_spec (symbol : String) (finalUpdateId : ℤ) (message : DepthUpdate)
    (s : BinanceWebsocketStream) :
    ∃ s', WorksOn symbol s s' ∧
      ((s.applyOrderBook symbol finalUpdateId message).2 = s' ∨
        (s.applyOrderBook symbol finalUpdateId message).2 =
          { s' with orderBookIds := s'.orderBookIds.insert symbol finalUpdateId }) := by
  have hasks := processOrderBookSide_worksOn .ask symbol finalUpdateId message.asks s
  unfold applyOrderBook
  split
  · next s₁ hresult =>
    rw [hresult] at hasks
    exact ⟨s₁, hasks, .inl rfl⟩
  · next s₁ hresult =>
    rw [hresult] at hasks
    have hbids := processOrderBookSide_worksOn .bid symbol finalUpdateId message.bids s₁
    split
    · next s₂ hresult' =>
      rw [hresult'] at hbids
      exact ⟨s₂, hasks.trans hbids, .inl rfl⟩
    · next s₂ hresult' =>
      rw [hresult'] at hbids
      exact ⟨s₂, hasks.trans hbids, .inr rfl⟩

/-- A snapshot sets the id and the book of its symbol; without one nothing changes. -/
theorem loadOrderBook_spec (symbol : String) (network : Network) (s : BinanceWebsocketStream) :
    (s.loadOrderBook symbol network).2 = s ∨
      ∃ pair snapshot, s.pairs.lookup symbol = some pair ∧
        network.getOrderBook pair 100 = .ok snapshot ∧
        (s.loadOrderBook symbol network).2.orderBookIds =
          s.orderBookIds.insert symbol snapshot.timeStamp ∧
        (s.loadOrderBook symbol network).2.orderBooks =
          s.orderBooks.insert symbol (OrderBookCache.fromSnapshot snapshot) ∧
        (s.loadOrderBook symbol network).2.pairs = s.pairs := by
  unfold loadOrderBook
  split
  · exact .inl rfl
  · next pair hpair =>
    split
    · exact .inl rfl
    · next snapshot hsnapshot =>
      refine .inr ⟨pair, snapshot, hpair, hsnapshot, rfl, ?_, ?_⟩
      · simp [common, ExchangeWebsocketStream.initialiseOrderBook]
      · simp [common, ExchangeWebsocketStream.initialiseOrderBook]

/-- What one symbol can see of the stream has not changed. -/
structure AgreesAt (symbol : String) (s s' : BinanceWebsocketStream) : Prop where
  id : s'.orderBookIds.lookup symbol = s.orderBookIds.lookup symbol
  book : s'.orderBooks.lookup symbol = s.orderBooks.lookup symbol
  pair : symbol ∈ s.pairs → s'.pairs.lookup symbol = s.pairs.lookup symbol

/-- A stream with the same ids, books and pairs agrees at every symbol. -/
theorem AgreesAt.of_eq {symbol : String} {s s' : BinanceWebsocketStream}
    (hids : s'.orderBookIds = s.orderBookIds) (hbooks : s'.orderBooks = s.orderBooks)
    (hpairs : s'.pairs = s.pairs) : AgreesAt symbol s s' := by
  refine ⟨?_, ?_, fun _ => ?_⟩
  · rw [hids]
  · rw [hbooks]
  · rw [hpairs]

/-- A stream agrees with itself. -/
theorem AgreesAt.refl (symbol : String) (s : BinanceWebsocketStream) : AgreesAt symbol s s :=
  .of_eq rfl rfl rfl

/-- The messages that carry a difference of the book of one symbol. -/
def Event.Concerns (symbol : String) : Event → Prop
  | .message (.depthUpdate update) => update.symbol = .ok symbol
  | _ => False

/-- The calls that close a live connection and clear what the stream holds. -/
def Clears (s : BinanceWebsocketStream) (input : Event × Network) : Prop :=
  (input.1 = .reset ∨ input.1 = .disconnect) ∧ s.connection = true ∧ input.2.close = .ok ()

section

variable {symbol : String}

/-- The book of another symbol is loaded or updated without this one noticing. -/
theorem processOrderBookMessage_agreesAt (message : DepthUpdate) (network : Network)
    (s : BinanceWebsocketStream) (hother : message.symbol ≠ .ok symbol) :
    AgreesAt symbol s (s.processOrderBookMessage message network).2 := by
  unfold processOrderBookMessage
  split
  · exact .refl symbol s
  · next other hsymbol =>
    have hne : symbol ≠ other := fun heq => hother (heq ▸ hsymbol)
    split
    · rcases loadOrderBook_spec other network s with hsame | ⟨_, _, _, _, hids, hbooks, hpairs⟩
      · exact .of_eq (by rw [hsame]) (by rw [hsame]) (by rw [hsame])
      · refine ⟨?_, ?_, fun _ => ?_⟩
        · rw [hids, Finmap.lookup_insert_of_ne _ hne]
        · rw [hbooks, Finmap.lookup_insert_of_ne _ hne]
        · rw [hpairs]
    · split
      · exact .refl symbol s
      · next finalUpdateId _ =>
        split
        · exact .refl symbol s
        · obtain ⟨s', hworks, hresult⟩ := applyOrderBook_spec other finalUpdateId message s
          have hbook := hworks.others symbol hne
          have hpairs : s'.pairs.lookup symbol = s.pairs.lookup symbol := by rw [hworks.pairs]
          have hids : s'.orderBookIds.lookup symbol = s.orderBookIds.lookup symbol := by
            rw [hworks.orderBookIds]
          rcases hresult with hstate | hstate
          · exact hstate ▸ ⟨hids, hbook, fun _ => hpairs⟩
          · rw [hstate]
            exact ⟨(Finmap.lookup_insert_of_ne _ hne).trans hids, hbook, fun _ => hpairs⟩

/-- Trades do not touch the books. -/
theorem processTradeMessage_agreesAt (message : TradeMessage) (s : BinanceWebsocketStream) :
    AgreesAt symbol s (s.processTradeMessage message).2 := by
  unfold processTradeMessage
  split
  · exact .refl symbol s
  · apply AgreesAt.of_eq <;> simp [common, ExchangeWebsocketStream.updateTrade]

/-- Candles do not touch the books. -/
theorem processOhlcvMessage_agreesAt (message : KlineMessage) (s : BinanceWebsocketStream) :
    AgreesAt symbol s (s.processOhlcvMessage message).2 := by
  unfold processOhlcvMessage
  split
  · exact .refl symbol s
  · apply AgreesAt.of_eq <;> simp [common, ExchangeWebsocketStream.updateOhlcv]

/-- Sending a subscription does not touch the books. -/
theorem sendSubscription_agreesAt (method : String) (subscription : WebsocketSubscription)
    (network : Network) (s : BinanceWebsocketStream) :
    AgreesAt symbol s (s.sendSubscription method subscription network).2 := by
  unfold sendSubscription
  split
  · exact .refl symbol s
  · unfold sendMessage
    split
    · split
      · exact .refl symbol s
      · exact .of_eq rfl rfl rfl
    · exact .refl symbol s

/-- An event that neither concerns a symbol nor clears the stream is not seen by the symbol. -/
theorem step_agreesAt (s : BinanceWebsocketStream) (input : Event × Network)
    (hconcerns : ¬input.1.Concerns symbol) (hclears : ¬s.Clears input) :
    AgreesAt symbol s (s.step input) := by
  obtain ⟨event, network⟩ := input
  unfold step handle
  cases event with
  | message message =>
    cases message with
    | unreadable fault => exact .refl symbol s
    | notice text => exact .refl symbol s
    | other => exact .refl symbol s
    | depthUpdate message => exact processOrderBookMessage_agreesAt message network s hconcerns
    | trade message => exact processTradeMessage_agreesAt message s
    | kline message => exact processOhlcvMessage_agreesAt message s
  | subscribe subscription =>
    let registered := { s with toExchangeWebsocketStream := s.registerPairs subscription.pairItem }
    have hsend : AgreesAt symbol registered
        (sendSubscription "SUBSCRIBE" subscription network registered).2 :=
      sendSubscription_agreesAt "SUBSCRIBE" subscription network registered
    refine ⟨hsend.id, hsend.book, fun hpair => ?_⟩
    have hkept := s.mem_registerPairs symbol subscription.pairItem hpair
    obtain ⟨pair, hlookup⟩ := Finmap.mem_iff.mp hpair
    exact (hsend.pair (Finmap.mem_of_lookup_eq_some (hkept.trans hlookup))).trans hkept
  | unsubscribe subscription => exact sendSubscription_agreesAt "UNSUBSCRIBE" subscription network s
  | addUpdateHandler channel => exact .of_eq rfl rfl rfl
  | reset =>
    obtain ⟨hpairs, hbooks⟩ := s.reset_spec network
    rw [if_neg fun h => hclears ⟨.inl rfl, h⟩] at hbooks
    exact .of_eq rfl hbooks hpairs
  | disconnect =>
    obtain ⟨hpairs, hbooks⟩ := s.disconnect_spec network
    rw [if_neg fun h => hclears ⟨.inr rfl, h⟩] at hbooks
    exact .of_eq rfl hbooks hpairs

end

/-- A call that clears the stream forgets every book and no id. -/
theorem step_of_clears (s : BinanceWebsocketStream) (input : Event × Network)
    (hclears : s.Clears input) :
    (s.step input).orderBooks = ∅ ∧ (s.step input).orderBookIds = s.orderBookIds := by
  obtain ⟨event, network⟩ := input
  obtain ⟨hevent, hlive⟩ := hclears
  have hreset := (s.reset_spec network).2
  have hdisconnect := (s.disconnect_spec network).2
  rw [if_pos hlive] at hreset hdisconnect
  rcases hevent with heq | heq
  · subst heq
    exact ⟨hreset, rfl⟩
  · subst heq
    exact ⟨hdisconnect, rfl⟩

end BinanceWebsocketStream

end MarketBlocks
