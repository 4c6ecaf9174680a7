import MarketBlocks.Websockets.MessageDemands

/-!
# What Binance messages have to be like
-/

namespace MarketBlocks

open Library Json

namespace BinanceWebsocketStream

variable (c : Conversions)

/-- The symbol, the price, the quantity and the time. -/
def tradeDemand : Demand Json :=
  .inTurn [has asString "s", has (asNumeral c) "p", has (asNumeral c) "q", has asTime "T"]

/-- The symbol, and the candle under `k`. -/
def klineDemand : Demand Json :=
  .inTurn [has asString "s", under "k" (has asString "i"), under "k" (has asTime "t"),
    under "k" (has (asNumeral c) "o"), under "k" (has (asNumeral c) "h"),
    under "k" (has (asNumeral c) "l"), under "k" (has (asNumeral c) "c"),
    under "k" (has (asNumeral c) "v")]

/-- A price and a quantity, in this order. -/
def depthEntryDemand : Demand Json := .inTurn [hasAt (asNumeral c) 0, hasAt (asNumeral c) 1]

/-- The entries of one side of an update. -/
def depthSideDemand (name symbol : String) (s : BinanceWebsocketStream) : Demand Json :=
  under name (.each values ((depthEntryDemand c).next (s.fires .orderBook symbol)))

/-- The answer of the REST API, where a snapshot is loaded. -/
def loadDemand (symbol : String) (network : Network) (s : BinanceWebsocketStream) : Demand Json where
  Safe := fun _ => ∀ pair, s.pairs.lookup symbol = some pair →
    network.getOrderBook pair 100 ≠ .error .undefined
  Met := fun _ => True

/-- An update of a book that is not held has it loaded, and an old one is dropped unread. -/
def depthUpdateDemand (network : Network) (s : BinanceWebsocketStream) : Demand Json :=
  .read (get asString "s") (has asString "s") fun symbol =>
    match s.orderBookIds.lookup symbol with
    | none => loadDemand symbol network s
    | some lastUpdate => .read (get asTime "u") (has asTime "u") fun finalUpdateId =>
      if finalUpdateId ≤ lastUpdate then .nothing
      else .next (depthSideDemand c "a" symbol s) (depthSideDemand c "b" symbol s)

/-- What a message demands. -/
def messageDemand (network : Network) (s : BinanceWebsocketStream) : Demand Json :=
  .either (fun json => json.hasMember "msg") (has asString "msg")
    (.either (fun json => json.hasMember "e")
      (.read (get asString "e") (has asString "e") fun channel =>
        if channel = "trade" then tradeDemand c
        else if channel = "kline" then klineDemand c
        else if channel = "depthUpdate" then depthUpdateDemand c network s
        else .nothing) .nothing)

/-- Reading a trade makes the demand of its fields. -/
theorem makes_readTrade : Makes .undefined (fun json => (readTrade c json).read) (tradeDemand c) :=
  .next (makes_get asString_defined _) fun _ => .next (makes_get (asNumeral_defined c) _) fun _ =>
    .next (makes_get (asNumeral_defined c) _) fun _ =>
      .next (makes_get asTime_defined _) fun _ => .pure _

/-- Reading a candle makes the demand of its fields. -/
theorem makes_readKline : Makes .undefined (fun json => (readKline c json).read) (klineDemand c) :=
  .next (makes_get asString_defined _) fun _ =>
    .next (makes_element (makes_get asString_defined _) _) fun _ =>
      .next (makes_element (makes_get asTime_defined _) _) fun _ =>
        .next (makes_element (makes_get (asNumeral_defined c) _) _) fun _ =>
          .next (makes_element (makes_get (asNumeral_defined c) _) _) fun _ =>
            .next (makes_element (makes_get (asNumeral_defined c) _) _) fun _ =>
              .next (makes_element (makes_get (asNumeral_defined c) _) _) fun _ =>
                .next (makes_element (makes_get (asNumeral_defined c) _) _) fun _ => .pure _

/-- Reading an entry of a book demands both of its numbers. -/
theorem makes_readDepthEntry : Makes .undefined (readDepthEntry c) (depthEntryDemand c) :=
  .next (makes_getAt (asNumeral_defined c) 0) fun _ =>
    .next (makes_getAt (asNumeral_defined c) 1) fun _ => .pure _

/-- The loop of `process_order_book_element` goes through its entries. -/
theorem processOrderBookElement_eq (side : OrderBookSide) (pair : String) (id : ℤ)
    (entries : List DepthEntry) (s : BinanceWebsocketStream) :
    processOrderBookElement side pair id entries s =
      forEach (fun entry s => s.common (·.updateOrderBook pair id ⟨entry.1, entry.2, side⟩))
        entries s := by
  induction entries generalizing s with
  | nil => rfl
  | cons entry rest ih =>
    cases entry with
    | error fault => rfl
    | ok entry =>
      rw [processOrderBookElement, forEach, withRead]
      rcases s.common (·.updateOrderBook pair id ⟨entry.1, entry.2, side⟩) with ⟨fault | value, s'⟩
      · rfl
      · exact ih s'

/-- What one side of an update makes of the stream, read by read. -/
theorem processOrderBookSide_fst (side : OrderBookSide) (name pair : String) (id : ℤ)
    (s : BinanceWebsocketStream) (json : Json) :
    (processOrderBookSide side pair id (readDepthSide c name json) s).1 =
      json.element name >>= fun element =>
        ((element.values.map (readDepthEntry c)).mapM fun entry =>
          entry >>= fun _ => s.fired .orderBook pair) >>= fun _ => .ok () := by
  rw [readDepthSide]
  cases json.element name with
  | error fault => rfl
  | ok element =>
    change (processOrderBookElement side pair id (element.values.map (readDepthEntry c)) s).1 = _
    rw [processOrderBookElement_eq]
    exact forEach_fired (fun s : BinanceWebsocketStream => s.toExchangeWebsocketStream)
      (fun entry s => s.toExchangeWebsocketStream.updateOrderBook_outcome pair id _) _ s

/-- A side is read, and then written entry by entry. -/
theorem makes_processOrderBookSide (side : OrderBookSide) (name pair : String) (id : ℤ)
    (s : BinanceWebsocketStream) :
    Makes .undefined
      (fun json => (processOrderBookSide side pair id (readDepthSide c name json) s).1)
      (depthSideDemand c name pair s) := by
  simp only [processOrderBookSide_fst]
  exact makes_element (makes_fired_loop (makes_readDepthEntry c) .orderBook pair _) _

/-- One side of an update leaves the outcome of the other one as it is. -/
theorem processOrderBookSide_handlesAlike (side : OrderBookSide) (pair : String) (id : ℤ)
    (entries : Except Fault (List DepthEntry)) (s : BinanceWebsocketStream) :
    s.HandlesAlike (processOrderBookSide side pair id entries s).2.toExchangeWebsocketStream := by
  let R (s s' : BinanceWebsocketStream) : Prop := s.HandlesAlike s'.toExchangeWebsocketStream
  have hrefl (s : BinanceWebsocketStream) : R s s := ⟨rfl, rfl⟩
  have htrans (s s' s'' : BinanceWebsocketStream) (h : R s s') (h' : R s' s'') : R s s'' :=
    ⟨h'.1.trans h.1, h'.2.trans h.2⟩
  cases entries with
  | error fault => exact hrefl s
  | ok entries =>
    change R s (processOrderBookElement side pair id entries s).2
    rw [processOrderBookElement_eq]
    apply forEach_rel (R := R) hrefl htrans
    intro entry s _
    exact (s.toExchangeWebsocketStream.updateOrderBook_outcome pair id _).2

/-- The asks of an update come before its bids. -/
theorem applyOrderBook_fst (symbol : String) (finalUpdateId : ℤ) (s : BinanceWebsocketStream)
    (json : Json) :
    (applyOrderBook symbol finalUpdateId (readDepthUpdate c json) s).1 =
      (processOrderBookSide .ask symbol finalUpdateId (readDepthSide c "a" json) s).1 >>= fun _ =>
        (processOrderBookSide .bid symbol finalUpdateId (readDepthSide c "b" json) s).1 := by
  have hbids : (processOrderBookSide .bid symbol finalUpdateId (readDepthSide c "b" json)
      (processOrderBookSide .ask symbol finalUpdateId (readDepthSide c "a" json) s).2).1 =
      (processOrderBookSide .bid symbol finalUpdateId (readDepthSide c "b" json) s).1 := by
    rw [processOrderBookSide_fst, processOrderBookSide_fst,
      (processOrderBookSide_handlesAlike .ask symbol finalUpdateId _ s).fired]
  rw [← hbids, applyOrderBook]
  simp only [readDepthUpdate]
  split
  · next fault s₁ hasks =>
    rw [hasks]
    rfl
  · next s₁ hasks =>
    rw [hasks]
    change _ = (processOrderBookSide .bid symbol finalUpdateId (readDepthSide c "b" json) s₁).1
    split
    · next fault s₂ hside => rw [hside]
    · next s₂ hside => rw [hside]

/-- Loading a snapshot goes wrong only where the REST API does. -/
theorem loadOrderBook_ne_undefined_iff (symbol : String) (network : Network)
    (s : BinanceWebsocketStream) :
    (s.loadOrderBook symbol network).1 ≠ .error .undefined ↔
      ∀ pair, s.pairs.lookup symbol = some pair →
        network.getOrderBook pair 100 ≠ .error .undefined := by
  rw [loadOrderBook]
  cases s.pairs.lookup symbol with
  | none => exact iff_of_true (fun h => by cases h) (fun _ h => by cases h)
  | some pair =>
    have hpair : (∀ pair', some pair = some pair' →
        network.getOrderBook pair' 100 ≠ .error .undefined) ↔
          network.getOrderBook pair 100 ≠ .error .undefined :=
      ⟨fun h => h pair rfl, fun h _ heq => Option.some.inj heq ▸ h⟩
    rw [hpair]
    dsimp only
    cases network.getOrderBook pair 100 with
    | error fault =>
      exact ⟨fun hne heq => hne (Except.error.inj heq ▸ rfl),
        fun hne heq => hne (Except.error.inj heq ▸ rfl)⟩
    | ok snapshot =>
      refine iff_of_true ?_ (fun h => by cases h)
      exact ExchangeWebsocketStream.initialiseOrderBook_ne_undefined symbol
        s.toExchangeWebsocketStream (OrderBookCache.fromSnapshot snapshot)

/-- A message about a book is undefined exactly where its demand is not met. -/
theorem guards_processOrderBookMessage (network : Network) (s : BinanceWebsocketStream) :
    Guards .undefined (fun json => (processOrderBookMessage (readDepthUpdate c json) network s).1)
      (depthUpdateDemand c network s).Safe := by
  have hmessage (json : Json) : (processOrderBookMessage (readDepthUpdate c json) network s).1 =
      json.get asString "s" >>= fun symbol =>
        match s.orderBookIds.lookup symbol with
        | none => (s.loadOrderBook symbol network).1
        | some lastUpdate => json.get asTime "u" >>= fun finalUpdateId =>
          if finalUpdateId ≤ lastUpdate then .ok ()
          else (applyOrderBook symbol finalUpdateId (readDepthUpdate c json) s).1 := by
    have hsymbol : (readDepthUpdate c json).symbol = json.get asString "s" := rfl
    have hid : (readDepthUpdate c json).finalUpdateId = json.get asTime "u" := rfl
    rw [processOrderBookMessage, hsymbol]
    cases json.get asString "s" with
    | error fault => rfl
    | ok symbol =>
      change _ = (match s.orderBookIds.lookup symbol with
        | none => _
        | some lastUpdate => _ : Except Fault Unit)
      dsimp only
      cases s.orderBookIds.lookup symbol with
      | none => rfl
      | some lastUpdate =>
        dsimp only
        rw [hid]
        cases json.get asTime "u" with
        | error fault => rfl
        | ok finalUpdateId =>
          change (if _ then _ else _ : Except Fault Unit × BinanceWebsocketStream).1 = if _ then _ else _
          split <;> rfl
  simp only [hmessage]
  apply Guards.read (makes_get asString_defined _)
  intro symbol
  cases s.orderBookIds.lookup symbol with
  | none => exact fun _ => loadOrderBook_ne_undefined_iff symbol network s
  | some lastUpdate =>
    simp only [applyOrderBook_fst]
    exact .read (makes_get asTime_defined _) fun finalUpdateId =>
      .ite (.never fun _ h => by cases h)
        (.next (makes_processOrderBookSide c .ask "a" symbol finalUpdateId s) fun _ =>
          (makes_processOrderBookSide c .bid "b" symbol finalUpdateId s).safe)

/-- A message is undefined exactly where its demand is not met. -/
theorem guards_onMessage (network : Network) (s : BinanceWebsocketStream) :
    Guards .undefined (fun json => (onMessage (decode c json) network s).1)
      (messageDemand c network s).Safe := by
  have hmessage (json : Json) : (onMessage (decode c json) network s).1 =
      if json.hasMember "msg" then json.get asString "msg" >>= fun _ => .ok ()
      else if json.hasMember "e" then
        json.get asString "e" >>= fun channel =>
          if channel = "trade" then
            (readTrade c json).read >>= fun read =>
              (s.toExchangeWebsocketStream.updateTrade read.1 read.2).1
          else if channel = "kline" then
            (readKline c json).read >>= fun read =>
              (s.toExchangeWebsocketStream.updateOhlcv read.1 read.2.1 read.2.2).1
          else if channel = "depthUpdate" then
            (processOrderBookMessage (readDepthUpdate c json) network s).1
          else .ok ()
      else .ok () := by
    rw [decode]
    split
    · cases json.get asString "msg" <;> rfl
    · split
      · cases json.get asString "e" with
        | error fault => rfl
        | ok channel =>
          change (onMessage (decodeChannel c channel json) network s).1 = if _ then _ else _
          rw [decodeChannel]
          split_ifs
          · change (processTradeMessage (readTrade c json) s).1 = _
            rw [processTradeMessage]
            cases (readTrade c json).read <;> rfl
          · change (processOhlcvMessage (readKline c json) s).1 = _
            rw [processOhlcvMessage]
            cases (readKline c json).read <;> rfl
          · rfl
          · rfl
      · rfl
  simp only [hmessage]
  exact .either (.ending (makes_get asString_defined _) fun _ _ h => by cases h)
    (.either (.read (makes_get asString_defined _) fun _ =>
        .ite (.ending (makes_readTrade c) fun read _ =>
            s.toExchangeWebsocketStream.updateTrade_ne_undefined read.1 read.2)
          (.ite (.ending (makes_readKline c) fun read _ =>
              s.toExchangeWebsocketStream.updateOhlcv_ne_undefined read.1 read.2.1 read.2.2)
            (.ite (guards_processOrderBookMessage c network s) (.never fun _ h => by cases h))))
      (.never fun _ h => by cases h))

end BinanceWebsocketStream

end MarketBlocks
