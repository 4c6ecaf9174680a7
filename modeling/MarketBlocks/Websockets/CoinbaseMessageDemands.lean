import MarketBlocks.Websockets.MessageDemands

/-!
# What Coinbase messages have to be like
-/

namespace MarketBlocks

open Library Json

namespace CoinbaseWebsocketStream

variable (c : Conversions)

/-- A ticker: its price, the size of the last trade, its time and its product. -/
def tradeDemand : Demand Json :=
  .inTurn [has (asNumeral c) "price", has (asNumeral c) "last_size", has asString "time",
    has asString "product_id"]

/-- An entry behind the elements before an offset. -/
def bookEntryDemand (offset : ℤ) : Demand Json :=
  .inTurn [hasAt (asNumeral c) (0 + offset), hasAt (asNumeral c) (1 + offset)]

/-- The entry of one side at an index, if the side is that long. -/
def sideDemand (i : ℕ) : Demand Json :=
  .either (fun entries => i < entries.size) (underAt i (bookEntryDemand c 0)) .nothing

/-- Both sides, read in turns, and then the product. -/
def snapshotDemand : Demand Json :=
  .read (element "asks") (there "asks") fun asks =>
    .read (element "bids") (there "bids") fun bids =>
      .next (.loop (fun _ => max asks.size bids.size) fun i =>
          .next ((sideDemand c i).within fun _ => asks) ((sideDemand c i).within fun _ => bids))
        (has asString "product_id")

/-- A side and an entry. -/
def changeDemand : Demand Json := .inTurn [hasAt asString 0, bookEntryDemand c 1]

/-- The time, and then the changes, each fired as it is read. -/
def changesDemand (s : CoinbaseWebsocketStream) : Demand Json :=
  .next (has asString "time") (.read (element "changes") (there "changes") fun changes =>
    .read (get asString "product_id") (has asString "product_id") fun productId =>
      (Demand.each values ((changeDemand c).next (s.fires .orderBook productId))).within fun _ =>
        changes)

/-- What a message demands. -/
def messageDemand (s : CoinbaseWebsocketStream) : Demand Json :=
  .read (get asString "type") (has asString "type") fun messageType =>
    if messageType = "ticker" then tradeDemand c
    else if messageType = "snapshot" then snapshotDemand c
    else if messageType = "l2update" then changesDemand c s
    else .nothing

/-- Reading a ticker makes the demand of its fields. -/
theorem makes_readTrade : Makes .undefined (readTrade c) (tradeDemand c) :=
  .next (makes_get (asNumeral_defined c) _) fun _ =>
    .next (makes_get (asNumeral_defined c) _) fun _ => .next (makes_get asString_defined _) fun _ =>
      .next (makes_get asString_defined _) fun _ => .pure _

/-- Reading an entry of a book demands both of its numbers. -/
theorem makes_readOrderBookEntry (offset : ℤ) :
    Makes .undefined (readOrderBookEntry c offset) (bookEntryDemand c offset) :=
  .next (makes_getAt (asNumeral_defined c) _) fun _ =>
    .next (makes_getAt (asNumeral_defined c) _) fun _ => .pure _

/-- A side is not read past its end. -/
theorem makes_readSide (i : ℕ) :
    Makes .undefined (fun entries => readSide c entries i) (sideDemand c i) :=
  .either (makes_elementAt (.last (makes_readOrderBookEntry c 0) fun _ _ => ⟨_, rfl⟩) i) (.pure _)

/-- Reading a snapshot demands its sides. -/
theorem makes_readSnapshot : Makes .undefined (readSnapshot c) (snapshotDemand c) :=
  .read (makes_there _) fun asks => .read (makes_there _) fun bids =>
    .next (.loop fun i => .next ((makes_readSide c i).within fun _ => asks) fun _ =>
        .last ((makes_readSide c i).within fun _ => bids) fun _ _ => ⟨_, rfl⟩) fun _ =>
      .last (makes_get asString_defined _) fun _ _ => ⟨_, rfl⟩

/-- Reading a change demands its side and its entry. -/
theorem makes_readChange : Makes .undefined (readChange c) (changeDemand c) :=
  .next (makes_getAt asString_defined _) fun _ =>
    .next (makes_readOrderBookEntry c 1) fun _ => .pure _

/-- What a message with changes makes of the stream, read by read. -/
theorem processOrderBookUpdate_fst (s : CoinbaseWebsocketStream) (json : Json) :
    (processOrderBookUpdate (readChanges c json) s).1 =
      (json.get asString "time" >>= fun _ => json.element "changes" >>= fun changesElement =>
        json.get asString "product_id" >>= fun productId =>
          ((changesElement.values.map (readChange c)).mapM fun entry =>
            entry >>= fun _ => s.fired .orderBook productId) >>= fun _ => .ok ()) := by
  rw [processOrderBookUpdate, withRead_fst, readChanges]
  simp only [bind_assoc, pure_bind]
  apply bind_congr
  intro time
  apply bind_congr
  intro changesElement
  apply bind_congr
  intro productId
  exact forEach_fired (fun s : CoinbaseWebsocketStream => s.toExchangeWebsocketStream)
    (fun entry s => s.toExchangeWebsocketStream.updateOrderBook_outcome productId _ entry) _ s

/-- A message is undefined exactly where its demand is not met. -/
theorem guards_onMessage (network : MarketNetwork) (s : CoinbaseWebsocketStream) :
    Guards .undefined (fun json => (onMessage (decode c json) network s).1)
      (messageDemand c s).Safe := by
  have hmessage (json : Json) : (onMessage (decode c json) network s).1 =
      json.get asString "type" >>= fun messageType =>
        if messageType = "ticker" then
          readTrade c json >>= fun read => (s.processTrade network read.1 read.2).1
        else if messageType = "snapshot" then
          readSnapshot c json >>= fun snapshot => (s.toExchangeWebsocketStream.initialiseOrderBook
            snapshot.productId (createOrderBookCache network.now snapshot)).1
        else if messageType = "l2update" then (processOrderBookUpdate (readChanges c json) s).1
        else .ok () := by
    rw [decode]
    cases json.get asString "type" with
    | error fault => rfl
    | ok messageType =>
      change (onMessage (if _ then _ else if _ then _ else if _ then _ else _) network s).1 =
        if _ then _ else _
      split_ifs
      · exact withRead_fst _ _ _
      · exact withRead_fst _ _ _
      · rfl
      · rfl
  simp only [hmessage, processOrderBookUpdate_fst]
  exact .read (makes_get asString_defined _) fun _ =>
    .ite (.ending (makes_readTrade c) fun read _ => s.processTrade_ne_undefined network read.1 read.2)
      (.ite (.ending (makes_readSnapshot c) fun snapshot _ =>
          s.toExchangeWebsocketStream.initialiseOrderBook_ne_undefined _ _)
        (.ite (Makes.safe (.next (makes_get asString_defined _) fun _ => .read (makes_there _)
            fun changes => .read (makes_get asString_defined _) fun productId =>
              (makes_fired_loop (makes_readChange c) .orderBook productId _).within fun _ => changes))
          (.never fun _ h => by cases h)))

end CoinbaseWebsocketStream

end MarketBlocks
