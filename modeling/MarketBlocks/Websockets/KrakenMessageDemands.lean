import MarketBlocks.Websockets.MessageDemands

/-!
# What Kraken messages have to be like
-/

namespace MarketBlocks

open Library Json

namespace KrakenWebsocketStream

open SendingStream (common)

variable (c : Conversions)

/-- A price, a volume and a time, in this order. -/
def tradeDemand : Demand Json :=
  .inTurn [hasAt (asNumeral c) 0, hasAt (asNumeral c) 1, hasAt (asTimeNumeral c) 2]

/-- A text that stands for an integer. -/
def integerDemand (text : String) : Demand Json where
  Safe := fun _ => True
  Met := fun _ => ∃ value, c.stoi text = some value

/-- The name of a candle channel has a hyphen before its minutes. -/
def minutesDemand (channelName : String) : Demand Json :=
  .read (fun _ => at? (split channelName '-') 1) (longerThan (split channelName '-') 1)
    (integerDemand c)

/-- The end of a candle and its numbers, in this order, without the average. -/
def candleDemand : Demand Json :=
  .inTurn [hasAt (asTimeNumeral c) 0, hasAt (asNumeral c) 2, hasAt (asNumeral c) 3,
    hasAt (asNumeral c) 4, hasAt (asNumeral c) 5, hasAt (asNumeral c) 7]

/-- A price, a volume and a time, in this order. -/
def bookEntryDemand : Demand Json :=
  .inTurn [hasAt (asNumeral c) 0, hasAt (asNumeral c) 1, hasAt (asTimeNumeral c) 2]

/-- The entry of one side at an index, if the side is that long. -/
def sideDemand (i : ℕ) : Demand Json :=
  .either (fun entries => i < entries.size) (underAt i (bookEntryDemand c)) .nothing

/-- Both sides of a snapshot, read in turns. -/
def levelsDemand : Demand Json :=
  .read (element "as") (there "as") fun asks => .read (element "bs") (there "bs") fun bids =>
    .loop (fun _ => max asks.size bids.size) fun i =>
      .next ((sideDemand c i).within fun _ => asks) ((sideDemand c i).within fun _ => bids)

/-- The entries of an object with updates, which are asks or bids. -/
def updatesDemand (pairName : String) (s : KrakenWebsocketStream) : Demand Json :=
  .either (fun updateObject => updateObject.hasMember "a")
    (under "a" (.each values ((bookEntryDemand c).next (s.fires .orderBook pairName))))
    (under "b" (.each values ((bookEntryDemand c).next (s.fires .orderBook pairName))))

/-- A message of four parts is a snapshot or one update, a longer one two updates. -/
def bookDemand (pairName : String) (s : KrakenWebsocketStream) : Demand Json :=
  .either (fun json => json.size = 4)
    (underAt 1 (.either (fun entryObject => entryObject.hasMember "as") (levelsDemand c)
      (updatesDemand c pairName s)))
    (.next (underAt 1 (updatesDemand c pairName s)) (underAt 2 (updatesDemand c pairName s)))

/-- What the name of the channel has read. -/
def channelDemand (channelName pairName : String) (s : KrakenWebsocketStream) : Demand Json :=
  if channelName = "trade" then
    underAt 1 (.each values ((tradeDemand c).next (s.fires .trade pairName)))
  else if contains channelName "ohlc" then
    .next (.next (thereAt 1) (minutesDemand c channelName)) (underAt 1 (candleDemand c))
  else if contains channelName "book" then bookDemand c pairName s
  else .nothing

/-- A name, counted from the end. -/
def nameDemand (fromEnd : ℕ) : Demand Json :=
  .part (fun json => OffersAt (json.size - fromEnd) json)
    (fun json => json.position (json.size - fromEnd)) (converts asString)

/-- What a message demands; one that is no array is passed over. -/
def messageDemand (s : KrakenWebsocketStream) : Demand Json :=
  .either (fun json => ∃ elements, json = .array elements)
    (.read readNames (.next (nameDemand 2) (nameDemand 1)) fun names =>
      channelDemand c names.1 names.2 s) .nothing

/-- Reading a trade demands all of its columns. -/
theorem makes_readTrade : Makes .undefined (readTrade c) (tradeDemand c) :=
  .next (makes_getAt (asNumeral_defined c) 0) fun _ =>
    .next (makes_getAt (asNumeral_defined c) 1) fun _ =>
      .next (makes_getAt (asTimeNumeral_defined c) 2) fun _ => .pure _

/-- Reading a candle demands the columns that are used. -/
theorem makes_readOhlcv : Makes .undefined (readOhlcv c) (candleDemand c) :=
  .next (makes_getAt (asTimeNumeral_defined c) 0) fun _ =>
    .next (makes_getAt (asNumeral_defined c) 2) fun _ =>
      .next (makes_getAt (asNumeral_defined c) 3) fun _ =>
        .next (makes_getAt (asNumeral_defined c) 4) fun _ =>
          .next (makes_getAt (asNumeral_defined c) 5) fun _ =>
            .next (makes_getAt (asNumeral_defined c) 7) fun _ => .pure _

/-- Reading an entry of a book demands all of its columns. -/
theorem makes_readBookEntry : Makes .undefined (readBookEntry c) (bookEntryDemand c) :=
  .next (makes_getAt (asNumeral_defined c) 0) fun _ =>
    .next (makes_getAt (asNumeral_defined c) 1) fun _ =>
      .next (makes_getAt (asTimeNumeral_defined c) 2) fun _ => .pure _

/-- A side is not read past its end. -/
theorem makes_readSide (i : ℕ) :
    Makes .undefined (fun entries => readSide c entries i) (sideDemand c i) :=
  .either (makes_elementAt (.last (makes_readBookEntry c) fun _ _ => ⟨_, rfl⟩) i) (.pure _)

/-- Reading a snapshot demands its sides. -/
theorem makes_readLevels : Makes .undefined (readLevels c) (levelsDemand c) :=
  .read (makes_there _) fun asks => .read (makes_there _) fun bids =>
    .last (.loop fun i => .next ((makes_readSide c i).within fun _ => asks) fun _ =>
      .last ((makes_readSide c i).within fun _ => bids) fun _ _ => ⟨_, rfl⟩) fun _ _ => ⟨_, rfl⟩

/-- The interval is read off the name of the channel. -/
theorem makes_readMinutes (channelName : String) :
    Makes .undefined (fun _ => readMinutes c channelName) (minutesDemand c channelName) := by
  refine .read (makes_at? (split channelName '-') 1) fun minuteInterval => ⟨fun _ => ?_, fun _ => ?_⟩
  · change _ ↔ True
    cases c.stoi minuteInterval <;> simp
  · change _ ↔ ∃ value, c.stoi minuteInterval = some value
    cases c.stoi minuteInterval <;> simp

/-- The names of the pair and of the channel stand at the end. -/
theorem makes_readNames :
    Makes .undefined readNames (.next (nameDemand 2) (nameDemand 1)) :=
  .next ((makes_converts asString_defined).part (fun _ => elementAt_ne_undefined_iff)
    fun _ _ => elementAt_eq_ok_iff) fun _ =>
      .last ((makes_converts asString_defined).part (fun _ => elementAt_ne_undefined_iff)
        fun _ _ => elementAt_eq_ok_iff) fun _ _ => ⟨_, rfl⟩

/-- What an object with updates makes of the stream, read by read. -/
theorem processOrderBookUpdates_fst (pairName : String) (s : KrakenWebsocketStream)
    (updateObject : Json) :
    (processOrderBookUpdates pairName (readUpdates c updateObject) s).1 =
      (updateObject.element (updatesName updateObject) >>= fun updateElement =>
        ((updateElement.values.map (readBookEntry c)).mapM fun entry =>
          entry >>= fun _ => s.fired .orderBook pairName) >>= fun _ => .ok ()) := by
  rw [processOrderBookUpdates, withRead_fst, readUpdates]
  simp only [bind_assoc, pure_bind]
  apply bind_congr
  intro updateElement
  exact forEach_fired (fun s : KrakenWebsocketStream => s.toExchangeWebsocketStream)
    (fun entry s => s.toExchangeWebsocketStream.updateOrderBook_outcome pairName _ _) _ s

/-- Updates are read, and then written to the book of their pair. -/
theorem makes_processOrderBookUpdates (pairName : String) (s : KrakenWebsocketStream) :
    Makes .undefined (fun updateObject =>
        (processOrderBookUpdates pairName (readUpdates c updateObject) s).1)
      (updatesDemand c pairName s) := by
  have hname (updateObject : Json) :
      (processOrderBookUpdates pairName (readUpdates c updateObject) s).1 =
        if updateObject.hasMember "a" then
          updateObject.element "a" >>= fun updateElement =>
            ((updateElement.values.map (readBookEntry c)).mapM fun entry =>
              entry >>= fun _ => s.fired .orderBook pairName) >>= fun _ => .ok ()
        else
          updateObject.element "b" >>= fun updateElement =>
            ((updateElement.values.map (readBookEntry c)).mapM fun entry =>
              entry >>= fun _ => s.fired .orderBook pairName) >>= fun _ => .ok () := by
    rw [processOrderBookUpdates_fst, updatesName]
    split <;> rfl
  simp only [hname]
  exact .either
    (makes_element (makes_fired_loop (makes_readBookEntry c) .orderBook pairName _) _)
    (makes_element (makes_fired_loop (makes_readBookEntry c) .orderBook pairName _) _)

/-- Updates leave the outcomes of later ones as they are. -/
theorem processOrderBookUpdates_handlesAlike (pairName : String) (updates : KrakenBookUpdates)
    (s : KrakenWebsocketStream) :
    s.HandlesAlike (processOrderBookUpdates pairName updates s).2.toExchangeWebsocketStream := by
  let R (s s' : KrakenWebsocketStream) : Prop := s.HandlesAlike s'.toExchangeWebsocketStream
  have hrefl (s : KrakenWebsocketStream) : R s s := ⟨rfl, rfl⟩
  have htrans (s s' s'' : KrakenWebsocketStream) (h : R s s') (h' : R s' s'') : R s s'' :=
    ⟨h'.1.trans h.1, h'.2.trans h.2⟩
  apply withRead_rel (R := R) hrefl
  intro entries _
  apply forEach_rel (R := R) hrefl htrans
  intro entry s _
  exact (s.toExchangeWebsocketStream.updateOrderBook_outcome pairName _ _).2

/-- Updates at an index are looked up first. -/
theorem processOrderBookUpdates_readUpdatesAt (pairName : String) (index : ℤ)
    (s : KrakenWebsocketStream) (json : Json) :
    (processOrderBookUpdates pairName (readUpdatesAt c index json) s).1 =
      json.elementAt index >>= fun updateObject =>
        (processOrderBookUpdates pairName (readUpdates c updateObject) s).1 := by
  rw [readUpdatesAt]
  cases json.elementAt index <;> rfl

/-- What a message about a book makes of the stream, read by read. -/
theorem processOrderBookMessage_fst (pairName : String) (s : KrakenWebsocketStream) (json : Json) :
    (processOrderBookMessage pairName (readBook c json) s).1 =
      if json.size = 4 then
        json.elementAt 1 >>= fun entryObject =>
          if entryObject.hasMember "as" then
            readLevels c entryObject >>= fun levels =>
              (s.toExchangeWebsocketStream.initialiseOrderBook pairName
                (createOrderBookCache levels.1 levels.2)).1
          else (processOrderBookUpdates pairName (readUpdates c entryObject) s).1
      else
        (json.elementAt 1 >>= fun updateObject =>
          (processOrderBookUpdates pairName (readUpdates c updateObject) s).1) >>= fun _ =>
          json.elementAt 2 >>= fun updateObject =>
            (processOrderBookUpdates pairName (readUpdates c updateObject) s).1 := by
  rw [readBook]
  split
  · cases json.elementAt 1 with
    | error fault => rfl
    | ok entryObject =>
      change (processOrderBookMessage pairName (if _ then _ else _) s).1 = if _ then _ else _
      split
      · exact withRead_fst _ _ _
      · rfl
  · rw [processOrderBookMessage, andThen_fst, processOrderBookUpdates_readUpdatesAt]
    apply bind_congr
    intro _
    rw [processOrderBookUpdates_readUpdatesAt]
    apply bind_congr
    intro updateObject
    rw [processOrderBookUpdates_fst, processOrderBookUpdates_fst,
      (processOrderBookUpdates_handlesAlike pairName _ s).fired]

/-- A message about a book is undefined exactly where its demand is not met. -/
theorem guards_processOrderBookMessage (pairName : String) (s : KrakenWebsocketStream) :
    Guards .undefined (fun json => (processOrderBookMessage pairName (readBook c json) s).1)
      (bookDemand c pairName s).Safe := by
  simp only [processOrderBookMessage_fst]
  have hupdates := makes_processOrderBookUpdates c pairName s
  exact .either (guards_elementAt (.either
      (.ending (makes_readLevels c) fun levels _ =>
        s.toExchangeWebsocketStream.initialiseOrderBook_ne_undefined _ _) hupdates.safe) 1)
    (.next (makes_elementAt hupdates 1) fun _ => (makes_elementAt hupdates 2).safe)

/-- What a message of a channel makes of the stream, read by read. -/
private theorem onMessage_decodeChannel (channelName pairName : String) (network : MarketNetwork)
    (s : KrakenWebsocketStream) (json : Json) :
    (onMessage (decodeChannel c channelName pairName json) network s).1 =
      if channelName = "trade" then
        json.elementAt 1 >>= fun tradesArray =>
          ((tradesArray.values.map (readTrade c)).mapM fun entry =>
            entry >>= fun _ => s.fired .trade pairName) >>= fun _ => .ok ()
      else if contains channelName "ohlc" then
        (json.elementAt 1 >>= fun _ => readMinutes c channelName) >>= fun minutes =>
          (json.elementAt 1 >>= readOhlcv c) >>= fun ohlcv =>
            (s.toExchangeWebsocketStream.updateOhlcv pairName (.fromMinutes minutes) ohlcv).1
      else if contains channelName "book" then
        (processOrderBookMessage pairName (readBook c json) s).1
      else .ok () := by
  rw [decodeChannel]
  split_ifs
  · change (withRead _ _ s).1 = _
    rw [withRead_fst]
    simp only [bind_assoc, pure_bind]
    apply bind_congr
    intro tradesArray
    exact forEach_fired (fun s : KrakenWebsocketStream => s.toExchangeWebsocketStream)
      (fun trade s => s.toExchangeWebsocketStream.updateTrade_outcome pairName trade) _ s
  · change (withRead _ _ s).1 = _
    rw [withRead_fst]
    apply bind_congr
    intro minutes
    exact withRead_fst _ _ _
  · rfl
  · rfl

/-- A message of a channel is undefined exactly where its demand is not met. -/
theorem guards_decodeChannel (channelName pairName : String) (network : MarketNetwork)
    (s : KrakenWebsocketStream) :
    Guards .undefined
      (fun json => (onMessage (decodeChannel c channelName pairName json) network s).1)
      (channelDemand c channelName pairName s).Safe := by
  simp only [onMessage_decodeChannel]
  exact .ite (makes_elementAt (makes_fired_loop (makes_readTrade c) .trade pairName _) 1).safe
    (.ite (.next (.next (makes_thereAt 1) fun _ => makes_readMinutes c channelName) fun minutes =>
        .ending (makes_elementAt (makes_readOhlcv c) 1) fun ohlcv _ =>
          s.toExchangeWebsocketStream.updateOhlcv_ne_undefined _ _ _)
      (.ite (guards_processOrderBookMessage c pairName s) (.never fun _ h => by cases h)))

/-- A message is undefined exactly where its demand is not met. -/
theorem guards_onMessage (network : MarketNetwork) (s : KrakenWebsocketStream) :
    Guards .undefined (fun json => (onMessage (decode c json) network s).1)
      (messageDemand c s).Safe := by
  intro json
  cases json with
  | array elements =>
    have hnames : (onMessage (decode c (.array elements)) network s).1 =
        readNames (.array elements) >>= fun names =>
          (onMessage (decodeChannel c names.1 names.2 (.array elements)) network s).1 := by
      rw [decode]
      cases readNames (.array elements) <;> rfl
    have hguards := Guards.read makes_readNames (fun names =>
      guards_decodeChannel c names.1 names.2 network s) (.array elements)
    change (onMessage (decode c (.array elements)) network s).1 ≠ _ ↔ _
    rw [hnames]
    refine hguards.trans ?_
    exact ⟨fun hsafe => ⟨fun _ => hsafe, fun hnot => absurd ⟨elements, rfl⟩ hnot⟩,
      fun hsafe => hsafe.1 ⟨elements, rfl⟩⟩
  | _ =>
    exact iff_of_true (fun h => by cases h) ⟨fun ⟨_, h⟩ => (by cases h), fun _ => trivial⟩

end KrakenWebsocketStream

end MarketBlocks
