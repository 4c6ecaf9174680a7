import MarketBlocks.Websockets.MessageDemands

/-!
# What Bybit messages have to be like
-/

namespace MarketBlocks

open Library Json

namespace BybitWebsocketStream

open SendingStream (common)

variable (c : Conversions)

/-- The first entry of the data: a price, a volume and a time. -/
def tradeDemand : Demand Json :=
  under "data" (front (.inTurn [has (asNumeral c) "p", has (asNumeral c) "q", has asTime "t"]))

/-- The first entry of the data: a time and five numbers. -/
def candleDemand : Demand Json :=
  under "data" (front (.inTurn [has asTime "t", has (asNumeral c) "o", has (asNumeral c) "h",
    has (asNumeral c) "l", has (asNumeral c) "c", has (asNumeral c) "v"]))

/-- The interval stands among the parameters. -/
def klineTypeDemand : Demand Json := under "params" (has asString "klineType")

/-- A price and a volume, in this order. -/
def bookEntryDemand : Demand Json := .inTurn [hasAt (asNumeral c) 0, hasAt (asNumeral c) 1]

/-- An entry of one side of a book and its update. -/
def sideDemand (update : Demand Json) (i : ℕ) : Demand Json :=
  .either (fun entries => i < entries.size) ((underAt i (bookEntryDemand c)).next update) .nothing

/-- The entries of a whole book take effect together, and others one by one. -/
def updateDemand (pairName : String) (isFull : Bool) (s : BybitWebsocketStream) : Demand Json :=
  if isFull then .nothing else s.fires .orderBook pairName

/-- The first entry of the data: a time and both sides, read in turns. -/
def bookDemand (pairName : String) (s : BybitWebsocketStream) : Demand Json :=
  .read (element "data") (there "data") fun data =>
    .read (fun _ => data.beginValue) ((front .nothing).within fun _ => data) fun dataElement =>
      .next ((has asTime "t").within fun _ => dataElement)
        (.read (fun _ => dataElement.element "a") ((there "a").within fun _ => dataElement) fun asks =>
          .read (fun _ => dataElement.element "b") ((there "b").within fun _ => dataElement) fun bids =>
            .read (get asBool "f") (has asBool "f") fun isFull =>
              .loop (fun _ => max asks.size bids.size) fun i =>
                .next ((sideDemand c (updateDemand pairName isFull s) i).within fun _ => asks)
                  ((sideDemand c (updateDemand pairName isFull s) i).within fun _ => bids))

/-- A code that is no zero comes with a description. -/
def codeDemand : Demand Json :=
  .either (fun json => json.hasMember "code")
    (.read (get asString "code") (has asString "code") fun errorCode =>
      if errorCode ≠ "0" then has asString "desc" else .nothing) .nothing

/-- Codes come first, then the symbol and the topic. -/
def topicDemand : Demand Json := .inTurn [codeDemand, has asString "symbol", has asString "topic"]

/-- What a message demands. -/
def messageDemand (s : BybitWebsocketStream) : Demand Json :=
  .read readTopic topicDemand fun names =>
    if names.2 = "trade" then tradeDemand c
    else if names.2 = "kline" then .next (candleDemand c) klineTypeDemand
    else if names.2 = "diffDepth" then bookDemand c names.1 s
    else .nothing

/-- Reading a trade makes the demand of its fields. -/
theorem makes_readTrade : Makes .undefined (readTrade c) (tradeDemand c) :=
  makes_element (makes_beginValue (.next (makes_get (asNumeral_defined c) _) fun _ =>
    .next (makes_get (asNumeral_defined c) _) fun _ =>
      .next (makes_get asTime_defined _) fun _ => .pure _)) _

/-- Reading a candle makes the demand of its fields. -/
theorem makes_readOhlcv : Makes .undefined (readOhlcv c) (candleDemand c) :=
  makes_element (makes_beginValue (.next (makes_get asTime_defined _) fun _ =>
    .next (makes_get (asNumeral_defined c) _) fun _ =>
      .next (makes_get (asNumeral_defined c) _) fun _ =>
        .next (makes_get (asNumeral_defined c) _) fun _ =>
          .next (makes_get (asNumeral_defined c) _) fun _ =>
            .next (makes_get (asNumeral_defined c) _) fun _ => .pure _)) _

/-- Reading an entry of a book demands both of its numbers. -/
theorem makes_readOrderBookEntry : Makes .undefined (readOrderBookEntry c) (bookEntryDemand c) :=
  .next (makes_getAt (asNumeral_defined c) 0) fun _ =>
    .next (makes_getAt (asNumeral_defined c) 1) fun _ => .pure _

/-- A code is read where there is one. -/
theorem makes_readCode : Makes .undefined readCode codeDemand :=
  .either (.read (makes_get asString_defined _) fun _ =>
    .ite (.last (makes_get asString_defined _) fun _ _ => ⟨_, rfl⟩) (.pure _)) (.pure _)

/-- Reading the topic makes the demand of what comes before it. -/
theorem makes_readTopic : Makes .undefined readTopic topicDemand :=
  .next makes_readCode fun _ => .next (makes_get asString_defined _) fun _ =>
    .next (makes_get asString_defined _) fun _ => .pure _

/-- An entry of one side of a book at a place, and what comes behind reading it. -/
def place (update : Except Fault Unit) (entries : Json) (i : ℕ) : Except Fault Unit :=
  if i < entries.size then
    (entries.elementAt i >>= readOrderBookEntry c) >>= fun _ => update
  else .ok ()

/-- An entry that is read is handed on; a side is not read past its end. -/
theorem makes_place {update : Except Fault Unit} {d : Demand Json}
    (h : Makes .undefined (fun _ => update) d) (i : ℕ) :
    Makes .undefined (fun entries => place c update entries i) (sideDemand c d i) :=
  .either (.next (makes_elementAt (makes_readOrderBookEntry c) i) fun _ => h) (.pure _)

/-- A list is gone through place by place. -/
theorem mapM_eq_range {α : Type} (g : α → Except Fault Unit) (entries : List α) :
    (entries.mapM g >>= fun _ => (.ok () : Except Fault Unit)) =
      ((List.range entries.length).mapM fun i => (entries[i]?).elim (.ok ()) g) >>= fun _ =>
        .ok () := by
  induction entries with
  | nil => rfl
  | cons entry rest ih =>
    rw [List.length_cons, List.range_succ_eq_map, List.mapM_cons, List.mapM_cons, List.mapM_map]
    change _ = ((g entry >>= fun _ => ((List.range rest.length).mapM fun i =>
      (rest[i]?).elim (.ok ()) g) >>= fun _ => _) >>= fun _ => _)
    simp only [bind_assoc, pure_bind]
    apply bind_congr
    intro _
    exact ih

/-- Handing on nothing changes nothing. -/
private theorem bind_ok_unit (outcome : Except Fault Unit) : (outcome >>= fun _ => .ok ()) = outcome := by
  cases outcome <;> rfl

/-- Two lists are gone through in turn, place by place. -/
private theorem mapM_alternate (g : Except Fault OrderBookEntry → Except Fault Unit)
    (asks bids : List (Except Fault OrderBookEntry)) :
    ((alternate asks bids).mapM g >>= fun _ => (.ok () : Except Fault Unit)) =
      ((List.range (max asks.length bids.length)).mapM fun i =>
        (asks[i]?).elim (.ok ()) g >>= fun _ => (bids[i]?).elim (.ok ()) g) >>= fun _ => .ok () := by
  induction asks generalizing bids with
  | nil =>
    rw [alternate, mapM_eq_range, List.length_nil, Nat.zero_max]
    rfl
  | cons ask asks ih =>
    cases bids with
    | nil =>
      rw [alternate, mapM_eq_range, List.length_nil, Nat.max_zero]
      · have hturn : (fun i : ℕ => ((ask :: asks)[i]?).elim (.ok ()) g >>= fun _ =>
            (([] : List (Except Fault OrderBookEntry))[i]?).elim (.ok ()) g) =
              fun i : ℕ => ((ask :: asks)[i]?).elim (.ok ()) g := by
          funext i
          exact bind_ok_unit _
        rw [hturn]
      · exact List.cons_ne_nil _ _
    | cons bid bids =>
      rw [alternate, List.mapM_cons, List.mapM_cons, List.length_cons, List.length_cons,
        Nat.succ_max_succ, List.range_succ_eq_map, List.mapM_cons, List.mapM_map]
      change _ = (((g ask >>= fun _ => g bid) >>= fun _ =>
        ((List.range (max asks.length bids.length)).mapM fun i =>
          (asks[i]?).elim (.ok ()) g >>= fun _ => (bids[i]?).elim (.ok ()) g) >>= fun _ => _) >>=
            fun _ => _)
      simp only [bind_assoc, pure_bind]
      apply bind_congr
      intro _
      apply bind_congr
      intro _
      exact ih bids

/-- The entries of a side at a place. -/
theorem readSide_getElem?_elim (side : OrderBookSide) (update : Except Fault Unit) (entries : Json)
    (i : ℕ) :
    (((readSide c entries).map (createOrderBookEntry side))[i]?).elim (.ok ())
        (fun entry => entry >>= fun _ => update) = place c update entries i := by
  rw [readSide, List.getElem?_map, List.getElem?_map, place]
  split
  · next hi =>
    rw [List.getElem?_range hi]
    change (createOrderBookEntry side (entries.elementAt i >>= readOrderBookEntry c) >>= fun _ =>
      update) = _
    cases entries.elementAt i >>= readOrderBookEntry c <;> rfl
  · next hi =>
    rw [List.getElem?_eq_none (by rw [List.length_range]; omega)]
    rfl

/-- The entries of a book with an update behind each, place by place. -/
theorem mapM_bookEntries (update : Except Fault Unit) (timeStamp : ℤ) (isFull : Bool)
    (asks bids : Json) :
    (((bookEntries ⟨timeStamp, isFull, readSide c asks, readSide c bids⟩).mapM fun entry =>
        entry >>= fun _ => update) >>= fun _ => (.ok () : Except Fault Unit)) =
      ((List.range (max asks.size bids.size)).mapM fun i =>
        place c update asks i >>= fun _ => place c update bids i) >>= fun _ => .ok () := by
  have hlength (side : OrderBookSide) (entries : Json) :
      ((readSide c entries).map (createOrderBookEntry side)).length = entries.size := by
    rw [List.length_map, readSide, List.length_map, List.length_range]
  rw [bookEntries, mapM_alternate, hlength, hlength]
  simp only [readSide_getElem?_elim]

/-- Reading entries all at once goes wrong where reading them one by one does. -/
private theorem mapM_id_bind (entries : List (Except Fault OrderBookEntry)) :
    (entries.mapM id >>= fun _ => (.ok () : Except Fault Unit)) =
      (entries.mapM fun entry => entry >>= fun _ => (.ok () : Except Fault Unit)) >>= fun _ =>
        .ok () := by
  induction entries with
  | nil => rfl
  | cons entry rest ih =>
    rw [List.mapM_cons, List.mapM_cons]
    cases entry with
    | error fault => rfl
    | ok entry =>
      change (rest.mapM id >>= fun _ => _) >>= _ =
        ((rest.mapM fun entry => entry >>= fun _ => (.ok () : Except Fault Unit)) >>= fun _ => _) >>= _
      simp only [bind_assoc, pure_bind]
      exact ih

/-- What the entries of a book make of the stream, place by place. -/
theorem processEntries_ne_undefined_iff (pairName : String) (timeStamp : ℤ) (isFull : Bool)
    (asks bids : Json) (s : BybitWebsocketStream) :
    (processOrderBookMessage pairName (.ok ⟨timeStamp, isFull, readSide c asks, readSide c bids⟩)
        s).1 ≠ .error .undefined ↔
      (((List.range (max asks.size bids.size)).mapM fun i =>
        place c (if isFull then .ok () else s.fired .orderBook pairName) asks i >>= fun _ =>
          place c (if isFull then .ok () else s.fired .orderBook pairName) bids i) >>= fun _ =>
            (.ok () : Except Fault Unit)) ≠ .error .undefined := by
  rw [← mapM_bookEntries c _ timeStamp isFull]
  cases isFull with
  | true =>
    change (withRead ((bookEntries ⟨timeStamp, true, readSide c asks, readSide c bids⟩).mapM id)
      (fun entries => common (·.initialiseOrderBook pairName (createOrderBookCache timeStamp entries)))
        s).1 ≠ _ ↔ ((bookEntries ⟨timeStamp, true, readSide c asks, readSide c bids⟩).mapM
          (fun entry => entry >>= fun _ => (.ok () : Except Fault Unit)) >>= _) ≠ _
    rw [withRead_fst, ← mapM_id_bind]
    cases (bookEntries ⟨timeStamp, true, readSide c asks, readSide c bids⟩).mapM id with
    | error fault => rfl
    | ok entries =>
      exact iff_of_true (s.toExchangeWebsocketStream.initialiseOrderBook_ne_undefined pairName _)
        (fun h => by cases h)
  | false =>
    change (forEach (fun entry => common (·.updateOrderBook pairName timeStamp entry))
      (bookEntries ⟨timeStamp, false, readSide c asks, readSide c bids⟩) s).1 ≠ _ ↔ _
    rw [forEach_fired (fun s : BybitWebsocketStream => s.toExchangeWebsocketStream)
      fun entry s => s.toExchangeWebsocketStream.updateOrderBook_outcome pairName timeStamp entry]
    rfl

/-- A message about a book is undefined exactly where its demand is not met. -/
theorem guards_processOrderBookMessage (pairName : String) (s : BybitWebsocketStream) :
    Guards .undefined (fun json => (processOrderBookMessage pairName (readBook c json) s).1)
      (bookDemand c pairName s).Safe := by
  have hbook (json : Json) : (processOrderBookMessage pairName (readBook c json) s).1 =
      json.element "data" >>= fun data => data.beginValue >>= fun dataElement =>
        dataElement.get asTime "t" >>= fun timeStamp =>
          dataElement.element "a" >>= fun asks => dataElement.element "b" >>= fun bids =>
            json.get asBool "f" >>= fun isFull => (processOrderBookMessage pairName
              (.ok ⟨timeStamp, isFull, readSide c asks, readSide c bids⟩) s).1 := by
    rw [processOrderBookMessage, withRead_fst, readBook]
    simp only [bind_assoc, pure_bind]
    rfl
  have hupdate (isFull : Bool) : Makes .undefined
      (fun _ : Json => if isFull then .ok () else s.fired .orderBook pairName)
        (updateDemand pairName isFull s) := by
    cases isFull with
    | true => exact .pure _
    | false => exact s.makes_fires .orderBook pairName
  simp only [hbook]
  apply Guards.read (makes_there "data")
  intro data
  apply Guards.read (makes_front.within fun _ => data)
  intro dataElement
  apply Guards.next ((makes_get asTime_defined "t").within fun _ => dataElement)
  intro timeStamp
  apply Guards.read ((makes_there "a").within fun _ => dataElement)
  intro asks
  apply Guards.read ((makes_there "b").within fun _ => dataElement)
  intro bids
  apply Guards.read (makes_get asBool_defined "f")
  intro isFull json
  rw [processEntries_ne_undefined_iff]
  have hplaces (i : ℕ) := makes_place c (hupdate isFull) i
  have hturn (i : ℕ) := ((hplaces i).within fun _ : Json => asks).next
    fun _ => (hplaces i).within fun _ => bids
  have hloop : Makes Fault.undefined _ (.loop (fun _ : Json => max asks.size bids.size) _) :=
    .loop hturn
  exact (hloop.last fun _ _ => ⟨(), rfl⟩).safe json

/-- A message is undefined exactly where its demand is not met. -/
theorem guards_onMessage (network : MarketNetwork) (s : BybitWebsocketStream) :
    Guards .undefined (fun json => (onMessage (decode c json) network s).1)
      (messageDemand c s).Safe := by
  have hmessage (json : Json) : (onMessage (decode c json) network s).1 =
      readTopic json >>= fun names =>
        if names.2 = "trade" then
          readTrade c json >>= fun trade => (s.toExchangeWebsocketStream.updateTrade names.1 trade).1
        else if names.2 = "kline" then
          readOhlcv c json >>= fun ohlcv => readKlineType json >>= fun klineType =>
            (s.toExchangeWebsocketStream.updateOhlcv names.1 (parseOhlcvInterval klineType) ohlcv).1
        else if names.2 = "diffDepth" then (processOrderBookMessage names.1 (readBook c json) s).1
        else .ok () := by
    rw [decode]
    cases readTopic json with
    | error fault => rfl
    | ok names =>
      change (onMessage (if _ then _ else if _ then _ else if _ then _ else _) network s).1 =
        if _ then _ else _
      split_ifs
      · exact withRead_fst _ _ _
      · refine (withRead_fst _ _ _).trans ?_
        apply bind_congr
        intro ohlcv
        exact withRead_fst _ _ _
      · rfl
      · rfl
  simp only [hmessage]
  exact .read makes_readTopic fun names =>
    .ite (.ending (makes_readTrade c) fun trade _ =>
        s.toExchangeWebsocketStream.updateTrade_ne_undefined names.1 trade)
      (.ite (.next (makes_readOhlcv c) fun ohlcv =>
          .ending (makes_element (makes_get asString_defined _) _) fun klineType _ =>
            s.toExchangeWebsocketStream.updateOhlcv_ne_undefined names.1 _ ohlcv)
        (.ite (guards_processOrderBookMessage c names.1 s) (.never fun _ h => by cases h)))

end BybitWebsocketStream

end MarketBlocks
