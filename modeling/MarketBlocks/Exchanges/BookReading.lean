import MarketBlocks.Exchanges.BinanceResults
import MarketBlocks.Exchanges.BybitResults
import MarketBlocks.Exchanges.CoinbaseResults
import MarketBlocks.Exchanges.DigifinexResults
import MarketBlocks.Exchanges.KrakenResults

/-!
# Reading order books

The answers in which the exchanges list the levels of a book, and what their readers make of them.
Three of the readers return every book as it is. The one of Kraken reads both sides as far as the
asks go, and the one of Coinbase exchanges the sides.
-/

namespace MarketBlocks

open Library

/-- The exchanges that have readers. -/
inductive Exchange where
  | kraken
  | coinbase
  | binance
  | bybit
  | digifinex
  deriving DecidableEq, Repr

/-! ## Answers -/

/-- A level is a price and a volume, as texts that stand for their numbers. -/
def TextLevel (c : Conversions) (level : ℚ × ℚ) (element : Json) : Prop :=
  ∃ price volume rest, element = .array (.string price :: .string volume :: rest) ∧
    c.stod price = some level.1 ∧ c.stod volume = some level.2

/-- A level of texts with the time of its last change. -/
def TimedLevel (c : Conversions) (level : ℚ × ℚ) (element : Json) : Prop :=
  ∃ price volume time rest,
    element = .array (.string price :: .string volume :: .integer time :: rest) ∧
      c.stod price = some level.1 ∧ c.stod volume = some level.2

/-- A level of numbers. -/
def NumberLevel (level : ℚ × ℚ) (element : Json) : Prop :=
  ∃ price volume rest, element = .array (price :: volume :: rest) ∧
    price.asDouble = .ok level.1 ∧ volume.asDouble = .ok level.2

/-- A book has a list of levels for each side. -/
def Sides (Level : ℚ × ℚ → Json → Prop) (asks bids : List (ℚ × ℚ)) (book : Json) : Prop :=
  ∃ askElements bidElements,
    book.member "asks" = some (.array askElements) ∧ List.Forall₂ Level asks askElements ∧
      book.member "bids" = some (.array bidElements) ∧ List.Forall₂ Level bids bidElements

/-- The answer of an exchange that has a book. -/
def Exchange.Encodes (c : Conversions) (asks bids : List (ℚ × ℚ)) (json : Json) : Exchange → Prop
  | .kraken => json.member "error" = some (.array []) ∧ ∃ name book rest,
      json.member "result" = some (.object ((name, book) :: rest)) ∧
        Sides (TimedLevel c) asks bids book
  | .coinbase => json.hasMember "message" = false ∧ Sides (TextLevel c) asks bids json ∧
      ∃ sequence, json.member "sequence" = some (.integer sequence)
  | .binance => json.hasMember "code" = false ∧ Sides (TextLevel c) asks bids json ∧
      ∃ lastUpdateId, json.member "lastUpdateId" = some (.integer lastUpdateId)
  | .bybit => json.member "ret_code" = some (.integer 0) ∧ ∃ result,
      json.member "result" = some result ∧ Sides (TextLevel c) asks bids result ∧
        ∃ time, result.member "time" = some (.integer time)
  | .digifinex => json.member "code" = some (.integer 0) ∧ Sides NumberLevel asks bids json ∧
      ∃ date, json.member "date" = some (.integer date)

/-- `read_order_book` of an exchange; only that of Coinbase is given the depth. -/
def Exchange.readOrderBook (c : Conversions) (depth : ℤ) :
    Exchange → Answer → Except Fault (Result OrderBookState)
  | .kraken => Kraken.readOrderBook c
  | .coinbase => Coinbase.readOrderBook c depth
  | .binance => Binance.readOrderBook c
  | .bybit => Bybit.readOrderBook c
  | .digifinex => Digifinex.readOrderBook

/-- The entries of one side of a book. -/
def bookEntriesOf (side : OrderBookSide) (levels : List (ℚ × ℚ)) : List OrderBookEntry :=
  levels.map fun level => ⟨level.1, level.2, side⟩

/-- The books that the reader of an exchange returns as they are. -/
def Exchange.ReadsWhole (asks bids : List (ℚ × ℚ)) : Exchange → Prop
  | .kraken => asks.length = bids.length
  | .coinbase => asks = [] ∧ bids = []
  | .binance | .bybit | .digifinex => True

/-! ## Levels -/

variable {c : Conversions} {asks bids levels : List (ℚ × ℚ)} {json : Json}

/-- The time of a level is not looked at. -/
theorem TimedLevel.textLevel {level : ℚ × ℚ} {element : Json} (h : TimedLevel c level element) :
    TextLevel c level element := by
  obtain ⟨price, volume, time, rest, heq, hlevel⟩ := h
  exact ⟨price, volume, _, heq, hlevel⟩

/-- The entries are those of the levels, one for one. -/
theorem bookEntriesOf_getElem? (side : OrderBookSide) (i : ℕ) :
    (bookEntriesOf side levels)[i]? =
      (levels[i]?).map fun level => ⟨level.1, level.2, side⟩ :=
  List.getElem?_map

/-- The turns of a loop collect the entries of a side up to their number. -/
theorem filterMap_range_getElem? {α : Type} (entries : List α) (n : ℕ) :
    (List.range n).filterMap (entries[·]?) = entries.take n := by
  induction n with
  | zero => rfl
  | succ n ih =>
    rw [List.range_succ, List.filterMap_append, ih, List.take_add_one, List.filterMap_cons,
      List.filterMap_nil]
    cases entries[n]? <;> rfl

/-- Binance's reader of a level. -/
theorem Binance.readOrderBookEntry_eq {level : ℚ × ℚ} {element : Json} (h : TextLevel c level element)
    (side : OrderBookSide) :
    Binance.readOrderBookEntry c side element = .ok ⟨level.1, level.2, side⟩ := by
  obtain ⟨price, volume, rest, rfl, hprice, hvolume⟩ := h
  have hfirst : (Json.array (.string price :: .string volume :: rest)).getAt (Json.asNumeral c) 0 =
      .ok level.1 := Json.asNumeral_string hprice
  have hsecond : (Json.array (.string price :: .string volume :: rest)).getAt (Json.asNumeral c) 1 =
      .ok level.2 := Json.asNumeral_string hvolume
  rw [Binance.readOrderBookEntry, hfirst, hsecond]
  rfl

/-- Bybit's reader of a level. -/
theorem Bybit.readOrderBookEntry_eq {level : ℚ × ℚ} {element : Json} (h : TextLevel c level element)
    (side : OrderBookSide) :
    Bybit.readOrderBookEntry c side element = .ok ⟨level.1, level.2, side⟩ :=
  Binance.readOrderBookEntry_eq h side

/-- Coinbase's reader of a level. -/
theorem Coinbase.readOrderBookEntry_eq {level : ℚ × ℚ} {element : Json}
    (h : TextLevel c level element) (side : OrderBookSide) :
    Coinbase.readOrderBookEntry c side element = .ok ⟨level.1, level.2, side⟩ := by
  obtain ⟨price, volume, rest, rfl, hprice, hvolume⟩ := h
  have hfirst : (Json.array (.string price :: .string volume :: rest)).getAt (Json.asNumeral c) 0 =
      .ok level.1 := Json.asNumeral_string hprice
  have hsecond : (Json.array (.string price :: .string volume :: rest)).getAt (Json.asNumeral c) 1 =
      .ok level.2 := Json.asNumeral_string hvolume
  rw [Coinbase.readOrderBookEntry, hfirst, hsecond]
  rfl

/-- Digifinex's reader of a level. -/
theorem Digifinex.readOrderBookEntry_eq {level : ℚ × ℚ} {element : Json} (h : NumberLevel level element)
    (side : OrderBookSide) :
    Digifinex.readOrderBookEntry side element = .ok ⟨level.1, level.2, side⟩ := by
  obtain ⟨price, volume, rest, rfl, hprice, hvolume⟩ := h
  have hfirst : (Json.array (price :: volume :: rest)).getAt Json.asDouble 0 = .ok level.1 := hprice
  have hsecond : (Json.array (price :: volume :: rest)).getAt Json.asDouble 1 = .ok level.2 := hvolume
  rw [Digifinex.readOrderBookEntry, hfirst, hsecond]
  rfl

/-- A loop that reads a list of each side turn by turn collects what each of them has. -/
theorem mapM_sides {n : ℕ} {body : ℕ → Except Fault (Option OrderBookEntry × Option OrderBookEntry)}
    {asks bids : List OrderBookEntry} (hbody : ∀ i, body i = .ok (asks[i]?, bids[i]?))
    (hasks : asks.length ≤ n) (hbids : bids.length ≤ n) :
    ∃ entries, (List.range n).mapM body = .ok entries ∧
      entries.filterMap (·.1) = asks ∧ entries.filterMap (·.2) = bids := by
  refine ⟨_, mapM_eq_ok_map fun i _ => hbody i, ?_, ?_⟩
  · rw [List.filterMap_map]
    exact (filterMap_range_getElem? asks n).trans (List.take_of_length_le hasks)
  · rw [List.filterMap_map]
    exact (filterMap_range_getElem? bids n).trans (List.take_of_length_le hbids)

/-- Reading a side element by element. -/
theorem read_getElem? {Level : ℚ × ℚ → Json → Prop} {side : OrderBookSide} {elements : List Json}
    (hlevels : List.Forall₂ Level levels elements) {read : Json → Except Fault OrderBookEntry}
    (hread : ∀ level element, Level level element → read element = .ok ⟨level.1, level.2, side⟩)
    (i : ℕ) :
    (match elements[i]? with
      | some element => do
        let entry ← read element
        return some entry
      | none => .ok none) = (.ok (bookEntriesOf side levels)[i]? : Except Fault _) := by
  induction hlevels generalizing i with
  | nil => rfl
  | cons hlevel _ ih =>
    cases i with
    | zero =>
      simp only [List.getElem?_cons_zero, hread _ _ hlevel, bookEntriesOf, List.map_cons]
      rfl
    | succ i =>
      simp only [List.getElem?_cons_succ, bookEntriesOf, List.map_cons]
      exact ih i

/-- There are as many entries as levels. -/
theorem length_bookEntriesOf (side : OrderBookSide) :
    (bookEntriesOf side levels).length = levels.length :=
  List.length_map _

/-! ## Readers that read a book as it is -/

/-- The sides of a book, as a loop with an iterator for each of them reads them. -/
theorem exists_mapM_sides {Level : ℚ × ℚ → Json → Prop} {askElements bidElements : List Json}
    (hasks : List.Forall₂ Level asks askElements) (hbids : List.Forall₂ Level bids bidElements)
    (read : OrderBookSide → Json → Except Fault OrderBookEntry)
    (hread : ∀ side level element, Level level element →
      read side element = .ok ⟨level.1, level.2, side⟩)
    (readSide : OrderBookSide → Json → ℕ → Except Fault (Option OrderBookEntry))
    (hside : ∀ side elements i, readSide side (.array elements) i =
      match elements[i]? with
      | some element => do
        let entry ← read side element
        return some entry
      | none => .ok none)
    {n : ℕ} (haskcount : askElements.length ≤ n) (hbidcount : bidElements.length ≤ n) :
    ∃ entries, ((List.range n).mapM fun i => do
        let ask ← readSide .ask (.array askElements) i
        let bid ← readSide .bid (.array bidElements) i
        return (ask, bid)) = .ok entries ∧
      entries.filterMap (·.1) = bookEntriesOf .ask asks ∧
      entries.filterMap (·.2) = bookEntriesOf .bid bids := by
  apply mapM_sides
  · intro i
    rw [hside, hside, read_getElem? hasks (hread .ask), read_getElem? hbids (hread .bid)]
    rfl
  · rw [length_bookEntriesOf, hasks.length_eq]
    exact haskcount
  · rw [length_bookEntriesOf, hbids.length_eq]
    exact hbidcount

/-- Binance's books are read as a whole. -/
theorem Binance.readOrderBook_eq (h : Exchange.binance.Encodes c asks bids json) :
    ∃ time, Binance.readOrderBook c (.ok json) =
      .ok (.ok ⟨time, bookEntriesOf .ask asks, bookEntriesOf .bid bids⟩) := by
  obtain ⟨hcode, ⟨askElements, bidElements, hasks, hasklevels, hbids, hbidlevels⟩, lastUpdateId,
    hid⟩ := h
  obtain ⟨entries, hentries, hask, hbid⟩ := exists_mapM_sides hasklevels hbidlevels
    (Binance.readOrderBookEntry c) (fun side _ _ hlevel => readOrderBookEntry_eq hlevel side)
    (Binance.readSide c) (fun _ _ _ => rfl) (le_max_left _ _) (le_max_right _ _)
  rw [← hask, ← hbid]
  refine ⟨lastUpdateId.bmod (2 ^ 64), (readResult_return hcode).mpr ?_⟩
  simp only [bind, Except.bind] at hentries
  simp only [Json.element_of_member hasks, Json.element_of_member hbids, Json.get_of_member hid,
    Json.size, bind, Except.bind, hentries]
  rfl

/-- Bybit's books are read as a whole. -/
theorem Bybit.readOrderBook_eq (h : Exchange.bybit.Encodes c asks bids json) :
    ∃ time, Bybit.readOrderBook c (.ok json) =
      .ok (.ok ⟨time, bookEntriesOf .ask asks, bookEntriesOf .bid bids⟩) := by
  obtain ⟨hcode, result, hresult,
    ⟨askElements, bidElements, hasks, hasklevels, hbids, hbidlevels⟩, time, htime⟩ := h
  obtain ⟨entries, hentries, hask, hbid⟩ := exists_mapM_sides hasklevels hbidlevels
    (Bybit.readOrderBookEntry c) (fun side _ _ hlevel => readOrderBookEntry_eq hlevel side)
    (Bybit.readSide c) (fun _ _ _ => rfl) (le_max_left _ _) (le_max_right _ _)
  rw [← hask, ← hbid]
  refine ⟨(time.bmod (2 ^ 64)).tdiv 1000, (readResult_return hcode hresult).mpr ?_⟩
  simp only [bind, Except.bind] at hentries
  simp only [Json.element_of_member hasks, Json.element_of_member hbids, Json.get_of_member htime,
    Json.size, bind, Except.bind, hentries]
  rfl

/-- Digifinex's books are read as a whole. -/
theorem Digifinex.readOrderBook_eq (h : Exchange.digifinex.Encodes c asks bids json) :
    ∃ time, Digifinex.readOrderBook (.ok json) =
      .ok (.ok ⟨time, bookEntriesOf .ask asks, bookEntriesOf .bid bids⟩) := by
  obtain ⟨hcode, ⟨askElements, bidElements, hasks, hasklevels, hbids, hbidlevels⟩, date, hdate⟩ := h
  obtain ⟨entries, hentries, hask, hbid⟩ := exists_mapM_sides hasklevels hbidlevels
    Digifinex.readOrderBookEntry (fun side _ _ hlevel => readOrderBookEntry_eq hlevel side)
    Digifinex.readSide (fun _ _ _ => rfl) (le_max_right _ _) (le_max_left _ _)
  rw [← hask, ← hbid]
  refine ⟨date.bmod (2 ^ 64), (readResult_return hcode).mpr ?_⟩
  simp only [bind, Except.bind] at hentries
  simp only [Json.element_of_member hasks, Json.element_of_member hbids, Json.get_of_member hdate,
    Json.size, bind, Except.bind, hentries]
  rfl

/-! ## Readers that do not -/

/-- A side is read entry by entry, and is empty behind its last one. -/
theorem Coinbase.readSide_eq {elements : List Json}
    (hlevels : List.Forall₂ (TextLevel c) levels elements) (side : OrderBookSide) (i : ℕ) :
    Coinbase.readSide c side (.array elements) i = .ok (bookEntriesOf side levels)[i]? := by
  rw [← read_getElem? hlevels fun _ _ hlevel => readOrderBookEntry_eq hlevel side, Coinbase.readSide]
  by_cases hi : i < elements.length
  · rw [Json.size, if_pos hi, Json.elementAt_array (List.getElem?_eq_getElem hi),
      List.getElem?_eq_getElem hi]
    rfl
  · rw [Json.size, if_neg hi, List.getElem?_eq_none (Nat.le_of_not_lt hi)]

/-- The reader of Coinbase returns both sides, each with the name of the other one. -/
theorem Coinbase.readOrderBook_eq {depth : ℤ} (h : Exchange.coinbase.Encodes c asks bids json)
    (hdepth : max asks.length bids.length ≤ depth) :
    ∃ time, Coinbase.readOrderBook c depth (.ok json) =
      .ok (.ok ⟨time, bookEntriesOf .bid asks, bookEntriesOf .ask bids⟩) := by
  obtain ⟨hmessage, ⟨askElements, bidElements, hasks, hasklevels, hbids, hbidlevels⟩, sequence,
    hsequence⟩ := h
  have hbody (i : ℕ) : (do
      let bid ← readSide c .ask (.array bidElements) i
      let ask ← readSide c .bid (.array askElements) i
      return (ask, bid)) = (.ok ((bookEntriesOf .bid asks)[i]?, (bookEntriesOf .ask bids)[i]?) :
        Except Fault _) := by
    rw [readSide_eq hbidlevels, readSide_eq hasklevels]
    rfl
  have hreserve : reserve depth = .ok () := if_neg (by omega)
  obtain ⟨entries, hentries, hask, hbid⟩ := mapM_sides (n := depth.toNat) hbody
    (by rw [length_bookEntriesOf]; omega) (by rw [length_bookEntriesOf]; omega)
  rw [← hask, ← hbid]
  refine ⟨sequence.bmod (2 ^ 64), (readResult_return hmessage).mpr ?_⟩
  simp only [bind, Except.bind] at hentries
  simp only [Json.element_of_member hasks, Json.element_of_member hbids,
    Json.get_of_member hsequence, hreserve, bind, Except.bind, hentries]
  rfl

/-- The entries of both sides differ in their sides, so that they are the same where there are none. -/
theorem bookEntriesOf_eq_iff {side side' : OrderBookSide} (h : side ≠ side') :
    bookEntriesOf side levels = bookEntriesOf side' levels ↔ levels = [] := by
  cases levels with
  | nil => exact iff_of_true rfl rfl
  | cons level rest =>
    refine iff_of_false (fun heq => ?_) (List.cons_ne_nil _ _)
    exact h (congrArg OrderBookEntry.side (List.cons.inj heq).1)

/-- One turn of the loop of Kraken's reader at a place where both sides have a level. -/
theorem Kraken.readOrderBookRow_eq {askElements bidElements : List Json}
    {askLevel bidLevel : ℚ × ℚ} {ask bid : Json} {i : ℕ} (hask : askElements[i]? = some ask)
    (hbid : bidElements[i]? = some bid) (hasklevel : TimedLevel c askLevel ask)
    (hbidlevel : TimedLevel c bidLevel bid) :
    ∃ time, Kraken.readOrderBookRow c (.array askElements) (.array bidElements) i =
      .ok (⟨askLevel.1, askLevel.2, .ask⟩, ⟨bidLevel.1, bidLevel.2, .bid⟩, time) := by
  have haskentry : readOrderBookEntry c .ask ask = .ok _ :=
    Coinbase.readOrderBookEntry_eq hasklevel.textLevel .ask
  have hbidentry : readOrderBookEntry c .bid bid = .ok _ :=
    Coinbase.readOrderBookEntry_eq hbidlevel.textLevel .bid
  obtain ⟨askPrice, askVolume, askTime, askRest, rfl, -, -⟩ := hasklevel
  obtain ⟨bidPrice, bidVolume, bidTime, bidRest, rfl, -, -⟩ := hbidlevel
  refine ⟨max (askTime.bmod (2 ^ 64)) (bidTime.bmod (2 ^ 64)), ?_⟩
  change (Json.elementAt i (.array askElements) >>= _) = _
  rw [Json.elementAt_array hask]
  change (readOrderBookEntry c .ask _ >>= _) = _
  rw [haskentry]
  change (Json.elementAt i (.array bidElements) >>= _) = _
  rw [Json.elementAt_array hbid]
  change (readOrderBookEntry c .bid _ >>= _) = _
  rw [hbidentry]
  rfl

/-- What the turns of a loop read of the places of a list. -/
private theorem map_eq_take {α β : Type} {rows : List β} {part : β → α} {entries : List α} {n : ℕ}
    (h : rows.map (fun row => some (part row)) = (List.range n).map (entries[·]?)) :
    rows.map part = entries.take n := by
  have hsome : (rows.map fun row => some (part row)).filterMap id = rows.map part := by
    rw [List.filterMap_map]
    exact congrFun List.filterMap_eq_map rows
  rw [← hsome, h, List.filterMap_map]
  exact filterMap_range_getElem? entries n

/-- Rows that are read for all places of a list, each with the entry at its place. -/
private theorem map_part_eq {α β : Type} {read : ℕ → Except Fault β} {rows : List β} {part : β → α}
    {entries : List α} {n : ℕ} (hn : entries.length = n) (hrows : (List.range n).mapM read = .ok rows)
    (hpart : ∀ i < n, ∃ row, read i = .ok row ∧ some (part row) = entries[i]?) :
    rows.map part = entries := by
  rw [map_eq_take (map_eq_of_mapM_eq_ok hrows fun i hi row hread => ?_),
    List.take_of_length_le hn.le]
  obtain ⟨row', hread', hentry⟩ := hpart i (List.mem_range.mp hi)
  rw [← hentry, Except.ok.inj (hread.symm.trans hread')]

/-- With as many bids as asks, the loop of Kraken's reader comes to its end with all of them. -/
theorem Kraken.exists_rows {askElements bidElements : List Json}
    (hasklevels : List.Forall₂ (TimedLevel c) asks askElements)
    (hbidlevels : List.Forall₂ (TimedLevel c) bids bidElements)
    (hlength : asks.length = bids.length) :
    ∃ rows, (List.range askElements.length).mapM
        (readOrderBookRow c (.array askElements) (.array bidElements)) = .ok rows ∧
      rows.map (·.1) = bookEntriesOf .ask asks ∧ rows.map (·.2.1) = bookEntriesOf .bid bids := by
  have hrow : ∀ i < askElements.length, ∃ row,
      readOrderBookRow c (.array askElements) (.array bidElements) i = .ok row ∧
        some row.1 = (bookEntriesOf .ask asks)[i]? ∧
        some row.2.1 = (bookEntriesOf .bid bids)[i]? := by
    intro i hiasks
    have hibids : i < bidElements.length := by
      rw [← hbidlevels.length_eq, ← hlength, hasklevels.length_eq]
      exact hiasks
    obtain ⟨time, hrow⟩ := readOrderBookRow_eq (List.getElem?_eq_getElem hiasks)
      (List.getElem?_eq_getElem hibids)
      (hasklevels.get (hasklevels.length_eq ▸ hiasks) hiasks)
      (hbidlevels.get (hbidlevels.length_eq ▸ hibids) hibids)
    refine ⟨_, hrow, ?_, ?_⟩
    · rw [bookEntriesOf_getElem?, List.getElem?_eq_getElem (hasklevels.length_eq ▸ hiasks)]
      rfl
    · rw [bookEntriesOf_getElem?, List.getElem?_eq_getElem (hbidlevels.length_eq ▸ hibids)]
      rfl
  obtain ⟨rows, hrows⟩ := exists_mapM_eq_ok fun i hi =>
    (hrow i (List.mem_range.mp hi)).imp fun _ => And.left
  refine ⟨rows, hrows, map_part_eq ?_ hrows fun i hi => ?_, map_part_eq ?_ hrows fun i hi => ?_⟩
  · rw [length_bookEntriesOf, hasklevels.length_eq]
  · exact (hrow i hi).imp fun _ h => ⟨h.1, h.2.1⟩
  · rw [length_bookEntriesOf, ← hlength, hasklevels.length_eq]
  · exact (hrow i hi).imp fun _ h => ⟨h.1, h.2.2⟩

/-- The reader of Kraken returns a book that has as many bids as asks, and cuts off or misses the end
of any other. -/
theorem Kraken.readOrderBook_eq_iff (h : Exchange.kraken.Encodes c asks bids json) :
    (∃ time, Kraken.readOrderBook c (.ok json) =
      .ok (.ok ⟨time, bookEntriesOf .ask asks, bookEntriesOf .bid bids⟩)) ↔
      asks.length = bids.length := by
  obtain ⟨herror, name, book, rest, hresult, askElements, bidElements, hasks, hasklevels, hbids,
    hbidlevels⟩ := h
  have hread (state : OrderBookState) : Kraken.readOrderBook c (.ok json) = .ok (.ok state) ↔
      ((List.range askElements.length).mapM
        (readOrderBookRow c (.array askElements) (.array bidElements)) >>= fun rows =>
          .ok ⟨(rows.map (·.2.2)).foldl max 0, rows.map (·.1), rows.map (·.2.1)⟩) = .ok state := by
    rw [Kraken.readOrderBook, readResult_return herror hresult]
    change (book.element "asks" >>= _) = _ ↔ _
    rw [Json.element_of_member hasks]
    change (book.element "bids" >>= _) = _ ↔ _
    rw [Json.element_of_member hbids]
    rfl
  simp only [hread]
  constructor
  · rintro ⟨time, hstate⟩
    obtain ⟨rows, hrows, hsides⟩ := exists_of_bind_eq_ok hstate
    have hbidside := congrArg (fun state => state.bids.length) (Except.ok.inj hsides)
    rw [List.length_map, length_bookEntriesOf] at hbidside
    rw [← hbidside, ← (mapM_eq_ok_iff.mp hrows).length_eq, List.length_range, hasklevels.length_eq]
  · intro hlength
    obtain ⟨rows, hrows, hask, hbid⟩ := exists_rows hasklevels hbidlevels hlength
    refine ⟨(rows.map (·.2.2)).foldl max 0, ?_⟩
    rw [hrows, ← hask, ← hbid]
    rfl

/-- Which books a reader returns as they are. -/
theorem Exchange.readOrderBook_iff (exchange : Exchange) (depth : ℤ)
    (h : exchange.Encodes c asks bids json)
    (hdepth : exchange = .coinbase → max asks.length bids.length ≤ depth) :
    (∃ time, exchange.readOrderBook c depth (.ok json) =
      .ok (.ok ⟨time, bookEntriesOf .ask asks, bookEntriesOf .bid bids⟩)) ↔
      exchange.ReadsWhole asks bids := by
  cases exchange with
  | kraken => exact Kraken.readOrderBook_eq_iff h
  | coinbase =>
    obtain ⟨sequence, hread⟩ := Coinbase.readOrderBook_eq h (hdepth rfl)
    change (∃ time, Coinbase.readOrderBook c depth (.ok json) = _) ↔ asks = [] ∧ bids = []
    rw [hread, ← bookEntriesOf_eq_iff (by decide : OrderBookSide.bid ≠ .ask),
      ← bookEntriesOf_eq_iff (by decide : OrderBookSide.ask ≠ .bid)]
    constructor
    · rintro ⟨time, heq⟩
      have hstate := Except.ok.inj (Except.ok.inj heq)
      exact ⟨congrArg OrderBookState.asks hstate, congrArg OrderBookState.bids hstate⟩
    · rintro ⟨hasks, hbids⟩
      exact ⟨sequence, by rw [hasks, hbids]⟩
  | binance => exact iff_of_true (Binance.readOrderBook_eq h) trivial
  | bybit => exact iff_of_true (Bybit.readOrderBook_eq h) trivial
  | digifinex => exact iff_of_true (Digifinex.readOrderBook_eq h) trivial

/-- A level with the price two and the volume one. -/
def levelOfTexts : Json := .array [.string "2", .string "1", .integer 7]

/-- A book of one level on each side. -/
theorem readOrderBook_kraken :
    ∃ time, Exchange.kraken.readOrderBook .ofNumerals 0
        (.ok (.object [("error", .array []), ("result", .object [("pair",
          .object [("asks", .array [levelOfTexts]), ("bids", .array [levelOfTexts])])])])) =
      .ok (.ok ⟨time, bookEntriesOf .ask [(2, 1)], bookEntriesOf .bid [(2, 1)]⟩) :=
  have hlevel : TimedLevel .ofNumerals (2, 1) levelOfTexts := ⟨"2", "1", 7, [], rfl, rfl, rfl⟩
  (Exchange.readOrderBook_iff .kraken 0
    ⟨rfl, "pair", _, [], rfl, [levelOfTexts], [levelOfTexts], rfl, .cons hlevel .nil, rfl,
      .cons hlevel .nil⟩
    (fun h => by cases h)).mpr rfl

/-- The reader of Coinbase gives an ask the side of a bid, and that of Kraken looks for a bid beside
every ask. -/
theorem readOrderBook_not_whole :
    (Exchange.coinbase.Encodes .ofNumerals [(2, 1)] [] (.object
        [("asks", .array [levelOfTexts]), ("bids", .array []), ("sequence", .integer 7)]) ∧
      ¬ ∃ time, Exchange.coinbase.readOrderBook .ofNumerals 1 (.ok (.object
        [("asks", .array [levelOfTexts]), ("bids", .array []), ("sequence", .integer 7)])) =
        .ok (.ok ⟨time, bookEntriesOf .ask [(2, 1)], bookEntriesOf .bid []⟩)) ∧
    (Exchange.kraken.Encodes .ofNumerals [(2, 1)] [] (.object
        [("error", .array []), ("result", .object [("pair",
          .object [("asks", .array [levelOfTexts]), ("bids", .array [])])])]) ∧
      Exchange.kraken.readOrderBook .ofNumerals 1 (.ok (.object
        [("error", .array []), ("result", .object [("pair",
          .object [("asks", .array [levelOfTexts]), ("bids", .array [])])])])) =
        .error .undefined) := by
  refine ⟨⟨⟨rfl, ⟨[levelOfTexts], [], rfl, .cons ⟨"2", "1", [.integer 7], rfl, rfl, rfl⟩ .nil, rfl,
    .nil⟩, 7, rfl⟩, ?_⟩, ⟨rfl, "pair", _, [], rfl, [levelOfTexts], [], rfl,
      .cons ⟨"2", "1", 7, [], rfl, rfl, rfl⟩ .nil, rfl, .nil⟩, rfl⟩
  rintro ⟨time, h⟩
  change Except.ok (Except.ok (OrderBookState.mk 7 (bookEntriesOf .bid [(2, 1)]) [])) = _ at h
  have hasks : bookEntriesOf .bid [(2, 1)] = bookEntriesOf .ask [(2, 1)] :=
    congrArg OrderBookState.asks (Except.ok.inj (Except.ok.inj h))
  exact absurd hasks (by decide)

end MarketBlocks
