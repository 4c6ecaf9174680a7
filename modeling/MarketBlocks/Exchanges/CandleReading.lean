import MarketBlocks.Exchanges.CoinbaseResults
import MarketBlocks.Exchanges.DigifinexResults
import MarketBlocks.Exchanges.KrakenResults

/-!
# Reading candles

The answers in which the exchanges list candles, and which of them a reader that is given a number
returns. The readers of Kraken and Coinbase return the newest ones. The one of Digifinex goes through
a list that begins with the oldest candle from its beginning, and returns the oldest ones.
-/

namespace MarketBlocks

open Library

/-- The exchanges whose candles are read up to a number. -/
inductive CandleReader where
  | kraken
  | coinbase
  | digifinex
  deriving DecidableEq, Repr

/-- A series has one candle for each of its times. -/
structure CandleSeries where
  newestFirst : List OhlcvData
  descending : newestFirst.Pairwise fun newer older => older.timeStamp < newer.timeStamp
  /-- The times are values of `std::time_t`. -/
  representable : ∀ candle ∈ newestFirst, -2 ^ 63 ≤ candle.timeStamp ∧ candle.timeStamp < 2 ^ 63

/-- The most recent candles, up to a number of them. -/
def CandleSeries.latest (series : CandleSeries) (count : ℤ) : List OhlcvData :=
  series.newestFirst.take count.toNat

/-! ## Answers -/

/-- A candle of Kraken has an average price before the volume. -/
def Kraken.IsCandle (c : Conversions) (candle : OhlcvData) (element : Json) : Prop :=
  ∃ «open» high low close average volume rest,
    element = .array (.integer candle.timeStamp :: .string «open» :: .string high :: .string low ::
      .string close :: .string average :: .string volume :: rest) ∧
    c.stod «open» = some candle.open ∧ c.stod high = some candle.high ∧
    c.stod low = some candle.low ∧ c.stod close = some candle.close ∧
    c.stod volume = some candle.volume

/-- A candle in Coinbase's columns. -/
def Coinbase.IsCandle (candle : OhlcvData) (element : Json) : Prop :=
  ∃ low high «open» close volume rest,
    element = .array (.integer candle.timeStamp :: low :: high :: «open» :: close :: volume :: rest) ∧
    low.asDouble = .ok candle.low ∧ high.asDouble = .ok candle.high ∧
    Json.asDouble «open» = .ok candle.open ∧ close.asDouble = .ok candle.close ∧
    volume.asDouble = .ok candle.volume

/-- A candle in Digifinex's columns. -/
def Digifinex.IsCandle (candle : OhlcvData) (element : Json) : Prop :=
  ∃ volume close high low «open» rest,
    element = .array (.integer candle.timeStamp :: volume :: close :: high :: low :: «open» :: rest) ∧
    volume.asDouble = .ok candle.volume ∧ close.asDouble = .ok candle.close ∧
    high.asDouble = .ok candle.high ∧ low.asDouble = .ok candle.low ∧
    Json.asDouble «open» = .ok candle.open

/-- The answer of an exchange that has a series. Coinbase begins with the newest candle. -/
def CandleReader.Encodes (c : Conversions) (series : CandleSeries) (json : Json) :
    CandleReader → Prop
  | .kraken => json.member "error" = some (.array []) ∧ ∃ name elements rest,
      json.member "result" = some (.object ((name, .array elements) :: rest)) ∧
        List.Forall₂ (Kraken.IsCandle c) series.newestFirst.reverse elements
  | .coinbase => ∃ elements, json = .array elements ∧
      List.Forall₂ Coinbase.IsCandle series.newestFirst elements
  | .digifinex => json.member "code" = some (.integer 0) ∧ ∃ elements,
      json.member "data" = some (.array elements) ∧
        List.Forall₂ Digifinex.IsCandle series.newestFirst.reverse elements

/-- `read_ohlcv_data` of an exchange. -/
def CandleReader.readOhlcvData (c : Conversions) (count : ℤ) :
    CandleReader → Answer → Except Fault (Result (List OhlcvData))
  | .kraken => Kraken.readOhlcvData c count
  | .coinbase => Coinbase.readOhlcvData count
  | .digifinex => Digifinex.readOhlcvData count

/-- When the reader of an exchange returns the most recent candles. -/
def CandleReader.ReadsLatest (count : ℤ) (series : CandleSeries) : CandleReader → Prop
  | .kraken | .coinbase => True
  | .digifinex => count = 0 ∨ series.newestFirst.length ≤ count

/-! ## Candles -/

variable {c : Conversions} {candle : OhlcvData} {element json : Json} {series : CandleSeries}
  {count : ℤ}

/-- The time of a candle is a machine integer. -/
theorem asTime_timeStamp (h : -2 ^ 63 ≤ candle.timeStamp ∧ candle.timeStamp < 2 ^ 63) :
    (Json.integer candle.timeStamp).asTime = .ok candle.timeStamp := by
  rw [Json.asTime, Int.bmod_eq_of_le] <;> omega

/-- Kraken's reader of a candle. -/
theorem Kraken.readOhlcvElement_eq (h : IsCandle c candle element)
    (htime : -2 ^ 63 ≤ candle.timeStamp ∧ candle.timeStamp < 2 ^ 63) :
    readOhlcvElement c element = .ok candle := by
  obtain ⟨«open», high, low, close, average, volume, rest, rfl, hopen, hhigh, hlow, hclose,
    hvolume⟩ := h
  have htimes := asTime_timeStamp htime
  have hopens := Json.asNumeral_string hopen
  have hhighs := Json.asNumeral_string hhigh
  have hlows := Json.asNumeral_string hlow
  have hcloses := Json.asNumeral_string hclose
  have hvolumes := Json.asNumeral_string hvolume
  rw [readOhlcvElement]
  change (arguments (Json.asTime (.integer candle.timeStamp))
    (arguments (Json.asNumeral c (.string «open»)) (arguments (Json.asNumeral c (.string high))
      (arguments (Json.asNumeral c (.string low)) (arguments (Json.asNumeral c (.string close))
        (Json.asNumeral c (.string volume)))))) >>= _) = _
  rw [htimes, hopens, hhighs, hlows, hcloses, hvolumes]
  rfl

/-- Coinbase's reader of a candle. -/
theorem Coinbase.readOhlcvElement_eq (h : IsCandle candle element)
    (htime : -2 ^ 63 ≤ candle.timeStamp ∧ candle.timeStamp < 2 ^ 63) :
    readOhlcvElement element = .ok candle := by
  obtain ⟨low, high, «open», close, volume, rest, rfl, hlow, hhigh, hopen, hclose, hvolume⟩ := h
  have htimes := asTime_timeStamp htime
  rw [readOhlcvElement]
  change (arguments (Json.asTime (.integer candle.timeStamp)) (arguments (Json.asDouble «open»)
    (arguments high.asDouble (arguments low.asDouble (arguments close.asDouble volume.asDouble)))) >>= _) = _
  rw [htimes, hopen, hhigh, hlow, hclose, hvolume]
  rfl

/-- Digifinex's reader of a candle. -/
theorem Digifinex.readOhlcvElement_eq (h : IsCandle candle element)
    (htime : -2 ^ 63 ≤ candle.timeStamp ∧ candle.timeStamp < 2 ^ 63) :
    readOhlcvElement element = .ok candle := by
  obtain ⟨volume, close, high, low, «open», rest, rfl, hvolume, hclose, hhigh, hlow, hopen⟩ := h
  have htimes := asTime_timeStamp htime
  rw [readOhlcvElement]
  change (arguments (Json.asTime (.integer candle.timeStamp)) (arguments (Json.asDouble «open»)
    (arguments high.asDouble (arguments low.asDouble (arguments close.asDouble volume.asDouble)))) >>= _) = _
  rw [htimes, hopen, hhigh, hlow, hclose, hvolume]
  rfl

/-! ## Series -/

/-- The element that lists an entry of a series. -/
theorem exists_getElem?_of_forall₂ {Lists : OhlcvData → Json → Prop} {candles : List OhlcvData}
    {elements : List Json} (h : List.Forall₂ Lists candles elements) {i : ℕ}
    (hcandle : candles[i]? = some candle) :
    ∃ element, elements[i]? = some element ∧ Lists candle element := by
  induction h generalizing i with
  | nil => cases hcandle
  | cons hfirst _ ih =>
    cases i with
    | zero =>
      cases hcandle
      exact ⟨_, rfl, hfirst⟩
    | succ i => exact ih hcandle

/-- The times of a series are machine integers. -/
theorem CandleSeries.representable_of_getElem? {i : ℕ}
    (h : series.newestFirst[i]? = some candle) :
    -2 ^ 63 ≤ candle.timeStamp ∧ candle.timeStamp < 2 ^ 63 :=
  series.representable candle (List.mem_of_getElem? h)

/-- A limit is the number of candles that are asked for, or that of those there are. -/
theorem CandleSeries.take_limit :
    series.newestFirst.take (min (series.newestFirst.length : ℤ) count).toNat =
      series.latest count := by
  rw [CandleSeries.latest, List.take_eq_take_iff]
  omega

/-- There is space for a number of candles that is not negative. -/
theorem reserve_limit {size : ℕ} (hcount : 0 ≤ count) : reserve (min (size : ℤ) count) = .ok () :=
  if_neg (by omega)

/-- Kraken's reader begins at the end of a list that begins with the oldest candle. -/
theorem Kraken.readOhlcvData_eq (h : CandleReader.kraken.Encodes c series json)
    (hcount : 0 ≤ count) :
    readOhlcvData c count (.ok json) = .ok (.ok (series.latest count)) := by
  obtain ⟨herror, name, elements, rest, hresult, helements⟩ := h
  have hlength : elements.length = series.newestFirst.length := by
    rw [← helements.length_eq, List.length_reverse]
  rw [readOhlcvData, readResult_return herror hresult, ← CandleSeries.take_limit]
  change (reserve (min (elements.length : ℤ) count) >>= _) = _
  rw [reserve_limit hcount, ← hlength]
  have hlimit : (min (elements.length : ℤ) count).toNat ≤ series.newestFirst.length := by omega
  apply mapM_range_eq_take hlimit
  intro i candle hcandle
  have hi : i < series.newestFirst.length := (List.getElem?_eq_some_iff.mp hcandle).1
  have hlast : series.newestFirst.reverse[series.newestFirst.length - 1 - i]? = some candle := by
    rw [List.getElem?_reverse (by omega), ← hcandle]
    congr 1
    omega
  obtain ⟨element, helement, hlists⟩ := exists_getElem?_of_forall₂ helements hlast
  have hindex : (elements.length : ℤ) - i - 1 = ((series.newestFirst.length - 1 - i : ℕ) : ℤ) := by
    omega
  change (Json.elementAt ((elements.length : ℤ) - i - 1) (.array elements) >>= _) = _
  rw [hindex, Json.elementAt_array helement]
  exact readOhlcvElement_eq hlists (series.representable_of_getElem? hcandle)

/-- Coinbase lists the newest candles first, so that the first ones are the latest. -/
theorem Coinbase.readOhlcvData_eq (h : CandleReader.coinbase.Encodes c series json)
    (hcount : 0 ≤ count) :
    readOhlcvData count (.ok json) = .ok (.ok (series.latest count)) := by
  obtain ⟨elements, rfl, helements⟩ := h
  rw [readOhlcvData, readResult_return rfl, ← CandleSeries.take_limit]
  change (reserve (min (elements.length : ℤ) count) >>= _) = _
  rw [reserve_limit hcount, helements.length_eq]
  have hlimit : (min (elements.length : ℤ) count).toNat ≤ series.newestFirst.length := by
    rw [helements.length_eq]
    omega
  apply mapM_range_eq_take hlimit
  intro i candle hcandle
  obtain ⟨element, helement, hlists⟩ := exists_getElem?_of_forall₂ helements hcandle
  rw [Json.elementAt_array helement]
  exact readOhlcvElement_eq hlists (series.representable_of_getElem? hcandle)

/-- Digifinex' reader returns the oldest candles. -/
theorem Digifinex.readOhlcvData_eq (h : CandleReader.digifinex.Encodes c series json)
    (hcount : 0 ≤ count) :
    readOhlcvData count (.ok json) =
      .ok (.ok (series.newestFirst.drop (series.newestFirst.length - count.toNat))) := by
  obtain ⟨hcode, elements, hdata, helements⟩ := h
  have hlength : elements.length = series.newestFirst.length := by
    rw [← helements.length_eq, List.length_reverse]
  have hread : (List.range (min (elements.length : ℤ) count).toNat).mapM (fun i : ℕ => do
      let ohlcvElement ← (Json.array elements).elementAt i
      readOhlcvElement ohlcvElement) =
        .ok (series.newestFirst.reverse.take (min (elements.length : ℤ) count).toNat) := by
    apply mapM_range_eq_take (by rw [List.length_reverse]; omega)
    intro i candle hcandle
    obtain ⟨element, helement, hlists⟩ := exists_getElem?_of_forall₂ helements hcandle
    rw [Json.elementAt_array helement]
    exact readOhlcvElement_eq hlists
      (series.representable candle (List.mem_reverse.mp (List.mem_of_getElem? hcandle)))
  rw [readOhlcvData, readResult_return hcode, Json.element_of_member hdata]
  change (reserve (min (elements.length : ℤ) count) >>= fun _ => _) = _
  rw [reserve_limit hcount]
  change (List.mapM (m := Except Fault) _ (List.range (min (elements.length : ℤ) count).toNat) >>=
    fun data => .ok data.reverse) = _
  rw [hread]
  change Except.ok _ = _
  rw [List.reverse_take, List.reverse_reverse, List.length_reverse, hlength]
  congr 2
  omega

/-- The oldest candles are the newest ones when there are none, or these are all. -/
theorem CandleSeries.drop_eq_latest_iff (hcount : 0 ≤ count) :
    series.newestFirst.drop (series.newestFirst.length - count.toNat) = series.latest count ↔
      count = 0 ∨ series.newestFirst.length ≤ count := by
  constructor
  · intro heq
    by_contra hnot
    rw [not_or, not_le] at hnot
    have hfirst := congrArg (·[0]?) heq
    have hskipped : series.newestFirst.length - count.toNat < series.newestFirst.length := by omega
    rw [CandleSeries.latest, List.getElem?_drop, List.getElem?_take_of_lt (by omega), Nat.add_zero,
      List.getElem?_eq_getElem hskipped, List.getElem?_eq_getElem (by omega)] at hfirst
    have holder := List.pairwise_iff_getElem.mp series.descending 0
      (series.newestFirst.length - count.toNat) (by omega) hskipped (by omega)
    rw [Option.some.inj hfirst] at holder
    exact lt_irrefl _ holder
  · rintro (rfl | hle)
    · rw [CandleSeries.latest, Int.toNat_zero, Nat.sub_zero, List.drop_length, List.take_zero]
    · rw [CandleSeries.latest, Nat.sub_eq_zero_of_le (by omega), List.drop_zero,
        List.take_of_length_le (by omega)]

/-- When a reader returns the most recent candles of a series. -/
theorem CandleReader.readOhlcvData_iff (reader : CandleReader)
    (h : reader.Encodes c series json) (hcount : 0 ≤ count) :
    reader.readOhlcvData c count (.ok json) = .ok (.ok (series.latest count)) ↔
      reader.ReadsLatest count series := by
  cases reader with
  | kraken => exact iff_of_true (Kraken.readOhlcvData_eq h hcount) trivial
  | coinbase => exact iff_of_true (Coinbase.readOhlcvData_eq h hcount) trivial
  | digifinex =>
    change Digifinex.readOhlcvData count (.ok json) = _ ↔ count = 0 ∨ _
    rw [Digifinex.readOhlcvData_eq h hcount, Except.ok.injEq, Except.ok.injEq]
    exact series.drop_eq_latest_iff hcount

/-- A candle whose prices and volume are its time. -/
def flatCandle (time : ℕ) : OhlcvData := ⟨time, time, time, time, time, time⟩

/-- A series of two candles. -/
def twoCandles : CandleSeries where
  newestFirst := [flatCandle 2, flatCandle 1]
  descending := by decide
  representable := by decide

/-- The listing of a flat candle by Coinbase and Digifinex. -/
def listedFlat (time : ℕ) : Json :=
  .array [.integer time, .integer time, .integer time, .integer time, .integer time, .integer time]

/-- The listed candle in Coinbase's columns. -/
private theorem listedFlat_coinbase (time : ℕ) : Coinbase.IsCandle (flatCandle time) (listedFlat time) :=
  ⟨_, _, _, _, _, [], rfl, rfl, rfl, rfl, rfl, rfl⟩

/-- The listed candle in Digifinex's columns. -/
private theorem listedFlat_digifinex (time : ℕ) :
    Digifinex.IsCandle (flatCandle time) (listedFlat time) :=
  ⟨_, _, _, _, _, [], rfl, rfl, rfl, rfl, rfl, rfl⟩

/-- The later one of two candles. -/
theorem readOhlcvData_coinbase :
    CandleReader.coinbase.readOhlcvData .ofNumerals 1 (.ok (.array [listedFlat 2, listedFlat 1])) =
      .ok (.ok (twoCandles.latest 1)) :=
  (CandleReader.readOhlcvData_iff .coinbase
    ⟨_, rfl, .cons (listedFlat_coinbase 2) (.cons (listedFlat_coinbase 1) .nil)⟩ (by decide)).mpr
    trivial

/-- Asked for one of two candles, Digifinex' reader returns the older one. -/
theorem digifinex_readOhlcvData_oldest :
    CandleReader.digifinex.Encodes .ofNumerals twoCandles (.object
        [("code", .integer 0), ("data", .array [listedFlat 1, listedFlat 2])]) ∧
      CandleReader.digifinex.readOhlcvData .ofNumerals 1 (.ok (.object
        [("code", .integer 0), ("data", .array [listedFlat 1, listedFlat 2])])) =
          .ok (.ok [flatCandle 1]) ∧
      [flatCandle 1] ≠ twoCandles.latest 1 :=
  ⟨⟨rfl, _, rfl, .cons (listedFlat_digifinex 1) (.cons (listedFlat_digifinex 2) .nil)⟩, rfl,
    by decide⟩

end MarketBlocks
