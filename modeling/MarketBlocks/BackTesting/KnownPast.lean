import MarketBlocks.BackTesting.BackTestMarketApi
import MarketBlocks.BackTesting.TradeLookAhead

/-!
# What a moment shows of a series

The candles and the order book of a moment are read off the candles up to it. The trade also tells
whether the series goes on, by its price. Two series that have the same candles up to a moment and
both go on, or have both ended, show the same at that moment and at every earlier one.
-/

namespace MarketBlocks

open Library

namespace BackTestingData

variable {past future data data' : List OhlcvData} {time moment : ℤ}

/-! ## The candle in force -/

/-- Rows behind the time are not in force. -/
theorem inForce_append (hfuture : ∀ candle ∈ future, time < candle.timeStamp) :
    inForce time (past ++ future) = inForce time past := by
  have hcount : candlesBefore time (past ++ future) = candlesBefore time past :=
    countBelow_append_of_le fun candle hmem => (hfuture candle hmem).le
  have hle : candlesBefore time past ≤ past.length := countBelow_le_length
  have hnow : ((past ++ future)[candlesBefore time past]?).map OhlcvData.timeStamp = some time ↔
      (past[candlesBefore time past]?).map OhlcvData.timeStamp = some time := by
    rcases hle.lt_or_eq with hlt | heq
    · rw [List.getElem?_append_left hlt]
    · -- all known candles are before the moment, and the next one is after it
      rw [heq, List.getElem?_append_right le_rfl, Nat.sub_self, List.getElem?_eq_none le_rfl]
      cases future with
      | nil => rfl
      | cons next rest =>
        have hnext : next.timeStamp ≠ time := (hfuture next List.mem_cons_self).ne'
        simp [hnext]
  rw [inForce, inForce, hcount]
  simp only [hnow]

/-- The lookup finds one of the known candles, if there are any, whatever follows them. -/
theorem freshIterator_append (hsorted : (past ++ future).Pairwise (·.timeStamp ≤ ·.timeStamp))
    (hpast : ∀ candle ∈ past, candle.timeStamp ≤ time)
    (hfuture : ∀ candle ∈ future, time < candle.timeStamp) :
    freshIterator (past ++ future) time = if past = [] then none else some (inForce time past) := by
  cases past with
  | nil => exact freshIterator_of_future hfuture
  | cons front rest =>
    rw [if_neg (List.cons_ne_nil _ _), ← inForce_append hfuture]
    exact freshIterator_of_head_le hsorted rfl (hpast front List.mem_cons_self)

/-! ## Replies -/

/-- A reply that reads the known candles only. -/
def ReadsPast {α : Type} (answer : List OhlcvData → Option ℕ → ℤ → α) : Prop :=
  (∀ data data' time, answer data none time = answer data' none time) ∧
    ∀ past future index time, index < past.length →
      answer (past ++ future) (some index) time = answer past (some index) time

/-- Candles are read off the past. -/
theorem ohlcvFrom_readsPast (interval count : ℤ) :
    ReadsPast fun data iterator time => ohlcvFrom data iterator time interval count := by
  have hnone : ∀ (data : List OhlcvData) (time : ℤ),
      ohlcvFrom data none time interval count = .ok [] := by
    intro data time
    cases data <;> rfl
  constructor
  · intro data data' time
    exact (hnone data time).trans (hnone data' time).symm
  · intro past future index time hindex
    obtain ⟨front, rest, rfl⟩ := List.exists_cons_of_length_pos (Nat.zero_lt_of_lt hindex)
    have hread : ∀ remaining, ohlcvLoop (front :: rest ++ future) front.timeStamp interval remaining
        time index [] = ohlcvLoop (front :: rest) front.timeStamp interval remaining time index [] := by
      intro remaining
      rw [← ohlcvLoop_take hindex, List.take_left]
    simp only [ohlcvFrom, List.cons_append, List.head?_cons]
    rw [← List.cons_append, hread]

/-- Books are read off the past. -/
theorem orderBookFrom_readsPast : ReadsPast fun data iterator _ => orderBookFrom data iterator := by
  refine ⟨fun _ _ _ => rfl, fun past future index time hindex => ?_⟩
  simp only [orderBookFrom, List.getElem?_append_left hindex]

/-! ## Series with a common past -/

/-- Two series that cannot be told apart until `moment`. -/
structure KnownAlike (data data' : List OhlcvData) (moment : ℤ) : Prop where
  sorted : data.Pairwise (·.timeStamp ≤ ·.timeStamp)
  sorted' : data'.Pairwise (·.timeStamp ≤ ·.timeStamp)
  past : data.filter (·.timeStamp ≤ moment) = data'.filter (·.timeStamp ≤ moment)
  continues : Continues data moment ↔ Continues data' moment

/-- A sorted series is the candles up to a moment, followed by those after it. -/
theorem past_append_future (hsorted : data.Pairwise (·.timeStamp ≤ ·.timeStamp)) (time : ℤ) :
    data.filter (·.timeStamp ≤ time) ++ data.filter (time < ·.timeStamp) = data := by
  have hnot : (fun candle : OhlcvData => !decide (candle.timeStamp ≤ time)) =
      fun candle => decide (time < candle.timeStamp) := by
    funext candle
    rw [← decide_not, decide_eq_decide, not_le]
  have hsplit := filter_append_filter_not (p := fun candle : OhlcvData => decide (candle.timeStamp ≤ time))
    (hsorted.imp fun hle hlate => by simpa using hle.trans (by simpa using hlate))
  rwa [hnot] at hsplit

namespace KnownAlike

/-- The earlier of two moments counts. -/
private theorem filter_earlier (hle : time ≤ moment) (data : List OhlcvData) :
    (data.filter (·.timeStamp ≤ moment)).filter (·.timeStamp ≤ time) =
      data.filter (·.timeStamp ≤ time) := by
  rw [List.filter_filter]
  apply List.filter_congr
  intro candle _
  rw [← Bool.decide_and, decide_eq_decide]
  omega

/-- A series goes on after an earlier moment by a candle up to the moment or by one after it. -/
private theorem continues_earlier (hle : time ≤ moment) (data : List OhlcvData) :
    Continues data time ↔
      Continues (data.filter (·.timeStamp ≤ moment)) time ∨ Continues data moment := by
  constructor
  · rintro ⟨candle, hmem, hlt⟩
    rcases le_or_gt candle.timeStamp moment with hknown | hlater
    · exact .inl ⟨candle, List.mem_filter.mpr ⟨hmem, by simpa using hknown⟩, hlt⟩
    · exact .inr ⟨candle, hmem, hlater⟩
  · rintro (⟨candle, hmem, hlt⟩ | ⟨candle, hmem, hlater⟩)
    · exact ⟨candle, (List.mem_filter.mp hmem).1, hlt⟩
    · exact ⟨candle, hmem, by omega⟩

/-- Data that are known alike up to a moment are so up to every earlier one. -/
theorem earlier (h : KnownAlike data data' moment) (hle : time ≤ moment) :
    KnownAlike data data' time where
  sorted := h.sorted
  sorted' := h.sorted'
  past := by rw [← filter_earlier hle, h.past, filter_earlier hle]
  continues := by
    rw [continues_earlier hle data, continues_earlier hle data', h.past, h.continues]

/-- What is read off the candles up to the moment is the same on both series. -/
theorem fresh_eq (h : KnownAlike data data' time) {α : Type}
    {answer : List OhlcvData → Option ℕ → ℤ → α} (hanswer : ReadsPast answer) :
    fresh answer data time = fresh answer data' time := by
  have hknown : ∀ data : List OhlcvData, data.Pairwise (·.timeStamp ≤ ·.timeStamp) →
      fresh answer data time = answer (data.filter (·.timeStamp ≤ time))
        (freshIterator (data.filter (·.timeStamp ≤ time)) time) time := by
    intro data hsorted
    have hpast : ∀ candle ∈ data.filter (·.timeStamp ≤ time), candle.timeStamp ≤ time := by
      simp
    have hfuture : ∀ candle ∈ data.filter (time < ·.timeStamp), time < candle.timeStamp := by
      simp
    have hsplit := past_append_future hsorted time
    revert hsplit hpast hfuture
    generalize data.filter (·.timeStamp ≤ time) = past, data.filter (time < ·.timeStamp) = future
    rintro hpast hfuture rfl
    have halone := @freshIterator_append past [] time
      (by rw [List.append_nil]; exact (List.pairwise_append.mp hsorted).1) hpast (by simp)
    rw [List.append_nil] at halone
    rw [fresh, freshIterator_append hsorted hpast hfuture, halone]
    split
    · exact hanswer.1 _ _ _
    · next hsome =>
      rw [if_neg hsome] at halone
      exact hanswer.2 _ _ _ _ (freshIterator_lt halone)
  rw [hknown data h.sorted, hknown data' h.sorted', h.past]

/-- The trade is the same as well, since both series go on or both have ended. -/
theorem fresh_trade (h : KnownAlike data data' time) :
    fresh tradeFrom data time = fresh tradeFrom data' time := by
  have hstanding : standing data' time = standing data time := by
    rw [← standing_filter, ← h.past, standing_filter]
  change tradeReply data time = tradeReply data' time
  rw [tradeReply_eq h.sorted, tradeReply_eq h.sorted', hstanding,
    standingTrade_congr (.inr h.continues)]

end KnownAlike

/-! ## What a moment shows -/

/-- Two series that answer every query alike at `time`. -/
structure ShownAlike (data data' : List OhlcvData) (time : ℤ) : Prop where
  trade : fresh tradeFrom data time = fresh tradeFrom data' time
  candles : ∀ interval count,
    fresh (fun data iterator time => ohlcvFrom data iterator time interval count) data time =
      fresh (fun data iterator time => ohlcvFrom data iterator time interval count) data' time
  orderBook : fresh (fun data iterator _ => orderBookFrom data iterator) data time =
    fresh (fun data iterator _ => orderBookFrom data iterator) data' time

/-- Data are shown as themselves. -/
theorem ShownAlike.refl (data : List OhlcvData) (time : ℤ) : ShownAlike data data time :=
  ⟨rfl, fun _ _ => rfl, rfl⟩

/-- Data that are shown alike have the same price. -/
theorem ShownAlike.price (h : ShownAlike data data' time) :
    fresh (fun data iterator time => (tradeFrom data iterator time).map (·.price)) data time =
      fresh (fun data iterator time => (tradeFrom data iterator time).map (·.price)) data' time :=
  congrArg (Except.map TradeUpdate.price) h.trade

/-- Series that cannot be told apart until a moment answer alike until then. -/
theorem KnownAlike.shownAlike (h : KnownAlike data data' moment) (hle : time ≤ moment) :
    ShownAlike data data' time where
  trade := (h.earlier hle).fresh_trade
  candles interval count := (h.earlier hle).fresh_eq (ohlcvFrom_readsPast interval count)
  orderBook := (h.earlier hle).fresh_eq orderBookFrom_readsPast

end BackTestingData

end MarketBlocks
