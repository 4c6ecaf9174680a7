import MarketBlocks.Trading.MovingWindow

/-!
# A moving candle with an offset

The window of a candle with an offset starts where that of the plain candle started the offset ago.
The offset is subtracted once more from the start that is reported, and from the time up to which
trades are taken.
-/

namespace MarketBlocks.MovingCandle

open Library

/-- What a candle that has been fed with the trades up to `t` reports at `t`. -/
def candleAt (interval offset : ℤ) (trades : List TradeUpdate) (t : ℤ) : Except Fault OhlcvData := do
  let candle ← (new interval offset).performAll ((tradesUpTo t trades).map .pushTrade)
  return (← candle.getOhlcv t).1

/-- The candle with an offset reports what the plain one did the offset ago. -/
def SeenLate (interval offset : ℤ) (trades : List TradeUpdate) (t : ℤ) : Prop :=
  candleAt interval offset trades t = candleAt interval 0 trades (t - offset)

instance (interval offset : ℤ) (trades : List TradeUpdate) (t : ℤ) :
    Decidable (SeenLate interval offset trades t) :=
  inferInstanceAs (Decidable (candleAt interval offset trades t =
    candleAt interval 0 trades (t - offset)))

variable {interval offset t : ℤ} {trades rest : List TradeUpdate} {oldest : TradeUpdate}

/-- Trades in order open a window at the first of them. -/
theorem performAll_pushTrades (hinterval : 0 < interval) (hoffset : 0 ≤ offset)
    (hpositive : 0 < oldest.timeStamp) (hchron : Chronological oldest.timeStamp rest) :
    ∃ candle, (new interval offset).performAll ((oldest :: rest).map .pushTrade) = .ok candle ∧
      Opened interval offset oldest.timeStamp (lastTradeTime oldest.timeStamp rest) candle := by
  induction rest using List.reverseRecOn with
  | nil =>
    obtain ⟨next, hnext, hopened⟩ := pushTrade_opens hinterval hoffset oldest
    refine ⟨next, ?_, hopened⟩
    rw [performAll, List.map_singleton, List.foldlM_cons, perform, hnext]
    rfl
  | append_singleton before trade ih =>
    obtain ⟨hbefore, hle⟩ := hchron.of_concat
    obtain ⟨candle, hcandle, hopened⟩ := ih hbefore
    obtain ⟨next, hnext, hopened'⟩ := hopened.pushTrade hpositive hle
    rw [lastTradeTime_concat]
    refine ⟨next, ?_, hopened'⟩
    rw [performAll, ← List.cons_append, List.map_append, List.map_singleton, foldlM_concat_eq_ok_iff]
    exact ⟨candle, hcandle, hnext⟩

/-- The offset lies between the start of the window and the time stamp that is reported. -/
theorem candleAt_timeStamp (hinterval : 0 < interval) (hoffset : 0 ≤ offset) (hwithin : offset ≤ interval)
    (hpositive : 0 < oldest.timeStamp) (hchron : Chronological oldest.timeStamp rest)
    (hseen : oldest.timeStamp ≤ t) :
    ∃ ohlcv, candleAt interval offset (oldest :: rest) t = .ok ohlcv ∧
      ohlcv.timeStamp = max oldest.timeStamp (t - interval - offset) - offset := by
  have hupTo : tradesUpTo t (oldest :: rest) = oldest :: tradesUpTo t rest :=
    List.filter_cons_of_pos (by simpa using hseen)
  have hchron' : Chronological oldest.timeStamp (tradesUpTo t rest) :=
    ⟨fun trade hmem => hchron.le_time trade (List.mem_filter.mp hmem).1, hchron.sorted.filter _⟩
  have hle : lastTradeTime oldest.timeStamp (tradesUpTo t rest) ≤ t := by
    unfold lastTradeTime
    cases hlast : (tradesUpTo t rest).getLast? with
    | none => exact hseen
    | some last => simpa using (List.mem_filter.mp (List.mem_of_getLast? hlast)).2
  obtain ⟨candle, hcandle, hopened⟩ := performAll_pushTrades hinterval hoffset hpositive hchron'
  obtain ⟨next, hnext, hopened'⟩ := hopened.updateValues hle
  have hquery := getOhlcv_of_updateValues hnext hopened'.updateValues_self
  have hnonempty := (hopened'.getOffsetTrades_ne_nil_iff hinterval).mpr hwithin
  rw [candleAt, hupTo, hcandle]
  simp only [bind, Except.bind, hquery, hopened'.getOhlcv_self]
  cases hoffsetTrades : next.getOffsetTrades with
  | nil => exact absurd hoffsetTrades hnonempty
  | cons front later =>
    refine ⟨_, rfl, ?_⟩
    rw [candleOf, hopened'.startTime_eq, hopened'.offset_eq]

/-- Whatever the trades, the time stamps differ by the offset. -/
theorem not_seenLate (hinterval : 0 < interval) (hoffset : 0 < offset) (hwithin : offset ≤ interval)
    (hpositive : ∀ trade ∈ trades, 0 < trade.timeStamp)
    (hsorted : trades.Pairwise fun earlier later => earlier.timeStamp ≤ later.timeStamp)
    (hseen : ∃ trade ∈ trades, trade.timeStamp ≤ t - offset) :
    ¬SeenLate interval offset trades t := by
  obtain ⟨trade, hmem, hle⟩ := hseen
  cases trades with
  | nil => simp at hmem
  | cons oldest rest =>
    obtain ⟨hfirst, hrest⟩ := List.pairwise_cons.mp hsorted
    have holdest : oldest.timeStamp ≤ t - offset := by
      rcases List.mem_cons.mp hmem with rfl | hlater
      · exact hle
      · exact (hfirst trade hlater).trans hle
    have hchron : Chronological oldest.timeStamp rest := ⟨hfirst, hrest⟩
    have hstart : 0 < oldest.timeStamp := hpositive oldest (by simp)
    obtain ⟨late, hlate, hlateTime⟩ := candleAt_timeStamp (t := t) hinterval hoffset.le hwithin hstart
      hchron (by omega)
    obtain ⟨plain, hplain, hplainTime⟩ := candleAt_timeStamp hinterval le_rfl hinterval.le hstart hchron
      holdest
    intro hsame
    rw [SeenLate, hlate, hplain, Except.ok.injEq] at hsame
    rw [hsame] at hlateTime
    omega

/-- Twenty seconds later the candle starts too early and lacks the last trade. -/
theorem candleAt_misses_trade :
    candleAt 60 20 [⟨10, 1, 2⟩, ⟨60, 3, 4⟩] 80 = .ok ⟨-10, 1, 1, 1, 1, 2⟩ ∧
      candleAt 60 0 [⟨10, 1, 2⟩, ⟨60, 3, 4⟩] (80 - 20) = .ok ⟨10, 1, 3, 1, 3, 6⟩ ∧
      ¬SeenLate 60 20 [⟨10, 1, 2⟩, ⟨60, 3, 4⟩] 80 := by
  decide +kernel

/-- A window that has moved on behind its first trade. -/
theorem not_seenLate_rolled : ¬SeenLate 60 20 [⟨10, 1, 2⟩, ⟨75, 7, 8⟩] 100 :=
  not_seenLate (by decide) (by decide) (by decide) (by decide) (by decide) ⟨⟨10, 1, 2⟩, by decide⟩

end MarketBlocks.MovingCandle
