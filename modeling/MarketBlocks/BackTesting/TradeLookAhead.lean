import MarketBlocks.BackTesting.CandleWindows

/-!
# Look-ahead of the trade query

A candle that starts after the data time belongs to the future. The trade of a series is read off
the candle in force, which is none of these: its time stamp and its volume are, and its open price
at its own time. Behind that time the price is the open price as long as a later candle follows, and
the close price at the end of the series, so that it tells whether there is a future.
-/

namespace MarketBlocks

open Library

namespace BackTestingData

/-- What `get_trade` replies without a cache. -/
def tradeReply (data : List OhlcvData) (time : ℤ) : Except Fault TradeUpdate :=
  tradeFrom data (freshIterator data time) time

/-- A reachable state replies what a fresh scan of its series replies. -/
theorem Reachable.getTrade_fst {d : BackTestingData} (h : d.Reachable) (pair : TradablePair) :
    (getTrade pair d).1 = tradeReply (d.series pair) d.dataTime := by
  rw [getTrade_eq_query, (query_spec _ h.cacheBounded pair).1]
  rfl

/-! ## The candle in force -/

/-- The first candle at the data time, else the last one before it. -/
def standing (data : List OhlcvData) (time : ℤ) : Option OhlcvData :=
  (data.filter (·.timeStamp = time)).head?.or (data.filter (·.timeStamp < time)).getLast?

/-- A series that goes on after the data time. -/
def Continues (data : List OhlcvData) (time : ℤ) : Prop := ∃ candle ∈ data, time < candle.timeStamp

instance (data : List OhlcvData) (time : ℤ) : Decidable (Continues data time) :=
  inferInstanceAs (Decidable (∃ candle ∈ data, time < candle.timeStamp))

/-- The trade of the candle in force. -/
def standingTrade (continues : Prop) [Decidable continues] (time : ℤ) : Option OhlcvData → TradeUpdate
  | none => {}
  | some candle =>
    { timeStamp := candle.timeStamp
      price := if candle.timeStamp < time ∧ ¬continues then candle.close else candle.open
      volume := candle.volume }

variable {data data' before now after : List OhlcvData} {time : ℤ}

/-- The candle in force is chosen among the candles up to the data time. -/
theorem standing_filter : standing (data.filter (·.timeStamp ≤ time)) time = standing data time := by
  have hnow : (data.filter (·.timeStamp ≤ time)).filter (·.timeStamp = time) =
      data.filter (·.timeStamp = time) := by
    rw [List.filter_filter]
    apply List.filter_congr
    intro candle _
    rw [← Bool.decide_and, decide_eq_decide]
    exact ⟨And.left, fun h => ⟨h, h.le⟩⟩
  have hbefore : (data.filter (·.timeStamp ≤ time)).filter (·.timeStamp < time) =
      data.filter (·.timeStamp < time) := by
    rw [List.filter_filter]
    apply List.filter_congr
    intro candle _
    rw [← Bool.decide_and, decide_eq_decide]
    exact ⟨And.left, fun h => ⟨h, h.le⟩⟩
  rw [standing, standing, hnow, hbefore]

/-- A series goes on when it has a row behind the time. -/
theorem continues_iff : Continues data time ↔ data.filter (time < ·.timeStamp) ≠ [] := by
  simp [Continues, List.filter_eq_nil_iff]

/-- Candles at the data time or after it are not counted. -/
theorem candlesBefore_append (hbefore : ∀ candle ∈ before, candle.timeStamp < time)
    {rest : List OhlcvData} (hrest : ∀ candle ∈ rest, time ≤ candle.timeStamp) :
    candlesBefore time (before ++ rest) = before.length := by
  rw [candlesBefore, countBelow_append hbefore]
  cases rest with
  | nil => rfl
  | cons candle rest => rw [countBelow_cons_of_le (hrest candle List.mem_cons_self)]; rfl

/-- A lookup finds the candle in force unless the series begins after the data time. -/
theorem freshIterator_of_head_le (hsorted : data.Pairwise (·.timeStamp ≤ ·.timeStamp))
    {front : OhlcvData} (hfront : data.head? = some front) (hle : front.timeStamp ≤ time) :
    freshIterator data time = some (inForce time data) := by
  rcases hle.lt_or_eq with hlt | rfl
  · exact freshIterator_eq hsorted (candlesBefore_pos hfront hlt)
  · cases data with
    | nil => cases hfront
    | cons first rest =>
      cases hfront
      have hback : front.timeStamp ≤ ((front :: rest).getLast (List.cons_ne_nil _ _)).timeStamp := by
        rcases List.mem_cons.mp (List.getLast_mem (List.cons_ne_nil front rest)) with hfirst | hmem
        · rw [hfirst]
        · exact (List.pairwise_cons.mp hsorted).1 _ hmem
      rw [freshIterator, List.getLast?_eq_getLast_of_ne_nil (List.cons_ne_nil _ _)]
      simp only [List.head?_cons]
      rw [if_neg (lt_irrefl _), if_neg (not_lt.mpr hback)]

/-- Before the series begins the lookup finds nothing. -/
theorem freshIterator_of_future (hafter : ∀ candle ∈ data, time < candle.timeStamp) :
    freshIterator data time = none := by
  cases data with
  | nil => rfl
  | cons front rest =>
    rw [freshIterator, List.getLast?_eq_getLast_of_ne_nil (List.cons_ne_nil _ _)]
    simp only [List.head?_cons]
    rw [if_pos (hafter front List.mem_cons_self)]

/-! ## The reply -/

/-- At the time of a candle the trade is made at its open price. -/
private theorem tradeReply_at {candle : OhlcvData} {rest : List OhlcvData}
    (hsorted : (before ++ candle :: rest).Pairwise (·.timeStamp ≤ ·.timeStamp))
    (hbefore : ∀ entry ∈ before, entry.timeStamp < time) (htime : candle.timeStamp = time) :
    tradeReply (before ++ candle :: rest) time =
      .ok { timeStamp := candle.timeStamp, price := candle.open, volume := candle.volume } := by
  have hrest : ∀ entry ∈ candle :: rest, time ≤ entry.timeStamp := by
    intro entry hentry
    rcases List.mem_cons.mp hentry with rfl | hmem
    · exact htime.ge
    · have hle := (List.pairwise_cons.mp (List.pairwise_append.mp hsorted).2.1).1 entry hmem
      omega
  have hcandle : (before ++ candle :: rest)[before.length]? = some candle := by
    rw [List.getElem?_append_right le_rfl, Nat.sub_self, List.getElem?_cons_zero]
  have hindex : inForce time (before ++ candle :: rest) = before.length := by
    rw [inForce, candlesBefore_append hbefore hrest, hcandle, if_pos (by simp [htime])]
  have hfront : ∃ front, (before ++ candle :: rest).head? = some front ∧ front.timeStamp ≤ time := by
    cases before with
    | nil => exact ⟨candle, rfl, htime.le⟩
    | cons front others => exact ⟨front, rfl, (hbefore front List.mem_cons_self).le⟩
  obtain ⟨front, hfront, hle⟩ := hfront
  have hnow : ¬(before.length + 1 = (before ++ candle :: rest).length ∧ time > candle.timeStamp) := by
    omega
  rw [tradeReply, freshIterator_of_head_le hsorted hfront hle, hindex, tradeFrom]
  simp only [hcandle]
  rw [if_neg hnow]

/-- Behind the time of the last candle up to now the price tells whether candles follow. -/
private theorem tradeReply_behind {last : OhlcvData}
    (hsorted : (before ++ last :: after).Pairwise (·.timeStamp ≤ ·.timeStamp))
    (hbefore : ∀ entry ∈ before ++ [last], entry.timeStamp < time)
    (hafter : ∀ entry ∈ after, time < entry.timeStamp) :
    tradeReply (before ++ last :: after) time =
      .ok { timeStamp := last.timeStamp
            price := if after = [] then last.close else last.open
            volume := last.volume } := by
  have hlast : last.timeStamp < time := hbefore last (by simp)
  have hcount : candlesBefore time (before ++ last :: after) = before.length + 1 := by
    rw [List.append_cons, candlesBefore_append hbefore fun entry hentry => (hafter entry hentry).le,
      List.length_append]
    rfl
  have hnext : (before ++ last :: after)[before.length + 1]? = after.head? := by
    rw [List.getElem?_append_right (by omega), Nat.add_sub_cancel_left, List.getElem?_cons_succ,
      List.head?_eq_getElem?]
  have hindex : inForce time (before ++ last :: after) = before.length := by
    rw [inForce, hcount, hnext, if_neg, Nat.add_sub_cancel]
    cases after with
    | nil => simp
    | cons next others =>
      have hlt := hafter next List.mem_cons_self
      simpa using hlt.ne'
  have hcandle : (before ++ last :: after)[before.length]? = some last := by
    rw [List.getElem?_append_right le_rfl, Nat.sub_self, List.getElem?_cons_zero]
  have hfront : ∃ front, (before ++ last :: after).head? = some front ∧ front.timeStamp ≤ time := by
    cases before with
    | nil => exact ⟨last, rfl, hlast.le⟩
    | cons front others => exact ⟨front, rfl, (hbefore front List.mem_cons_self).le⟩
  obtain ⟨front, hfront, hle⟩ := hfront
  have hend : (before.length + 1 = (before ++ last :: after).length ∧ time > last.timeStamp) ↔
      after = [] := by
    rw [List.length_append, List.length_cons, ← List.length_eq_zero_iff]
    omega
  rw [tradeReply, freshIterator_of_head_le hsorted hfront hle, hindex, tradeFrom]
  simp only [hcandle, hend]

/-- The reply is the trade of the candle in force. -/
theorem tradeReply_eq (hsorted : data.Pairwise (·.timeStamp ≤ ·.timeStamp)) :
    tradeReply data time = .ok (standingTrade (Continues data time) time (standing data time)) := by
  have hsplit : data.filter (·.timeStamp < time) ++ (data.filter (·.timeStamp = time) ++
      data.filter (time < ·.timeStamp)) = data := by
    rw [filter_eq_append_filter_lt hsorted, filter_lt_append_filter_le hsorted]
  have hbefore : ∀ candle ∈ data.filter (·.timeStamp < time), candle.timeStamp < time := by
    intro candle hcandle
    simpa using (List.mem_filter.mp hcandle).2
  have hnow : ∀ candle ∈ data.filter (·.timeStamp = time), candle.timeStamp = time := by
    intro candle hcandle
    simpa using (List.mem_filter.mp hcandle).2
  have hafter : ∀ candle ∈ data.filter (time < ·.timeStamp), time < candle.timeStamp := by
    intro candle hcandle
    simpa using (List.mem_filter.mp hcandle).2
  unfold standingTrade
  simp only [standing, continues_iff, not_not]
  revert hsplit hbefore hnow hafter
  generalize data.filter (·.timeStamp < time) = before
  generalize data.filter (·.timeStamp = time) = now
  generalize data.filter (time < ·.timeStamp) = after
  intro hsplit hbefore hnow hafter
  subst hsplit
  cases now with
  | cons candle rest =>
    have htime := hnow candle List.mem_cons_self
    rw [List.cons_append] at hsorted ⊢
    rw [tradeReply_at hsorted hbefore htime]
    simp [htime]
  | nil =>
    rw [List.nil_append] at hsorted ⊢
    rcases List.eq_nil_or_concat before with rfl | ⟨init, last, rfl⟩
    · rw [tradeReply, List.nil_append, freshIterator_of_future hafter]
      rfl
    · rw [List.concat_eq_append] at hsorted hbefore ⊢
      rw [← List.append_cons] at hsorted ⊢
      have hlast : last.timeStamp < time := hbefore last (by simp)
      rw [tradeReply_behind hsorted hbefore hafter]
      simp [hlast]

/-! ## Two runs -/

/-- When the last candle up to now is behind its time, it is the candle in force. -/
theorem standing_of_behind (hsorted : data.Pairwise (·.timeStamp ≤ ·.timeStamp)) {last : OhlcvData}
    (hlast : (data.filter (·.timeStamp ≤ time)).getLast? = some last) (htime : last.timeStamp < time) :
    standing data time = some last := by
  have hupTo := hsorted.filter (·.timeStamp ≤ time)
  rw [← standing_filter]
  revert hlast hupTo
  generalize data.filter (·.timeStamp ≤ time) = upTo
  intro hlast hupTo
  have hbehind : ∀ candle ∈ upTo, candle.timeStamp < time := by
    intro candle hcandle
    obtain ⟨init, rfl⟩ := List.getLast?_eq_some_iff.mp hlast
    rcases List.mem_append.mp hcandle with hinit | hend
    · have hle := (List.pairwise_append.mp hupTo).2.2 candle hinit last List.mem_cons_self
      omega
    · rwa [List.mem_singleton.mp hend]
  have hnow : upTo.filter (·.timeStamp = time) = [] := by
    rw [List.filter_eq_nil_iff]
    intro candle hcandle
    simpa using (hbehind candle hcandle).ne
  have hbefore : upTo.filter (·.timeStamp < time) = upTo := by
    rw [List.filter_eq_self]
    intro candle hcandle
    simpa using hbehind candle hcandle
  rw [standing, hnow, hbefore, hlast]
  rfl

/-- At its own time the candle in force is traded at its open price whatever follows. -/
theorem standingTrade_congr {continues continues' : Prop} [Decidable continues]
    [Decidable continues'] {candle? : Option OhlcvData}
    (h : (∀ candle, candle? = some candle → time ≤ candle.timeStamp) ∨ (continues ↔ continues')) :
    standingTrade continues time candle? = standingTrade continues' time candle? := by
  cases candle? with
  | none => rfl
  | some candle =>
    rcases h with htime | hsame
    · have hnot (P : Prop) : ¬(candle.timeStamp < time ∧ P) := fun hbehind =>
        absurd hbehind.1 (not_lt.mpr (htime candle rfl))
      simp only [standingTrade, if_neg (hnot _)]
    · simp only [standingTrade, hsame]

/-- The candle that stands at a time does not begin before it. -/
theorem le_standing (h : (∃ candle ∈ data, candle.timeStamp = time) ∨
      ∀ candle ∈ data, time ≤ candle.timeStamp) {candle : OhlcvData}
    (hcandle : standing data time = some candle) : time ≤ candle.timeStamp := by
  unfold standing at hcandle
  cases hnow : (data.filter (·.timeStamp = time)).head? with
  | some first =>
    rw [hnow] at hcandle
    cases hcandle
    have hmem := List.mem_of_head? hnow
    have heq : candle.timeStamp = time := by simpa using (List.mem_filter.mp hmem).2
    exact heq.ge
  | none =>
    rw [hnow] at hcandle
    have hmem := List.mem_of_getLast? hcandle
    rcases h with ⟨entry, hentry, htime⟩ | hnone
    · rw [List.head?_eq_none_iff, List.filter_eq_nil_iff] at hnow
      exact absurd (by simpa using htime) (hnow entry hentry)
    · exact hnone candle (List.mem_filter.mp hmem).1

/-- At the data time two series with the same candles up to it are traded at the same time stamp and
volume. The price is the same as well when a candle starts now, when none has started before, and
when both series go on or both have ended; else it is the open price of the last candle on the
series that goes on, and its close price on the series that has ended. -/
theorem getTrade_blindToFuture {d d' : BackTestingData} {pair pair' : TradablePair}
    (h : d.Reachable) (h' : d'.Reachable) (htime : d.dataTime = time) (htime' : d'.dataTime = time)
    (hsorted : (d.series pair).Pairwise (·.timeStamp ≤ ·.timeStamp))
    (hsorted' : (d'.series pair').Pairwise (·.timeStamp ≤ ·.timeStamp))
    (hpast : (d.series pair).filter (·.timeStamp ≤ time) =
      (d'.series pair').filter (·.timeStamp ≤ time)) :
    ∃ trade trade', (getTrade pair d).1 = .ok trade ∧ (getTrade pair' d').1 = .ok trade' ∧
      trade.timeStamp = trade'.timeStamp ∧ trade.volume = trade'.volume ∧
      ((∃ candle ∈ d.series pair, candle.timeStamp = time) ∨
          (∀ candle ∈ d.series pair, time ≤ candle.timeStamp) ∨
          (Continues (d.series pair) time ↔ Continues (d'.series pair') time) →
        trade.price = trade'.price) ∧
      ∀ last, ((d.series pair).filter (·.timeStamp ≤ time)).getLast? = some last →
        last.timeStamp < time →
          trade.price = (if Continues (d.series pair) time then last.open else last.close) ∧
            trade'.price = if Continues (d'.series pair') time then last.open else last.close := by
  have hstanding : standing (d'.series pair') time = standing (d.series pair) time := by
    rw [← standing_filter, ← hpast, standing_filter]
  refine ⟨standingTrade (Continues (d.series pair) time) time (standing (d.series pair) time),
    standingTrade (Continues (d'.series pair') time) time (standing (d.series pair) time), ?_, ?_, ?_⟩
  · rw [h.getTrade_fst, htime, tradeReply_eq hsorted]
  · rw [h'.getTrade_fst, htime', tradeReply_eq hsorted', hstanding]
  · refine ⟨?_, ?_, ?_, ?_⟩
    · cases standing (d.series pair) time <;> rfl
    · cases standing (d.series pair) time <;> rfl
    · intro hcases
      apply congrArg TradeUpdate.price
      apply standingTrade_congr
      rcases hcases with hnow | hnone | hsame
      · exact .inl fun candle hcandle => le_standing (.inl hnow) hcandle
      · exact .inl fun candle hcandle => le_standing (.inr hnone) hcandle
      · exact .inr hsame
    · intro last hlast hbehind
      rw [standing_of_behind hsorted hlast hbehind]
      simp only [standingTrade, hbehind, true_and, ite_not]

/-- A candle at time 100 and, on the second series, one at time 220 that is not known at time 160. -/
theorem getTrade_looks_ahead :
    let pair : TradablePair := ⟨"BTC", "GBP"⟩
    let ended : List OhlcvData := [⟨100, 1, 5, 1, 4, 3⟩]
    let followed : List OhlcvData := [⟨100, 1, 5, 1, 4, 3⟩, ⟨220, 2, 2, 2, 2, 1⟩]
    let serve (data : List OhlcvData) :=
      create [pair] ((∅ : UnorderedMap _ _).insert pair data) 160 160 60 1
    ended.filter (·.timeStamp ≤ 160) = followed.filter (·.timeStamp ≤ 160) ∧
      (getTrade pair (serve ended)).1 =
        .ok { timeStamp := 100, price := 4, volume := 3 } ∧
      (getTrade pair (serve followed)).1 =
        .ok { timeStamp := 100, price := 1, volume := 3 } ∧
      ¬∀ (time : ℤ) (d d' : BackTestingData) (pair pair' : TradablePair), d.Reachable → d'.Reachable →
        d.dataTime = time → d'.dataTime = time →
        (d.series pair).Pairwise (·.timeStamp ≤ ·.timeStamp) →
        (d'.series pair').Pairwise (·.timeStamp ≤ ·.timeStamp) →
        (d.series pair).filter (·.timeStamp ≤ time) = (d'.series pair').filter (·.timeStamp ≤ time) →
          (getTrade pair d).1 = (getTrade pair' d').1 := by
  intro pair ended followed serve
  refine ⟨by decide +kernel, by decide +kernel, by decide +kernel, fun hblind => ?_⟩
  have hsame := hblind 160 (serve ended) (serve followed) pair pair
    ⟨_, _, _, _, 60, _, none, [], by decide, rfl⟩ ⟨_, _, _, _, 60, _, none, [], by decide, rfl⟩
    rfl rfl (by decide +kernel) (by decide +kernel) (by decide +kernel)
  revert hsame
  decide +kernel

/-- Without the later candle the last trade was made at the close price. -/
theorem getTrade_blindToFuture_ended :
    let pair : TradablePair := ⟨"BTC", "GBP"⟩
    let ended : List OhlcvData := [⟨100, 1, 5, 1, 4, 3⟩]
    let followed : List OhlcvData := [⟨100, 1, 5, 1, 4, 3⟩, ⟨220, 2, 2, 2, 2, 1⟩]
    let serve (data : List OhlcvData) :=
      create [pair] ((∅ : UnorderedMap _ _).insert pair data) 160 160 60 1
    ∃ trade trade', (getTrade pair (serve ended)).1 = .ok trade ∧
      (getTrade pair (serve followed)).1 = .ok trade' ∧ trade.timeStamp = trade'.timeStamp ∧
      trade.price = 4 ∧ trade'.price = 1 := by
  intro pair ended followed serve
  obtain ⟨trade, trade', htrade, htrade', hstamp, _, _, hprice⟩ :=
    @getTrade_blindToFuture 160 (serve ended) (serve followed) pair pair
      ⟨_, _, _, _, 60, _, none, [], by decide, rfl⟩ ⟨_, _, _, _, 60, _, none, [], by decide, rfl⟩
      rfl rfl (by decide +kernel) (by decide +kernel) (by decide +kernel)
  obtain ⟨hended, hfollowed⟩ := hprice ⟨100, 1, 5, 1, 4, 3⟩ (by decide +kernel) (by decide)
  refine ⟨trade, trade', htrade, htrade', hstamp, hended.trans ?_, hfollowed.trans ?_⟩
  · decide +kernel
  · decide +kernel

end BackTestingData

end MarketBlocks
