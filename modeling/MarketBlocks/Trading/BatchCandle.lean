import MarketBlocks.Trading.OhlcvFromTrades
import MarketBlocks.Trading.TradeHistory

/-!
# Incremental and batch candles

The candle of a grid interval can be computed from all trades at once: it is carried on from the
last price before the interval. The builder sees one trade after the other and keeps a single
time for the trades of one second, so that its candle depends on the order of the trades in the
last second of every candle and at the start of the current one.
-/

namespace MarketBlocks

open Library

/-- The candle of the grid interval of `t`, from all trades up to `t`. -/
def batchCandle (startOhlcv : OhlcvData) (interval : ℤ) (trades : List TradeUpdate) (t : ℤ) :
    OhlcvData :=
  let start := gridTime startOhlcv.timeStamp interval t
  let carried := lastPrice startOhlcv.close (tradesBefore start trades)
  let window := tradesSince start trades
  { timeStamp := start
    «open» := match window.head? with
      | some first => if first.timeStamp = start then first.price else carried
      | none => carried
    high := (prices window).foldl max carried
    low := (prices window).foldl min carried
    close := lastPrice carried window
    volume := totalVolume window }

/-- The first price of the last second that has trades. The second in which the first candle
starts counts as traded at that candle's close. -/
def firstOfLastSecond (startOhlcv : OhlcvData) (trades : List TradeUpdate) : ℚ :=
  match trades.getLast? with
  | none => startOhlcv.close
  | some last =>
    if last.timeStamp = startOhlcv.timeStamp then startOhlcv.close
    else ((tradesAt last.timeStamp trades).head?.map TradeUpdate.price).getD startOhlcv.close

/-- The trades of one second agree on the price wherever it matters which of them is taken: in
the last second, in the second in which the candle of `t` starts, and in the last second before
that. The price carried into the candle does not matter when the candle opens with a trade and
its prices span both candidates. -/
structure SecondsAgree (startOhlcv : OhlcvData) (interval : ℤ) (trades : List TradeUpdate)
    (t : ℤ) : Prop where
  closing : firstOfLastSecond startOhlcv trades = lastPrice startOhlcv.close trades
  opening :
    let atStart := prices (tradesAt (gridTime startOhlcv.timeStamp interval t) trades)
    atStart.head? = atStart.getLast?
  carried :
    let start := gridTime startOhlcv.timeStamp interval t
    let before := tradesBefore start trades
    let window := prices (tradesSince start trades)
    firstOfLastSecond startOhlcv before = lastPrice startOhlcv.close before ∨
      tradesAt start trades ≠ [] ∧ Spans window (firstOfLastSecond startOhlcv before) ∧
        Spans window (lastPrice startOhlcv.close before)

/-- The candle that the builder comes to. -/
def builtCandle (startOhlcv : OhlcvData) (start : ℤ) (trades : List TradeUpdate) : OhlcvData :=
  let carried := firstOfLastSecond startOhlcv (tradesBefore start trades)
  let window := tradesSince start trades
  { timeStamp := start
    «open» := lastPrice carried (tradesAt start trades)
    high := (prices window).foldl max carried
    low := (prices window).foldl min carried
    close := firstOfLastSecond startOhlcv trades
    volume := totalVolume window }

namespace OhlcvFromTrades

/-- The trades one after the other. -/
def addTrades (trades : List TradeUpdate) (candle : OhlcvFromTrades) : OhlcvFromTrades :=
  trades.foldl (fun candle trade => candle.addTrade trade.timeStamp trade.price trade.volume) candle

/-- The builder has seen these trades and has been moved to the candle of `t`. -/
structure Built (startOhlcv : OhlcvData) (interval : ℤ) (trades : List TradeUpdate) (t : ℤ)
    (candle : OhlcvFromTrades) : Prop where
  interval_eq : candle.interval = interval
  lastTime_eq : candle.lastTime = lastTradeTime startOhlcv.timeStamp trades
  close_eq : candle.close = firstOfLastSecond startOhlcv trades
  startTime_eq : candle.startTime = gridTime startOhlcv.timeStamp interval t
  ohlcv_eq : candle.startTime ≠ startOhlcv.timeStamp →
    candle.ohlcv = builtCandle startOhlcv candle.startTime trades

variable {startOhlcv : OhlcvData} {interval t : ℤ} {trades : List TradeUpdate}
  {trade : TradeUpdate} {candle : OhlcvFromTrades}

/-- A later trade of the last second does not become its first one. -/
private theorem firstOfLastSecond_concat (htrades : Chronological startOhlcv.timeStamp trades)
    (hlast : lastTradeTime startOhlcv.timeStamp trades ≤ trade.timeStamp) :
    firstOfLastSecond startOhlcv (trades ++ [trade]) =
      if trade.timeStamp > lastTradeTime startOhlcv.timeStamp trades then trade.price
      else firstOfLastSecond startOhlcv trades := by
  have hstart := htrades.first_le_lastTradeTime
  have hat := (trades_concat trades (le_refl trade.timeStamp)).2.1
  rw [if_pos rfl] at hat
  unfold firstOfLastSecond
  simp only [List.getLast?_concat, hat]
  by_cases hlater : trade.timeStamp > lastTradeTime startOhlcv.timeStamp trades
  · -- the trade opens a second of its own
    have hnone : tradesAt trade.timeStamp trades = [] :=
      (trades_of_forall_lt fun t ht => (htrades.le_lastTradeTime ht).trans_lt hlater).2.1
    rw [if_neg (by omega), if_pos hlater, hnone]
    rfl
  · have hsame : trade.timeStamp = lastTradeTime startOhlcv.timeStamp trades :=
      le_antisymm (not_lt.mp hlater) hlast
    rw [if_neg hlater]
    cases trades using List.reverseRecOn with
    | nil => exact if_pos hsame
    | append_singleton before last =>
      rw [lastTradeTime_concat] at hsame
      have hmem : last ∈ tradesAt last.timeStamp (before ++ [last]) := by simp [tradesAt]
      rw [List.getLast?_concat, hsame,
        List.head?_append_of_ne_nil _ (List.ne_nil_of_mem hmem)]

/-- Moving on to a later time: the candle that is opened has no trade yet. -/
theorem Built.atTime (hinterval : 0 < interval)
    (htrades : Chronological startOhlcv.timeStamp trades)
    (h : Built startOhlcv interval trades t candle)
    (hlast : lastTradeTime startOhlcv.timeStamp trades ≤ t) {t' : ℤ} (hle : t ≤ t') :
    Built startOhlcv interval trades t' (candle.atTime t') := by
  have hbelow : candle.startTime ≤ t := h.startTime_eq ▸ gridTime_le _ _ hinterval
  have habove : t < candle.startTime + interval := h.startTime_eq ▸ lt_gridTime_add _ _ hinterval
  have hgrid : (candle.atTime t').startTime = gridTime startOhlcv.timeStamp interval t' := by
    have hmod : candle.startTime ≡ startOhlcv.timeStamp [ZMOD interval] :=
      h.startTime_eq ▸ gridTime_modEq
    rw [startTime_atTime (hbelow.trans hle), h.interval_eq, gridTime_congr hinterval hmod]
  refine ⟨by simp [h.interval_eq], by simp [h.lastTime_eq], by simp [h.close_eq], hgrid, ?_⟩
  intro hmoved
  by_cases hsame : (candle.atTime t').startTime = candle.startTime
  · rw [atTime_of_startTime_eq (h.interval_eq ▸ hinterval) (hbelow.trans hle) hsame] at hmoved ⊢
    exact h.ohlcv_eq hmoved
  · -- all trades lie before the candle that is opened
    have hopened := atTime_of_startTime_ne hsame
    have hlater : t < (candle.atTime t').startTime := by
      by_contra hnot
      have hnext := lt_gridTime_add startOhlcv.timeStamp t' hinterval
      apply hsame
      rw [h.startTime_eq, hgrid]
      exact (gridTime_unique gridTime_modEq (hgrid ▸ not_lt.mp hnot) (by omega)).symm
    have hall : ∀ trade ∈ trades, trade.timeStamp < (candle.atTime t').startTime :=
      fun trade hmem => (htrades.le_lastTradeTime hmem).trans_lt (hlast.trans_lt hlater)
    obtain ⟨hbefore, hat, hsince⟩ := trades_of_forall_lt hall
    unfold builtCandle
    rw [hbefore, hat, hsince, ← h.close_eq, hopened]
    rfl

/-- A trade of the current candle. -/
theorem Built.concat (htrades : Chronological startOhlcv.timeStamp trades)
    (hlast : lastTradeTime startOhlcv.timeStamp trades ≤ trade.timeStamp)
    (hinterval : 0 < interval) (h : Built startOhlcv interval trades trade.timeStamp candle) :
    Built startOhlcv interval (trades ++ [trade]) trade.timeStamp
      { candle with
        «open» := if trade.timeStamp = candle.startTime then trade.price else candle.open
        high := max candle.high trade.price
        low := min candle.low trade.price
        close := if trade.timeStamp > candle.lastTime then trade.price else candle.close
        volume := candle.volume + trade.volume
        lastTime := max candle.lastTime trade.timeStamp } := by
  have hclose := firstOfLastSecond_concat htrades hlast
  rw [← h.lastTime_eq, ← h.close_eq] at hclose
  refine ⟨h.interval_eq, ?_, hclose.symm, h.startTime_eq, ?_⟩
  · rw [lastTradeTime_concat, h.lastTime_eq]
    exact max_eq_right hlast
  · intro hmoved
    have hbelow : candle.startTime ≤ trade.timeStamp := h.startTime_eq ▸ gridTime_le _ _ hinterval
    obtain ⟨hbefore, hat, hsince⟩ := trades_concat trades hbelow
    have hcandle := h.ohlcv_eq hmoved
    unfold builtCandle at hcandle ⊢
    simp only [ohlcv, OhlcvData.mk.injEq] at hcandle ⊢
    obtain ⟨-, hopen, hhigh, hlow, -, hvolume⟩ := hcandle
    rw [hbefore, hat, hsince, hopen, hhigh, hlow, hvolume, hclose]
    refine ⟨trivial, ?_, ?_, ?_, rfl, ?_⟩
    · split
      · rw [lastPrice_concat]
      · rw [List.append_nil]
    · rw [prices, prices, List.map_append, List.foldl_append]
      rfl
    · rw [prices, prices, List.map_append, List.foldl_append]
      rfl
    · simp [totalVolume]

/-- Trade after trade the builder comes to the built candle. -/
theorem built_addTrades (hinterval : 0 < interval)
    (htrades : Chronological startOhlcv.timeStamp trades) :
    Built startOhlcv interval trades (lastTradeTime startOhlcv.timeStamp trades)
      ((ofCandle startOhlcv interval).addTrades trades) := by
  induction trades using List.reverseRecOn with
  | nil =>
    have hgrid : gridTime startOhlcv.timeStamp interval startOhlcv.timeStamp
        = startOhlcv.timeStamp := gridTime_unique rfl le_rfl (by omega)
    exact ⟨rfl, rfl, rfl, hgrid.symm, fun hmoved => absurd rfl hmoved⟩
  | append_singleton trades trade ih =>
    obtain ⟨hbefore, hlast⟩ := htrades.of_concat
    have hbuilt := ih hbefore
    have hnew : ((ofCandle startOhlcv interval).addTrades trades).startTime ≤ trade.timeStamp :=
      (hbuilt.startTime_eq ▸ gridTime_le _ _ hinterval).trans hlast
    have hrolled := (hbuilt.atTime hinterval hbefore le_rfl hlast).concat hbefore hlast hinterval
    unfold addTrades at hnew hrolled ⊢
    rw [List.foldl_concat, lastTradeTime_concat, addTrade_eq hnew]
    rwa [lastTime_atTime, close_atTime] at hrolled

/-- What a query reports once the builder has moved past its first candle. -/
theorem getOhlcv_addTrades (hinterval : 0 < interval)
    (htrades : Chronological startOhlcv.timeStamp trades)
    (hlast : lastTradeTime startOhlcv.timeStamp trades ≤ t)
    (hpast : startOhlcv.timeStamp + interval ≤ t) :
    (((ofCandle startOhlcv interval).addTrades trades).getOhlcv t).1 =
      builtCandle startOhlcv (gridTime startOhlcv.timeStamp interval t) trades := by
  have hbuilt := (built_addTrades hinterval htrades).atTime hinterval htrades le_rfl hlast
  have habove := lt_gridTime_add startOhlcv.timeStamp t hinterval
  rw [← hbuilt.startTime_eq]
  exact hbuilt.ohlcv_eq (by rw [hbuilt.startTime_eq]; omega)

/-- The open of the batch candle is the first price at its start. -/
private theorem batchCandle_open (htrades : Chronological startOhlcv.timeStamp trades) :
    (batchCandle startOhlcv interval trades t).open =
      ((prices (tradesAt (gridTime startOhlcv.timeStamp interval t) trades)).head?).getD
        (lastPrice startOhlcv.close
          (tradesBefore (gridTime startOhlcv.timeStamp interval t) trades)) := by
  unfold batchCandle
  simp only
  rw [← htrades.at_append_after]
  cases hat : tradesAt (gridTime startOhlcv.timeStamp interval t) trades with
  | cons first rest =>
    have hfirst : first ∈ tradesAt (gridTime startOhlcv.timeStamp interval t) trades := by
      simp [hat]
    have htime : first.timeStamp = gridTime startOhlcv.timeStamp interval t := by
      simpa using (List.mem_filter.mp hfirst).2
    simp [prices, htime]
  | nil =>
    cases hafter : tradesAfter (gridTime startOhlcv.timeStamp interval t) trades with
    | nil => rfl
    | cons first rest =>
      have hfirst : first ∈ tradesAfter (gridTime startOhlcv.timeStamp interval t) trades := by
        simp [hafter]
      have htime : gridTime startOhlcv.timeStamp interval t < first.timeStamp := by
        simpa using (List.mem_filter.mp hfirst).2
      simp [prices, htime.ne']

/-- Both candles are the same exactly when the seconds agree. -/
theorem builtCandle_eq_batchCandle_iff (htrades : Chronological startOhlcv.timeStamp trades) :
    builtCandle startOhlcv (gridTime startOhlcv.timeStamp interval t) trades =
        batchCandle startOhlcv interval trades t ↔
      SecondsAgree startOhlcv interval trades t := by
  have hclose : (batchCandle startOhlcv interval trades t).close =
      lastPrice startOhlcv.close trades := by
    change lastPrice (lastPrice startOhlcv.close (tradesBefore _ trades)) (tradesSince _ trades) = _
    rw [← lastPrice_append, htrades.before_append_since]
  have hlast : (builtCandle startOhlcv (gridTime startOhlcv.timeStamp interval t) trades).open = _ :=
    lastPrice_eq_getLast? _ _
  have hextremes :
      (builtCandle startOhlcv (gridTime startOhlcv.timeStamp interval t) trades).high =
          (batchCandle startOhlcv interval trades t).high ∧
        (builtCandle startOhlcv (gridTime startOhlcv.timeStamp interval t) trades).low =
          (batchCandle startOhlcv interval trades t).low ↔ _ := extremes_eq_iff _ _ _
  have hfields : builtCandle startOhlcv (gridTime startOhlcv.timeStamp interval t) trades =
        batchCandle startOhlcv interval trades t ↔ _ ∧ (_ ∧ _) ∧ _ :=
    ⟨fun h => ⟨congrArg OhlcvData.open h, ⟨congrArg OhlcvData.high h, congrArg OhlcvData.low h⟩,
      congrArg OhlcvData.close h⟩, fun h => by
        obtain ⟨ho, ⟨hh, hl⟩, hc⟩ := h
        exact OhlcvData.mk.injEq .. ▸ ⟨rfl, ho, hh, hl, hc, rfl⟩⟩
  rw [hfields, hlast, batchCandle_open htrades, hextremes, hclose]
  constructor
  · intro h
    obtain ⟨ho, hspan, hc⟩ := h
    cases hat : prices (tradesAt (gridTime startOhlcv.timeStamp interval t) trades) with
    | nil =>
      rw [hat] at ho
      exact ⟨hc, by simp [hat], .inl ho⟩
    | cons first rest =>
      have hne : tradesAt (gridTime startOhlcv.timeStamp interval t) trades ≠ [] := by
        intro hnil
        simp [hnil, prices] at hat
      rw [hat, List.getLast?_cons, List.head?_cons, Option.getD_some, Option.getD_some] at ho
      refine ⟨hc, ?_, hspan.imp_right fun hboth => ⟨hne, hboth⟩⟩
      simp only [hat, List.getLast?_cons, List.head?_cons, ho]
  · intro h
    refine ⟨?_, h.carried.imp_right And.right, h.closing⟩
    have hopening := h.opening
    simp only at hopening
    rw [← hopening]
    cases hat : prices (tradesAt (gridTime startOhlcv.timeStamp interval t) trades) with
    | nil =>
      have hnil : tradesAt (gridTime startOhlcv.timeStamp interval t) trades = [] := by
        simpa [prices] using hat
      exact h.carried.resolve_right fun hne => hne.1 hnil
    | cons first rest => rfl

/-- Incremental candles are batch candles exactly when the trades of one second agree wherever it
matters which of them is taken. -/
theorem getOhlcv_eq_batchCandle_iff (startOhlcv : OhlcvData) (hinterval : 0 < interval)
    (htrades : Chronological startOhlcv.timeStamp trades)
    (hlast : lastTradeTime startOhlcv.timeStamp trades ≤ t)
    (hpast : startOhlcv.timeStamp + interval ≤ t) :
    (((ofCandle startOhlcv interval).addTrades trades).getOhlcv t).1 =
        batchCandle startOhlcv interval trades t ↔
      SecondsAgree startOhlcv interval trades t := by
  rw [getOhlcv_addTrades hinterval htrades hlast hpast]
  exact builtCandle_eq_batchCandle_iff htrades

/-- Of two trades in the second 165 the builder closes at the earlier one. -/
theorem getOhlcv_closes_early :
    (((ofCandle ⟨100, 2, 4, 1, 3, 1 / 10⟩ 60).addTrades
        [⟨165, 5, 1⟩, ⟨165, 4, 1⟩]).getOhlcv 170).1 = ⟨160, 3, 5, 3, 5, 2⟩ ∧
      batchCandle ⟨100, 2, 4, 1, 3, 1 / 10⟩ 60 [⟨165, 5, 1⟩, ⟨165, 4, 1⟩] 170 =
        ⟨160, 3, 5, 3, 4, 2⟩ ∧
      (((ofCandle ⟨100, 2, 4, 1, 3, 1 / 10⟩ 60).addTrades
        [⟨165, 5, 1⟩, ⟨165, 4, 1⟩]).getOhlcv 170).1 ≠
        batchCandle ⟨100, 2, 4, 1, 3, 1 / 10⟩ 60 [⟨165, 5, 1⟩, ⟨165, 4, 1⟩] 170 := by
  decide +kernel

/-- Two trades in the second 170 at one price make no difference. -/
theorem getOhlcv_eq_batchCandle_ties :
    (((ofCandle ⟨100, 2, 4, 1, 3, 1 / 10⟩ 60).addTrades
        [⟨120, 2, 1⟩, ⟨160, 5, 1⟩, ⟨170, 4, 2⟩, ⟨170, 4, 1⟩]).getOhlcv 180).1 =
      batchCandle ⟨100, 2, 4, 1, 3, 1 / 10⟩ 60
        [⟨120, 2, 1⟩, ⟨160, 5, 1⟩, ⟨170, 4, 2⟩, ⟨170, 4, 1⟩] 180 :=
  (getOhlcv_eq_batchCandle_iff _ (by decide) ⟨by decide, by decide⟩ (by decide) (by decide)).mpr
    ⟨by decide +kernel, by decide +kernel, .inl (by decide +kernel)⟩

end OhlcvFromTrades

end MarketBlocks
