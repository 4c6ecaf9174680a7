import MarketBlocks.Common.Fault
import MarketBlocks.Trading.Orders
import MarketBlocks.Trading.TradeHistory

/-!
# The moving candle

`moving_candle` keeps the trades of the last `interval` seconds. In front of them it keeps one
older trade, whose price is carried to the start of the window without volume.
-/

namespace MarketBlocks

open Library

/-- `moving_candle`. -/
structure MovingCandle where
  interval : ℤ
  offset : ℤ
  startTime : ℤ
  trades : List TradeUpdate
  deriving DecidableEq, Repr

namespace MovingCandle

/-- The constructor. -/
def new (interval : ℤ) (offset : ℤ := 0) : MovingCandle where
  interval := interval
  offset := offset
  startTime := 0
  trades := []

/-- `get_offset_trades`. -/
def getOffsetTrades (candle : MovingCandle) : List TradeUpdate :=
  if candle.offset = 0 then candle.trades
  else candle.trades.takeWhile fun trade =>
    trade.timeStamp ≤ candle.startTime + candle.interval - candle.offset

/-- The loop of `update_values`: as long as the second trade is old, the first one goes. -/
def popOld (startTime : ℤ) : List TradeUpdate → List TradeUpdate
  | first :: second :: rest =>
    if second.timeStamp ≤ startTime then popOld startTime (second :: rest)
    else first :: second :: rest
  | trades => trades

/-- A trade from before the window counts as one at its start, without volume. -/
def fillTrade (startTime : ℤ) (trade : TradeUpdate) : TradeUpdate :=
  if trade.timeStamp < startTime then ⟨startTime, trade.price, 0⟩ else trade

/-- The front of an empty deque is read at the end. -/
def updateValues (currentTime : ℤ) (candle : MovingCandle) : Except Fault MovingCandle :=
  let startTime := if currentTime - candle.offset ≥ candle.startTime + candle.interval
    then currentTime - candle.interval - candle.offset else candle.startTime
  match popOld startTime candle.trades with
  | [] => .error .undefined
  | first :: rest =>
    .ok { candle with startTime := startTime, trades := fillTrade startTime first :: rest }

/-- `push_trade`. -/
def pushTrade (trade : TradeUpdate) (candle : MovingCandle) : Except Fault MovingCandle :=
  let startTime := if candle.startTime = 0 then trade.timeStamp else candle.startTime
  updateValues trade.timeStamp
    { candle with startTime := startTime, trades := candle.trades ++ [trade] }

/-- The candle of the trades from `first` on. -/
def candleOf (timeStamp : ℤ) (first : TradeUpdate) (offsetTrades : List TradeUpdate) : OhlcvData where
  timeStamp := timeStamp
  «open» := first.price
  high := (prices offsetTrades).foldl max first.price
  low := (prices offsetTrades).foldl min first.price
  close := lastPrice first.price offsetTrades
  volume := totalVolume offsetTrades

/-- `get_ohlcv`, with the volumes added as they are; `getOhlcvIn` adds them in doubles. -/
def getOhlcv (time : ℤ) (candle : MovingCandle) : Except Fault (OhlcvData × MovingCandle) := do
  let candle ← candle.updateValues time
  if candle.trades.isEmpty then return (default, candle)
  match candle.getOffsetTrades with
  | [] => throw .undefined
  | first :: rest =>
    return (candleOf (candle.startTime - candle.offset) first (first :: rest), candle)

/-- `get_quote_volume`, with the costs added as they are; `getQuoteVolumeIn` adds them in doubles.
-/
def getQuoteVolume (time : ℤ) (candle : MovingCandle) : Except Fault (ℚ × MovingCandle) := do
  let candle ← candle.updateValues time
  return ((candle.getOffsetTrades.map fun trade => calculateCost trade.price trade.volume).sum,
    candle)

/-- `reset`, which keeps the interval and the offset. -/
def reset (candle : MovingCandle) : MovingCandle := { candle with trades := [], startTime := 0 }

/-- A use of the candle. -/
inductive Call where
  | pushTrade (trade : TradeUpdate)
  | getOhlcv (time : ℤ)
  deriving DecidableEq, Repr

/-- The time that a call carries. -/
def Call.time : Call → ℤ
  | .pushTrade trade => trade.timeStamp
  | .getOhlcv time => time

/-- The trades that are pushed. -/
def pushed (calls : List Call) : List TradeUpdate :=
  calls.filterMap fun call => match call with
    | .pushTrade trade => some trade
    | .getOhlcv _ => none

/-- A call, whose answer is dropped. -/
def step (candle : MovingCandle) : Call → Except Fault MovingCandle
  | .pushTrade trade => candle.pushTrade trade
  | .getOhlcv time => do return (← candle.getOhlcv time).2

/-- A run of calls. -/
def run (candle : MovingCandle) (calls : List Call) : Except Fault MovingCandle :=
  calls.foldlM step candle

end MovingCandle

/-- The candle of the trades in a window, with the last price before it carried in when no trade
is at its start. -/
def windowCandle (start : ℤ) (trades : List TradeUpdate) : OhlcvData :=
  let opening := ((prices (tradesAt start trades)).head?).getD
    (lastPrice 0 (tradesBefore start trades))
  let window := tradesSince start trades
  { timeStamp := start
    «open» := opening
    high := (prices window).foldl max opening
    low := (prices window).foldl min opening
    close := lastPrice opening window
    volume := totalVolume window }

/-- Of the trades at the start of a window the last one says it all: it has the price of the
first, the others have no volume, and no price of them is an extreme. -/
structure OpeningAgrees (start : ℤ) (trades : List TradeUpdate) : Prop where
  opening : (prices (tradesAt start trades)).head? = (prices (tradesAt start trades)).getLast?
  volume : totalVolume (tradesAt start trades).dropLast = 0
  extremes : ∀ price ∈ prices (tradesAt start trades),
    Spans (prices ((tradesAt start trades).getLast?.toList ++ tradesAfter start trades)) price

namespace MovingCandle

/-- The candle has seen these trades and has been moved to `t`: it holds the last trade up to the
start of the window and all trades after that. -/
structure Keeps (interval first : ℤ) (trades : List TradeUpdate) (t : ℤ) (candle : MovingCandle) :
    Prop where
  interval_eq : candle.interval = interval
  offset_eq : candle.offset = 0
  startTime_eq : candle.startTime = max first (t - interval)
  trades_eq : ∃ last, (tradesUpTo candle.startTime trades).getLast? = some last ∧
    candle.trades = fillTrade candle.startTime last :: tradesAfter candle.startTime trades

variable {interval first t start : ℤ} {trades : List TradeUpdate} {trade : TradeUpdate}
  {candle : MovingCandle}

/-- The loop leaves the last old trade and what comes after it. -/
theorem popOld_cons (front : TradeUpdate)
    (hsorted : trades.Pairwise fun earlier later => earlier.timeStamp ≤ later.timeStamp) :
    popOld start (front :: trades) =
      (tradesUpTo start trades).getLast?.getD front :: tradesAfter start trades := by
  induction trades generalizing front with
  | nil => rfl
  | cons second rest ih =>
    obtain ⟨hsecond, hrest⟩ := List.pairwise_cons.mp hsorted
    unfold popOld
    by_cases hold : second.timeStamp ≤ start
    · rw [if_pos hold, ih second hrest]
      simp [tradesUpTo, tradesAfter, hold, List.getLast?_cons]
    · have hlater : ∀ trade ∈ second :: rest, start < trade.timeStamp := by
        intro trade hmem
        rcases List.mem_cons.mp hmem with heq | hrest
        · rw [heq]
          omega
        · exact (not_le.mp hold).trans_le (hsecond trade hrest)
      have hnone : tradesUpTo start (second :: rest) = [] :=
        List.filter_eq_nil_iff.mpr fun trade hmem => by simpa using hlater trade hmem
      have hall : tradesAfter start (second :: rest) = second :: rest :=
        List.filter_eq_self.mpr fun trade hmem => by simpa using hlater trade hmem
      rw [if_neg hold, hnone, hall]
      rfl

/-- Carrying a price on to the same or a later start. -/
theorem fillTrade_fillTrade {later : ℤ} (hle : start ≤ later) (trade : TradeUpdate) :
    fillTrade later (fillTrade start trade) = fillTrade later trade := by
  unfold fillTrade
  by_cases hold : trade.timeStamp < start
  · rw [if_pos hold, if_pos (by omega : trade.timeStamp < later)]
    rcases hle.eq_or_lt with heq | hlt
    · subst heq
      rw [if_neg (lt_irrefl _)]
    · rw [if_pos hlt]
  · rw [if_neg hold]

/-- The window moves on with the time. Before, the deque may hold trades behind its front that are
old already: those of the first second. -/
theorem updateValues_keeps (candle : MovingCandle) {old more : List TradeUpdate} {last : TradeUpdate}
    (hchron : Chronological first (old ++ more)) (hinterval : candle.interval = interval)
    (hoffset : candle.offset = 0) (hstart : candle.startTime = max first (t - interval))
    (hold : ∀ trade ∈ old, trade.timeStamp ≤ candle.startTime) (hlast : old.getLast? = some last)
    (htrades : candle.trades = fillTrade candle.startTime last :: more) {t' : ℤ} (hle : t ≤ t') :
    ∃ next, candle.updateValues t' = .ok next ∧ Keeps interval first (old ++ more) t' next := by
  have hmoved : (if t' - candle.offset ≥ candle.startTime + candle.interval
      then t' - candle.interval - candle.offset else candle.startTime) =
        max first (t' - interval) := by
    rw [hoffset, hinterval, hstart]
    split <;> omega
  have hmono : candle.startTime ≤ max first (t' - interval) := by
    rw [hstart]
    omega
  have hsorted : more.Pairwise fun earlier later => earlier.timeStamp ≤ later.timeStamp :=
    (List.pairwise_append.mp hchron.sorted).2.1
  obtain ⟨hupTo, hafter⟩ := trades_append_of_le more fun trade hmem => (hold trade hmem).trans hmono
  unfold updateValues
  simp only [hmoved, htrades]
  rw [popOld_cons _ hsorted]
  refine ⟨_, rfl, hinterval, hoffset, rfl, ?_⟩
  rw [hupTo, hafter, List.getLast?_append, hlast]
  -- the trades that are old by now, if there are any, push the front out
  cases hnewest : (tradesUpTo (max first (t' - interval)) more).getLast? with
  | none => exact ⟨last, rfl, by rw [Option.getD_none, fillTrade_fillTrade hmono]⟩
  | some newest => exact ⟨newest, rfl, rfl⟩

/-- Moving the window on goes right and keeps what it has seen. -/
theorem Keeps.updateValues (h : Keeps interval first trades t candle)
    (hchron : Chronological first trades) {t' : ℤ} (hle : t ≤ t') :
    ∃ next, candle.updateValues t' = .ok next ∧ Keeps interval first trades t' next := by
  obtain ⟨last, hlast, htrades⟩ := h.trades_eq
  have hsplit := hchron.upTo_append_after candle.startTime
  have hold : ∀ trade ∈ tradesUpTo candle.startTime trades,
      trade.timeStamp ≤ candle.startTime := fun trade hmem => by
    simpa using (List.mem_filter.mp hmem).2
  have hnext := updateValues_keeps candle (hsplit.symm ▸ hchron) h.interval_eq h.offset_eq h.startTime_eq
    hold hlast htrades hle
  rwa [hsplit] at hnext

/-- Pushing a trade behind the window goes right and keeps what it has seen. -/
theorem Keeps.pushTrade (h : Keeps interval first trades t candle) (hfirst : 0 < first)
    (hchron : Chronological first (trades ++ [trade])) (hle : t ≤ trade.timeStamp) :
    ∃ next, candle.pushTrade trade = .ok next ∧
      Keeps interval first (trades ++ [trade]) trade.timeStamp next := by
  obtain ⟨last, hlast, htrades⟩ := h.trades_eq
  have hsplit := hchron.of_concat.1.upTo_append_after candle.startTime
  have hold : ∀ trade ∈ tradesUpTo candle.startTime trades,
      trade.timeStamp ≤ candle.startTime := fun trade hmem => by
    simpa using (List.mem_filter.mp hmem).2
  have hstarted : candle.startTime ≠ 0 := by
    rw [h.startTime_eq]
    omega
  have hsplit' : tradesUpTo candle.startTime trades ++
      (tradesAfter candle.startTime trades ++ [trade]) = trades ++ [trade] := by
    rw [← List.append_assoc, hsplit]
  have hnext := updateValues_keeps { candle with trades := candle.trades ++ [trade] }
    (hsplit'.symm ▸ hchron)
    h.interval_eq h.offset_eq h.startTime_eq hold hlast (by rw [htrades]; rfl) hle
  rw [hsplit'] at hnext
  unfold MovingCandle.pushTrade
  rwa [if_neg hstarted]

/-- The first trade starts the window. -/
theorem pushTrade_new (hinterval : 0 < interval) (trade : TradeUpdate) :
    ∃ next, (new interval).pushTrade trade = .ok next ∧
      Keeps interval trade.timeStamp [trade] trade.timeStamp next := by
  have hstart : (if trade.timeStamp - 0 ≥ trade.timeStamp + interval
      then trade.timeStamp - interval - 0 else trade.timeStamp) = trade.timeStamp := if_neg (by omega)
  refine ⟨⟨interval, 0, trade.timeStamp, [trade]⟩, ?_, rfl, rfl, ?_, trade, ?_, ?_⟩
  · unfold pushTrade updateValues new
    simp only [if_true, hstart, List.nil_append, popOld, fillTrade, lt_irrefl, if_false]
  · dsimp only
    omega
  · simp [tradesUpTo]
  · simp [fillTrade, tradesAfter]

/-- A query moves the window and reports what is kept. -/
theorem Keeps.getOhlcv (h : Keeps interval first trades t candle)
    (hchron : Chronological first trades) {t' : ℤ} (hle : t ≤ t') :
    ∃ next last, Keeps interval first trades t' next ∧
      (tradesUpTo next.startTime trades).getLast? = some last ∧
      candle.getOhlcv t' = .ok (candleOf next.startTime (fillTrade next.startTime last)
        (fillTrade next.startTime last :: tradesAfter next.startTime trades), next) := by
  obtain ⟨next, hnext, hkeeps⟩ := h.updateValues hchron hle
  obtain ⟨last, hlast, htrades⟩ := hkeeps.trades_eq
  refine ⟨next, last, hkeeps, hlast, ?_⟩
  have hoffset : next.getOffsetTrades = next.trades := if_pos hkeeps.offset_eq
  simp only [MovingCandle.getOhlcv, hnext, bind, Except.bind, hoffset, htrades, hkeeps.offset_eq,
    sub_zero]
  rfl

/-- A run that has started with a trade keeps what it has seen. -/
theorem Keeps.run (hfirst : 0 < first) {bound : ℤ} {calls : List Call}
    (h : Keeps interval first trades t candle) (hchron : Chronological first trades)
    (hfirstt : first ≤ t) (hseen : ∀ trade ∈ trades, trade.timeStamp ≤ t)
    (hsorted : calls.Pairwise fun earlier later => earlier.time ≤ later.time)
    (hlater : ∀ call ∈ calls, t ≤ call.time) (hbound : ∀ call ∈ calls, call.time ≤ bound)
    (htbound : t ≤ bound) :
    Chronological first (trades ++ pushed calls) ∧
      ∃ next, candle.run calls = .ok next ∧
        ∃ t' ≤ bound, Keeps interval first (trades ++ pushed calls) t' next := by
  induction calls generalizing candle trades t with
  | nil =>
    rw [pushed, List.filterMap_nil, List.append_nil]
    exact ⟨hchron, candle, rfl, t, htbound, h⟩
  | cons call rest ih =>
    obtain ⟨hcall, hrest⟩ := List.pairwise_cons.mp hsorted
    have htime := hlater call (by simp)
    have hboundrest : ∀ c ∈ rest, c.time ≤ bound := fun c hc => hbound c (by simp [hc])
    cases call with
    | pushTrade trade =>
      have hseen' : ∀ earlier ∈ trades ++ [trade], earlier.timeStamp ≤ trade.timeStamp := by
        intro earlier hmem
        rcases List.mem_append.mp hmem with hold | hnew
        · exact (hseen earlier hold).trans htime
        · exact (List.mem_singleton.mp hnew ▸ le_rfl)
      have hchron' := hchron.concat (hfirstt.trans htime) fun earlier hmem =>
        (hseen earlier hmem).trans htime
      obtain ⟨next, hnext, hkeeps⟩ := h.pushTrade hfirst hchron' htime
      have hstep := ih hkeeps hchron' (hfirstt.trans htime) hseen' hrest hcall hboundrest
        (hbound (.pushTrade trade) (by simp))
      have hpushed : trades ++ pushed (.pushTrade trade :: rest) =
          trades ++ [trade] ++ pushed rest := by simp [pushed]
      have hrun : candle.run (.pushTrade trade :: rest) = next.run rest := by
        simp only [MovingCandle.run, List.foldlM_cons, step, hnext, bind, Except.bind]
      rw [hpushed, hrun]
      exact hstep
    | getOhlcv time =>
      have hquery : t ≤ time := htime
      obtain ⟨next, last, hkeeps, -, hnext⟩ := h.getOhlcv hchron hquery
      have hstep := ih hkeeps hchron (hfirstt.trans htime)
        (fun trade hmem => (hseen trade hmem).trans htime) hrest hcall hboundrest
        (hbound (.getOhlcv time) (by simp))
      have hrun : candle.run (.getOhlcv time :: rest) = next.run rest := by
        simp only [MovingCandle.run, List.foldlM_cons, step, hnext, bind, Except.bind]
        rfl
      rw [hrun]
      exact hstep

/-- The conditions on the start of a window, with the trades after it taken in. -/
theorem openingAgrees_iff {initial : List TradeUpdate} {newest : TradeUpdate} {opening : ℚ}
    (hat : tradesAt start trades = initial ++ [newest])
    (hopening : (prices (initial ++ [newest])).head? = some opening) :
    OpeningAgrees start trades ↔ opening = newest.price ∧ totalVolume initial = 0 ∧
      ∀ price ∈ prices (initial ++ [newest] ++ tradesAfter start trades),
        Spans (prices (newest :: tradesAfter start trades)) price := by
  have hlast : (prices (initial ++ [newest])).getLast? = some newest.price := by simp [prices]
  have hfront : (initial ++ [newest]).getLast?.toList = [newest] := by simp
  constructor
  · intro h
    obtain ⟨ho, hv, hx⟩ := h
    rw [hat, hopening, hlast, Option.some.injEq] at ho
    rw [hat, List.dropLast_concat] at hv
    rw [hat, hfront, List.singleton_append] at hx
    refine ⟨ho, hv, ?_⟩
    intro price hmem
    rw [prices, List.map_append] at hmem
    rcases List.mem_append.mp hmem with hstart | hlater
    · exact hx price hstart
    · have hlisted : price ∈ prices (newest :: tradesAfter start trades) :=
        List.mem_cons_of_mem _ hlater
      exact ⟨⟨price, hlisted, le_rfl⟩, ⟨price, hlisted, le_rfl⟩⟩
  · intro h
    obtain ⟨ho, hv, hx⟩ := h
    refine ⟨?_, ?_, ?_⟩
    · rw [hat, hopening, hlast, ho]
    · rw [hat, List.dropLast_concat, hv]
    · intro price hmem
      rw [hat] at hmem ⊢
      rw [hfront, List.singleton_append]
      apply hx
      rw [prices, List.map_append]
      exact List.mem_append_left _ hmem

/-- Without a trade at the start, the last price before it is carried in on both sides. -/
private theorem candleOf_eq_windowCandle_of_tradesAt (hchron : Chronological first trades) {last : TradeUpdate}
    (hlast : (tradesUpTo start trades).getLast? = some last) (hat : tradesAt start trades = []) :
    candleOf start (fillTrade start last) (fillTrade start last :: tradesAfter start trades) =
      windowCandle start trades := by
  rw [← hchron.before_append_at, hat, List.append_nil] at hlast
  have hold : last.timeStamp < start := by
    simpa using (List.mem_filter.mp (List.mem_of_getLast? hlast)).2
  have hcarried : lastPrice 0 (tradesBefore start trades) = last.price := by
    rw [lastPrice, hlast]
    rfl
  unfold candleOf windowCandle
  rw [← hchron.at_append_after start, hat, fillTrade, if_pos hold, hcarried]
  simp [prices, totalVolume, lastPrice_eq_getLast?, List.getLast?_cons]

/-- The last trade at the start stands for all of them. -/
private theorem candleOf_eq_windowCandle_concat_iff (hchron : Chronological first trades)
    {initial : List TradeUpdate} {newest : TradeUpdate}
    (hat : tradesAt start trades = initial ++ [newest]) :
    candleOf start (fillTrade start newest) (fillTrade start newest :: tradesAfter start trades) =
        windowCandle start trades ↔ OpeningAgrees start trades := by
  have htime : newest.timeStamp = start := by
    have hmem : newest ∈ tradesAt start trades := by simp [hat]
    simpa using (List.mem_filter.mp hmem).2
  obtain ⟨opening, hopening⟩ : ∃ opening, (prices (initial ++ [newest])).head? = some opening := by
    cases initial with
    | nil => exact ⟨newest.price, rfl⟩
    | cons oldest _ => exact ⟨oldest.price, rfl⟩
  have hnewestmem : newest.price ∈ prices (newest :: tradesAfter start trades) := by
    simp [prices]
  have hopeningmem : opening ∈ prices (initial ++ [newest] ++ tradesAfter start trades) := by
    rw [prices, List.map_append]
    exact List.mem_append_left _ (List.mem_of_mem_head? hopening)
  have hpart : ∀ price ∈ prices (newest :: tradesAfter start trades),
      price ∈ prices (initial ++ [newest] ++ tradesAfter start trades) := by
    intro price hmem
    rw [List.append_assoc, prices, List.map_append]
    exact List.mem_append_right _ hmem
  have hextremes := extremes_eq_iff_of_subset hnewestmem hopeningmem hpart
  have hclose : lastPrice newest.price (newest :: tradesAfter start trades) =
      lastPrice opening (initial ++ [newest] ++ tradesAfter start trades) := by
    rw [lastPrice_append opening, lastPrice_concat]
    exact lastPrice_append newest.price [newest] (tradesAfter start trades)
  have hvolume : totalVolume (initial ++ [newest] ++ tradesAfter start trades) =
      totalVolume initial + totalVolume (newest :: tradesAfter start trades) := by
    simp [totalVolume]
  unfold candleOf windowCandle
  rw [openingAgrees_iff hat hopening, ← hextremes, ← hchron.at_append_after start, hat, hopening,
    fillTrade, if_neg (by omega)]
  simp only [Option.getD_some, OhlcvData.mk.injEq, true_and, hvolume, hclose, right_eq_add]
  constructor
  · intro h
    obtain ⟨ho, hmax, hmin, hv⟩ := h
    exact ⟨ho.symm, hv, hmax.symm, hmin.symm⟩
  · intro h
    obtain ⟨ho, hv, hmax, hmin⟩ := h
    exact ⟨ho.symm, hmax.symm, hmin.symm, hv⟩

/-- What is reported is the candle of the window exactly when the trades at its start agree. -/
theorem candleOf_eq_windowCandle_iff (hchron : Chronological first trades) {last : TradeUpdate}
    (hlast : (tradesUpTo start trades).getLast? = some last) :
    candleOf start (fillTrade start last) (fillTrade start last :: tradesAfter start trades) =
        windowCandle start trades ↔ OpeningAgrees start trades := by
  rcases List.eq_nil_or_concat (tradesAt start trades) with hat | ⟨initial, newest, hat⟩
  · have hagrees : OpeningAgrees start trades := by
      refine ⟨?_, ?_, ?_⟩ <;> simp [hat, prices, totalVolume]
    exact iff_of_true (candleOf_eq_windowCandle_of_tradesAt hchron hlast hat) hagrees
  · rw [List.concat_eq_append] at hat
    have hnewest : last = newest := by
      rw [← hchron.before_append_at, hat, ← List.append_assoc, List.getLast?_concat,
        Option.some.injEq] at hlast
      exact hlast.symm
    rw [hnewest]
    exact candleOf_eq_windowCandle_concat_iff hchron hat

/-- A query of a candle without trades reads the front of an empty deque. -/
theorem getOhlcv_new (interval time : ℤ) : (new interval).getOhlcv time = .error .undefined := rfl

/-- The moving candle is the candle of the window exactly when it is not queried before its first
trade and the trades at the start of the window agree. -/
theorem getOhlcv_eq_windowCandle_iff (hinterval : 0 < interval) {calls : List Call}
    {oldest : TradeUpdate} (holdest : (pushed calls).head? = some oldest)
    (hpositive : ∀ trade ∈ pushed calls, 0 < trade.timeStamp)
    (hsorted : calls.Pairwise fun earlier later => earlier.time ≤ later.time)
    (hlast : ∀ call ∈ calls, call.time ≤ t) :
    (∃ candle, (do (← (new interval).run calls).getOhlcv t) =
        .ok (windowCandle (max oldest.timeStamp (t - interval)) (pushed calls), candle)) ↔
      calls.head? = some (.pushTrade oldest) ∧
        OpeningAgrees (max oldest.timeStamp (t - interval)) (pushed calls) := by
  cases calls with
  | nil => simp [pushed] at holdest
  | cons call rest =>
    obtain ⟨hcall, hrest⟩ := List.pairwise_cons.mp hsorted
    cases call with
    | getOhlcv time =>
      have hfault : (new interval).run (.getOhlcv time :: rest) = .error .undefined := by
        rw [run, List.foldlM_cons, step, getOhlcv_new]
        rfl
      rw [hfault]
      constructor
      · intro h
        obtain ⟨_, hok⟩ := h
        cases hok
      · intro h
        cases h.1
    | pushTrade trade =>
      have hpushed : pushed (.pushTrade trade :: rest) = [trade] ++ pushed rest := rfl
      rw [hpushed] at holdest hpositive ⊢
      rw [List.singleton_append, List.head?_cons, Option.some.injEq] at holdest
      subst holdest
      obtain ⟨started, hstarted, hkeeps⟩ := pushTrade_new hinterval trade
      have hfirst : 0 < trade.timeStamp := hpositive trade (by simp)
      have hsingle : Chronological trade.timeStamp [trade] :=
        ⟨by simp, List.pairwise_singleton _ _⟩
      obtain ⟨hchron, next, hnext, t', ht', hkept⟩ := hkeeps.run hfirst hsingle le_rfl (by simp)
        hrest hcall (fun call hmem => hlast call (by simp [hmem])) (hlast (.pushTrade trade) (by simp))
      obtain ⟨queried, last, hqueried, hlastTrade, hreport⟩ := hkept.getOhlcv hchron ht'
      have hrun : (do (← (new interval).run (.pushTrade trade :: rest)).getOhlcv t) =
          .ok (candleOf queried.startTime (fillTrade queried.startTime last)
            (fillTrade queried.startTime last ::
              tradesAfter queried.startTime ([trade] ++ pushed rest)), queried) := by
        have hrest : (new interval).run (.pushTrade trade :: rest) = started.run rest := by
          simp only [run, List.foldlM_cons, step, hstarted, bind, Except.bind]
        rw [hrest, hnext]
        exact hreport
      have hagrees := candleOf_eq_windowCandle_iff hchron hlastTrade
      rw [hrun, ← hqueried.startTime_eq, ← hagrees]
      constructor
      · intro h
        obtain ⟨_, hok⟩ := h
        rw [Except.ok.injEq, Prod.mk.injEq] at hok
        exact ⟨rfl, hok.1⟩
      · intro h
        exact ⟨queried, by rw [h.2]⟩

/-- Of two trades in the first second only the later one is kept. -/
theorem getOhlcv_drops_first_second :
    (do (← (new 60).run [.pushTrade ⟨10, 1, 2⟩, .pushTrade ⟨10, 3, 4⟩]).getOhlcv 10) =
        .ok (⟨10, 3, 3, 3, 3, 4⟩, ⟨60, 0, 10, [⟨10, 3, 4⟩]⟩) ∧
      windowCandle (max 10 (10 - 60)) [⟨10, 1, 2⟩, ⟨10, 3, 4⟩] = ⟨10, 1, 3, 1, 3, 6⟩ := by
  decide +kernel

/-- A minute with trades in two seconds, none of them at its start. -/
theorem getOhlcv_eq_windowCandle_sparse :
    ∃ candle, (do (← (new 60).run [.pushTrade ⟨10, 1, 2⟩, .getOhlcv 11, .pushTrade ⟨75, 7, 8⟩,
        .pushTrade ⟨75, 6, 1⟩]).getOhlcv 80) =
      .ok (windowCandle (max 10 (80 - 60)) [⟨10, 1, 2⟩, ⟨75, 7, 8⟩, ⟨75, 6, 1⟩], candle) :=
  (@getOhlcv_eq_windowCandle_iff 60 80 (by decide) [.pushTrade ⟨10, 1, 2⟩, .getOhlcv 11,
    .pushTrade ⟨75, 7, 8⟩, .pushTrade ⟨75, 6, 1⟩] ⟨10, 1, 2⟩ rfl (by decide) (by decide)
    (by decide)).mpr ⟨rfl, by decide +kernel, by decide +kernel, by decide +kernel⟩

end MovingCandle

end MarketBlocks
