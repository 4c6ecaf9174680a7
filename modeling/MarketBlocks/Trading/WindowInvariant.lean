import MarketBlocks.Library.Calls
import MarketBlocks.Library.Rounding
import MarketBlocks.Library.WeightedSum
import MarketBlocks.Trading.MovingWindow

/-!
# The invariant of a moving window

Behind every call of a run that starts with a trade and is not reset, the deque is in order from the
start of the window on, some trade is an offset trade, and what the candle shows lies within its
extremes. A further query at the same time leaves everything as it is.
-/

namespace MarketBlocks.MovingCandle

open Library

/-! ## Queries in the arithmetic of the machine -/

/-- `get_ohlcv`, with the volume added up in a rounded arithmetic. -/
def getOhlcvIn (arithmetic : Rounding) (time : ℤ) (candle : MovingCandle) :
    Except Fault (OhlcvData × MovingCandle) := do
  let (ohlcv, candle) ← candle.getOhlcv time
  let volume := arithmetic.sum (candle.getOffsetTrades.map TradeUpdate.volume)
  return ({ ohlcv with volume }, candle)

/-- `get_quote_volume`, with the costs and their sum in a rounded arithmetic. -/
def getQuoteVolumeIn (arithmetic : Rounding) (time : ℤ) (candle : MovingCandle) :
    Except Fault (ℚ × MovingCandle) := do
  let candle ← candle.updateValues time
  return (arithmetic.sumOfProducts TradeUpdate.price TradeUpdate.volume candle.getOffsetTrades, candle)

/-- What rounding may cost the bounds of a quote volume: what is lost by its products and their sum, and
by the volume times the price. The prices are no larger than the greater one of the extremes. -/
def slack (arithmetic : Rounding) (ohlcv : OhlcvData) (trades : List TradeUpdate) : ℚ :=
  let price := max |ohlcv.low| |ohlcv.high|
  arithmetic.productLoss trades.length (price * totalVolume trades) +
    price * arithmetic.loss trades.length (totalVolume trades)

/-- What a candle shows lies within its extremes, and so does the mean price up to rounding. -/
structure Bounded (slack : ℚ) (ohlcv : OhlcvData) (quoteVolume : ℚ) : Prop where
  low_le_open : ohlcv.low ≤ ohlcv.open
  open_le_high : ohlcv.open ≤ ohlcv.high
  low_le_close : ohlcv.low ≤ ohlcv.close
  close_le_high : ohlcv.close ≤ ohlcv.high
  low_mul_volume_le : ohlcv.low * ohlcv.volume ≤ quoteVolume + slack
  le_high_mul_volume : quoteVolume ≤ ohlcv.high * ohlcv.volume + slack

/-- The state behind a call at `t`. -/
structure WindowInvariant (arithmetic : Rounding) (interval offset t : ℤ) (candle : MovingCandle) :
    Prop where
  nonempty : candle.trades ≠ []
  sorted : candle.trades.Pairwise fun earlier later => earlier.timeStamp ≤ later.timeStamp
  front_eq : candle.trades.head?.map TradeUpdate.timeStamp = some candle.startTime
  time_le : t ≤ candle.startTime + interval + offset
  offsetTrades_nonempty : candle.getOffsetTrades ≠ []
  queries : ∃ ohlcv quoteVolume, candle.getOhlcvIn arithmetic t = .ok (ohlcv, candle) ∧
    candle.getQuoteVolumeIn arithmetic t = .ok (quoteVolume, candle) ∧
      Bounded (slack arithmetic ohlcv candle.getOffsetTrades) ohlcv quoteVolume

variable (arithmetic : Rounding) {interval offset first t : ℤ} {candle next : MovingCandle}
  {trade : TradeUpdate} {before after operations : List Operation} {operation : Operation}

/-- Added up exactly, the volume is the one of the model. -/
theorem getOhlcvIn_exact (t : ℤ) (candle : MovingCandle) :
    candle.getOhlcvIn .exact t = candle.getOhlcv t := by
  unfold getOhlcvIn getOhlcv
  cases candle.updateValues t with
  | error fault => rfl
  | ok moved =>
    simp only [bind, Except.bind, Rounding.sum_exact]
    cases htrades : moved.trades with
    | nil =>
      have hnone : moved.getOffsetTrades = [] := by simp [getOffsetTrades, htrades]
      rw [List.isEmpty_nil, if_pos rfl]
      simp only [pure, Except.pure, hnone]
      rfl
    | cons front rest =>
      rw [List.isEmpty_cons, if_neg Bool.false_ne_true]
      cases hoffset : moved.getOffsetTrades with
      | nil => rfl
      | cons first later =>
        simp only [pure, Except.pure, hoffset]
        rfl

/-- Added up exactly, the quote volume is the one of the model. -/
theorem getQuoteVolumeIn_exact (t : ℤ) (candle : MovingCandle) :
    candle.getQuoteVolumeIn .exact t = candle.getQuoteVolume t := by
  unfold getQuoteVolumeIn getQuoteVolume
  cases candle.updateValues t with
  | error fault => rfl
  | ok moved =>
    simp only [bind, Except.bind, Rounding.sumOfProducts_exact]
    rfl

/-- In exact arithmetic the slack vanishes, and the bounds hold as they stand. -/
private theorem slack_exact (ohlcv : OhlcvData) (trades : List TradeUpdate) :
    slack .exact ohlcv trades = 0 := by
  rw [slack, Rounding.productLoss_exact, Rounding.loss_exact, mul_zero, add_zero]

/-- In exact arithmetic the quote volume lies between the extremes times the volume. -/
theorem WindowInvariant.quoteVolume_exact (h : WindowInvariant .exact interval offset t candle) :
    ∃ ohlcv quoteVolume, candle.getOhlcv t = .ok (ohlcv, candle) ∧
      candle.getQuoteVolume t = .ok (quoteVolume, candle) ∧
        ohlcv.low * ohlcv.volume ≤ quoteVolume ∧ quoteVolume ≤ ohlcv.high * ohlcv.volume := by
  obtain ⟨ohlcv, quoteVolume, hohlcv, hquote, hbounded⟩ := h.queries
  rw [getOhlcvIn_exact] at hohlcv
  rw [getQuoteVolumeIn_exact] at hquote
  have hlow := hbounded.low_mul_volume_le
  have hhigh := hbounded.le_high_mul_volume
  rw [slack_exact, add_zero] at hlow hhigh
  exact ⟨ohlcv, quoteVolume, hohlcv, hquote, hlow, hhigh⟩

/-- The volume that is added up is off by no more than its loss. -/
private theorem abs_sum_volume_sub_le {trades : List TradeUpdate}
    (hvolume : ∀ trade ∈ trades, 0 ≤ trade.volume) :
    |arithmetic.sum (trades.map TradeUpdate.volume) - totalVolume trades| ≤
      arithmetic.loss trades.length (totalVolume trades) := by
  have hmagnitude : Rounding.magnitude (trades.map TradeUpdate.volume) = totalVolume trades := by
    rw [Rounding.magnitude, totalVolume, List.map_map]
    exact congrArg List.sum (List.map_congr_left fun trade hmem => abs_of_nonneg (hvolume trade hmem))
  have h := arithmetic.abs_sum_sub_le (trades.map TradeUpdate.volume)
  rwa [List.length_map, hmagnitude] at h

/-- The costs that are added up are off by no more than the loss at the greatest price. -/
theorem abs_sumOfProducts_sub_le {trades : List TradeUpdate} {bound : ℚ}
    (hvolume : ∀ trade ∈ trades, 0 ≤ trade.volume) (hbound : ∀ trade ∈ trades, |trade.price| ≤ bound) :
    |arithmetic.sumOfProducts TradeUpdate.price TradeUpdate.volume trades -
        (trades.map fun trade => trade.price * trade.volume).sum| ≤
      arithmetic.productLoss trades.length (bound * totalVolume trades) := by
  have hmagnitude : Rounding.magnitude (trades.map fun trade => trade.price * trade.volume) ≤
      bound * totalVolume trades := by
    have habs : Rounding.magnitude (trades.map fun trade => trade.price * trade.volume) =
        (trades.map fun trade => |trade.price| * trade.volume).sum := by
      rw [Rounding.magnitude, List.map_map]
      refine congrArg List.sum (List.map_congr_left fun trade hmem => ?_)
      rw [Function.comp_apply, abs_mul, abs_of_nonneg (hvolume trade hmem)]
    rw [habs]
    exact sum_mul_le_mul_sum hvolume hbound
  exact (arithmetic.abs_sumOfProducts_sub_le _ _ trades).trans
    (arithmetic.productLoss_mono trades.length hmagnitude)

/-- A candle of trades is bounded up to rounding. -/
theorem candleOf_bounded (timeStamp : ℤ) (front : TradeUpdate) (later : List TradeUpdate)
    (hvolume : ∀ trade ∈ front :: later, 0 ≤ trade.volume) :
    let ohlcv := { candleOf timeStamp front (front :: later) with
      volume := arithmetic.sum ((front :: later).map TradeUpdate.volume) }
    Bounded (slack arithmetic ohlcv (front :: later)) ohlcv
      (arithmetic.sumOfProducts TradeUpdate.price TradeUpdate.volume (front :: later)) := by
  intro ohlcv
  have hlow : ∀ trade ∈ front :: later, ohlcv.low ≤ trade.price := fun trade hmem =>
    (foldl_min_le_iff _ _ _).mpr (.inr ⟨trade.price, List.mem_map_of_mem hmem, le_rfl⟩)
  have hhigh : ∀ trade ∈ front :: later, trade.price ≤ ohlcv.high := fun trade hmem =>
    (le_foldl_max_iff _ _ _).mpr (.inr ⟨trade.price, List.mem_map_of_mem hmem, le_rfl⟩)
  obtain ⟨last, hlast, hclose⟩ : ∃ last ∈ front :: later,
      lastPrice front.price (front :: later) = last.price := by
    refine ⟨(front :: later).getLast (List.cons_ne_nil _ _), List.getLast_mem _, ?_⟩
    rw [lastPrice, List.getLast?_eq_getLast_of_ne_nil (List.cons_ne_nil _ _)]
    rfl
  -- the exact bounds, and what each of the three roundings in them is off by
  have hexactLow := mul_sum_le_sum_mul hvolume hlow
  have hexactHigh := sum_mul_le_mul_sum hvolume hhigh
  have hprice : ∀ trade ∈ front :: later, |trade.price| ≤ max |ohlcv.low| |ohlcv.high| := fun trade hmem =>
    abs_le_max_abs_abs (hlow trade hmem) (hhigh trade hmem)
  have hvolumeLoss : |ohlcv.volume - totalVolume (front :: later)| ≤
      arithmetic.loss (front :: later).length (totalVolume (front :: later)) :=
    abs_sum_volume_sub_le arithmetic hvolume
  have hcostLoss := abs_sumOfProducts_sub_le arithmetic hvolume hprice
  have hscaled : ∀ price, |price| ≤ max |ohlcv.low| |ohlcv.high| →
      |price * ohlcv.volume - price * totalVolume (front :: later)| ≤ max |ohlcv.low| |ohlcv.high| *
        arithmetic.loss (front :: later).length (totalVolume (front :: later)) := by
    intro price hle
    rw [← mul_sub, abs_mul]
    exact mul_le_mul hle hvolumeLoss (abs_nonneg _) ((abs_nonneg price).trans hle)
  have hscaledLow := abs_le.mp (hscaled ohlcv.low (le_max_left _ _))
  have hscaledHigh := abs_le.mp (hscaled ohlcv.high (le_max_right _ _))
  have hcost := abs_le.mp hcostLoss
  change ohlcv.low * totalVolume (front :: later) ≤ _ at hexactLow
  change _ ≤ ohlcv.high * totalVolume (front :: later) at hexactHigh
  refine ⟨hlow front (by simp), hhigh front (by simp), (hlow last hlast).trans_eq hclose.symm,
    hclose.trans_le (hhigh last hlast), ?_, ?_⟩
  · unfold slack
    linarith [hscaledLow.2, hcost.1]
  · unfold slack
    linarith [hscaledHigh.1, hcost.2]

/-- An open window has the invariant as long as the offset does not reach beyond it. -/
theorem Opened.windowInvariant (h : Opened interval offset first t candle) (hinterval : 0 < interval)
    (hoffset : offset ≤ interval) (hvolume : ∀ trade ∈ candle.trades, 0 ≤ trade.volume) :
    WindowInvariant arithmetic interval offset t candle := by
  obtain ⟨front, rest, htrades, hfront, hsorted, hrest⟩ := h.trades_eq
  have hnonempty := (h.getOffsetTrades_ne_nil_iff hinterval).mpr hoffset
  have hqueries : ∃ ohlcv quoteVolume, candle.getOhlcvIn arithmetic t = .ok (ohlcv, candle) ∧
      candle.getQuoteVolumeIn arithmetic t = .ok (quoteVolume, candle) ∧
        Bounded (slack arithmetic ohlcv candle.getOffsetTrades) ohlcv quoteVolume := by
    rw [getOhlcvIn, getQuoteVolumeIn, h.getOhlcv_self, h.updateValues_self]
    have hkept : ∀ trade ∈ candle.getOffsetTrades, 0 ≤ trade.volume := fun trade hmem =>
      hvolume trade (mem_trades_of_mem_getOffsetTrades hmem)
    cases hoffsetTrades : candle.getOffsetTrades with
    | nil => exact absurd hoffsetTrades hnonempty
    | cons first' later =>
      rw [hoffsetTrades] at hkept
      have hbounded := candleOf_bounded arithmetic (candle.startTime - candle.offset) first' later hkept
      refine ⟨_, _, ?_, ?_, hbounded⟩
      · simp only [bind, Except.bind, hoffsetTrades]
        rfl
      · simp only [bind, Except.bind, hoffsetTrades]
        rfl
  refine ⟨h.trades_ne_nil, ?_, ?_, ?_, hnonempty, hqueries⟩
  · rw [htrades]
    exact List.pairwise_cons.mpr ⟨fun trade hmem => hfront ▸ (hrest trade hmem).1.le, hsorted⟩
  · rw [htrades, List.head?_cons, Option.map_some, hfront]
  · have hstart := h.startTime_eq
    omega

/-- What is popped comes off the front. -/
private theorem popOld_suffix (start : ℤ) (trades : List TradeUpdate) : popOld start trades <:+ trades := by
  induction trades with
  | nil => exact List.suffix_rfl
  | cons front rest ih =>
    cases rest with
    | nil => exact List.suffix_rfl
    | cons second rest =>
      unfold popOld
      split
      · exact ih.trans (List.suffix_cons _ _)
      · exact List.suffix_rfl

/-- No call makes a volume negative. -/
theorem updateValues_volume {time : ℤ} (hvolume : ∀ trade ∈ candle.trades, 0 ≤ trade.volume)
    (hnext : candle.updateValues time = .ok next) : ∀ trade ∈ next.trades, 0 ≤ trade.volume := by
  unfold updateValues at hnext
  dsimp only at hnext
  generalize (if time - candle.offset ≥ candle.startTime + candle.interval
    then time - candle.interval - candle.offset else candle.startTime) = start at hnext
  have hkept : ∀ trade ∈ popOld start candle.trades, 0 ≤ trade.volume := fun trade hmem =>
    hvolume trade ((popOld_suffix start candle.trades).subset hmem)
  cases hpopped : popOld start candle.trades with
  | nil =>
    rw [hpopped] at hnext
    cases hnext
  | cons front rest =>
    rw [hpopped] at hnext hkept
    cases hnext
    intro trade hmem
    rcases List.mem_cons.mp hmem with rfl | hrest
    · unfold fillTrade
      split
      · exact le_rfl
      · exact hkept front (by simp)
    · exact hkept trade (by simp [hrest])

/-- A candle is taken off the window that has been moved on. -/
theorem updateValues_of_getOhlcv {time : ℤ} {answer : OhlcvData × MovingCandle}
    (h : candle.getOhlcv time = .ok answer) : candle.updateValues time = .ok answer.2 := by
  obtain ⟨moved, hmoved, hanswer⟩ := exists_of_bind_eq_ok h
  rw [hmoved]
  cases hempty : moved.trades.isEmpty
  · simp only [hempty, Bool.false_eq_true, if_false] at hanswer
    cases hoffsetTrades : moved.getOffsetTrades with
    | nil =>
      rw [hoffsetTrades] at hanswer
      cases hanswer
    | cons front later =>
      rw [hoffsetTrades] at hanswer
      cases hanswer
      rfl
  · simp only [hempty, if_true] at hanswer
    cases hanswer
    rfl

/-- No call makes a volume negative. -/
theorem perform_volume (hvolume : ∀ trade ∈ candle.trades, 0 ≤ trade.volume)
    (hpushed : ∀ trade, operation = .pushTrade trade → 0 ≤ trade.volume)
    (hnext : candle.perform operation = .ok next) : ∀ trade ∈ next.trades, 0 ≤ trade.volume := by
  cases operation with
  | pushTrade trade =>
    apply updateValues_volume _ hnext
    intro earlier hmem
    rcases List.mem_append.mp hmem with hold | hnew
    · exact hvolume earlier hold
    · exact List.mem_singleton.mp hnew ▸ hpushed trade rfl
  | getOhlcv time =>
    obtain ⟨answer, hanswer, hnext⟩ := exists_of_bind_eq_ok hnext
    cases hnext
    exact updateValues_volume hvolume (updateValues_of_getOhlcv hanswer)
  | getQuoteVolume time =>
    obtain ⟨answer, hanswer, hnext⟩ := exists_of_bind_eq_ok hnext
    obtain ⟨moved, hmoved, hanswer⟩ := exists_of_bind_eq_ok hanswer
    cases hanswer
    cases hnext
    exact updateValues_volume hvolume hmoved
  | reset =>
    cases hnext
    simp [reset]

/-- No run makes a volume negative. -/
theorem performAll_volume (hpushed : ∀ trade, .pushTrade trade ∈ operations → 0 ≤ trade.volume)
    (hrun : (new interval offset).performAll operations = .ok candle) :
    ∀ trade ∈ candle.trades, 0 ≤ trade.volume := by
  apply foldlM_invariant (I := fun _ candle => ∀ trade ∈ candle.trades, 0 ≤ trade.volume)
    (by simp [new]) _ hrun
  intro before operation after middle next hsplit hvolume
  exact perform_volume hvolume fun trade heq => hpushed trade (by simp [hsplit, heq])

/-- Without a reset, what follows a first push is filled. -/
theorem filled_of_cons {first : TradeUpdate} (hreset : .reset ∉ operations) :
    Filled (.pushTrade first :: operations) :=
  ⟨[], .pushTrade first, operations, rfl, ⟨first, rfl⟩, fun _ hmem heq => hreset (heq ▸ hmem)⟩

/-- A window moves forward. -/
theorem updateValues_startTime {time : ℤ} (hnext : candle.updateValues time = .ok next) :
    candle.startTime ≤ next.startTime := by
  unfold updateValues at hnext
  dsimp only at hnext
  split at hnext
  · cases hnext
  · cases hnext
    dsimp only
    split <;> omega

/-- The start of the window does not fall. -/
theorem perform_startTime (hreset : operation ≠ .reset) (hpositive : ∀ time ∈ operation.time?, 0 < time)
    (hnext : candle.perform operation = .ok next) : candle.startTime ≤ next.startTime := by
  cases operation with
  | pushTrade trade =>
    have hmoved := updateValues_startTime hnext
    have htime := hpositive trade.timeStamp rfl
    dsimp only at hmoved
    split at hmoved <;> omega
  | getOhlcv time =>
    obtain ⟨answer, hanswer, hnext⟩ := exists_of_bind_eq_ok hnext
    cases hnext
    exact updateValues_startTime (updateValues_of_getOhlcv hanswer)
  | getQuoteVolume time =>
    obtain ⟨answer, hanswer, hnext⟩ := exists_of_bind_eq_ok hnext
    obtain ⟨moved, hmoved, hanswer⟩ := exists_of_bind_eq_ok hanswer
    cases hanswer
    cases hnext
    exact updateValues_startTime hmoved
  | reset => exact absurd rfl hreset

/-- Every call but a reset has a time. -/
theorem exists_time_of_ne_reset (hreset : operation ≠ .reset) : ∃ t, operation.time? = some t := by
  cases operation with
  | pushTrade trade => exact ⟨trade.timeStamp, rfl⟩
  | getOhlcv time => exact ⟨time, rfl⟩
  | getQuoteVolume time => exact ⟨time, rfl⟩
  | reset => exact absurd rfl hreset

/-- A call of such a run is the first push or comes behind it. -/
theorem filled_of_split {oldest : TradeUpdate} {calls : List Operation}
    (hsplit : .pushTrade oldest :: calls = before ++ operation :: after) (hreset : .reset ∉ calls) :
    before = [] ∧ operation = .pushTrade oldest ∨ Filled before := by
  cases before with
  | nil =>
    cases hsplit
    exact .inl ⟨rfl, rfl⟩
  | cons first rest =>
    obtain ⟨rfl, hrest⟩ := List.cons_eq_cons.mp hsplit
    exact .inr (filled_of_cons fun hmem => hreset (by simp [hrest, hmem]))

/-- A call of such a run can be answered. -/
private theorem answerable_of_split {oldest : TradeUpdate} {calls : List Operation}
    (hsplit : .pushTrade oldest :: calls = before ++ operation :: after) (hreset : .reset ∉ calls)
    (hwithin : offset ≤ interval) : Answerable interval offset before operation := by
  rcases filled_of_split hsplit hreset with ⟨-, rfl⟩ | hbefore
  · trivial
  · cases operation with
    | pushTrade trade => trivial
    | getOhlcv time => exact ⟨hbefore, hwithin⟩
    | getQuoteVolume time => exact hbefore
    | reset => trivial

/-- No call of a run without a reset is one. -/
private theorem ne_reset_of_split {oldest : TradeUpdate} {calls : List Operation}
    (hsplit : .pushTrade oldest :: calls = before ++ operation :: after) (hreset : .reset ∉ calls) :
    operation ≠ .reset := by
  have hlisted : operation ∈ Operation.pushTrade oldest :: calls := by simp [hsplit]
  rintro rfl
  exact hreset (by simpa using hlisted)

/-- Behind every call of a run that starts with a push and has no reset, the window is as it should be,
in every arithmetic. -/
theorem run_invariant (hinterval : 0 < interval) (hoffset : 0 ≤ offset) (hwithin : offset ≤ interval)
    {oldest : TradeUpdate} {calls : List Operation} (hreset : .reset ∉ calls)
    (horder : InOrder (.pushTrade oldest :: calls))
    (hvolume : ∀ trade, .pushTrade trade ∈ Operation.pushTrade oldest :: calls → 0 ≤ trade.volume)
    (hsplit : .pushTrade oldest :: calls = before ++ operation :: after) :
    ∃ t candle next, operation.time? = some t ∧
      (new interval offset).performAll before = .ok candle ∧ candle.perform operation = .ok next ∧
        candle.startTime ≤ next.startTime ∧ WindowInvariant arithmetic interval offset t next := by
  have hnotreset := ne_reset_of_split hsplit hreset
  obtain ⟨t, ht⟩ := exists_time_of_ne_reset hnotreset
  obtain ⟨last, hlast⟩ := (performAll_returns_iff hinterval hoffset horder).mpr
    fun _ _ _ hsplit => answerable_of_split hsplit hreset hwithin
  rw [hsplit] at hlast
  obtain ⟨candle, next, hcandle, hnext⟩ := exists_step_of_foldlM hlast
  have hrun : (new interval offset).performAll (before ++ [operation]) = .ok next :=
    (foldlM_concat_eq_ok_iff before operation).mpr ⟨candle, hcandle, hnext⟩
  have hpart : .pushTrade oldest :: calls = before ++ [operation] ++ after := by
    rw [hsplit, List.append_cons]
  have hfilled' : Filled (before ++ [operation]) := by
    rw [filled_concat]
    rcases filled_of_split hsplit hreset with ⟨-, hpush⟩ | hbefore
    · exact .inl ⟨oldest, hpush⟩
    · exact .inr ⟨hnotreset, hbefore⟩
  -- the window is open at the time of the call, which is the last one
  obtain ⟨first, -, t', ht', -, hopened⟩ :=
    (tracks_performAll hinterval hoffset (horder.of_prefix hpart) hrun).filled hfilled'
  rw [times_concat, ht, Option.toList_some, List.getLast?_concat, Option.some.injEq] at ht'
  subst ht'
  refine ⟨t, candle, next, ht, hcandle, hnext, ?_, ?_⟩
  · exact perform_startTime hnotreset (fun time htime => ((horder.of_split hsplit).2 time htime).1) hnext
  · apply hopened.windowInvariant arithmetic hinterval hwithin
    apply performAll_volume _ hrun
    intro trade hmem
    apply hvolume
    rw [hpart]
    exact List.mem_append_left _ hmem

/-- A window that a query rolls on, in the arithmetic of the machine. -/
theorem run_invariant_rolled :
    ∃ t candle next, (Operation.getQuoteVolume 90).time? = some t ∧
      (new 60 20).performAll [.pushTrade ⟨10, 1, 2⟩, .getOhlcv 12, .pushTrade ⟨20, 5, 6⟩] = .ok candle ∧
        candle.perform (.getQuoteVolume 90) = .ok next ∧ candle.startTime ≤ next.startTime ∧
          WindowInvariant .double 60 20 t next := by
  apply @run_invariant .double 60 20 [.pushTrade ⟨10, 1, 2⟩, .getOhlcv 12, .pushTrade ⟨20, 5, 6⟩]
    [.pushTrade ⟨91, 2, 1⟩] (.getQuoteVolume 90) (by decide) (by decide) (by decide) ⟨10, 1, 2⟩
    [.getOhlcv 12, .pushTrade ⟨20, 5, 6⟩, .getQuoteVolume 90, .pushTrade ⟨91, 2, 1⟩]
  · decide
  · exact ⟨by decide, by decide⟩
  · intro trade hmem
    simp only [List.mem_cons, Operation.pushTrade.injEq, reduceCtorEq, List.not_mem_nil, or_false,
      false_or] at hmem
    rcases hmem with rfl | rfl | rfl <;> decide
  · rfl

/-- Two trades at the double nearest to a tenth: the quote volume that is added up falls below the low
times the volume that is added up. -/
theorem doubles_below_low :
    let tenth := Rounding.double.round (1 / 10)
    let volume := Rounding.double.round (7 / 10)
    let candle : MovingCandle := ⟨60, 0, 10, [⟨10, tenth, tenth⟩, ⟨11, tenth, volume⟩]⟩
    (new 60).performAll [.pushTrade ⟨10, tenth, tenth⟩, .pushTrade ⟨11, tenth, volume⟩] = .ok candle ∧
      ∃ ohlcv quoteVolume, candle.getOhlcvIn .double 11 = .ok (ohlcv, candle) ∧
        candle.getQuoteVolumeIn .double 11 = .ok (quoteVolume, candle) ∧
          quoteVolume < ohlcv.low * ohlcv.volume ∧
          quoteVolume < Rounding.double.round (ohlcv.low * ohlcv.volume) := by
  intro tenth volume candle
  refine ⟨by decide +kernel, ⟨10, tenth, tenth, tenth, tenth, 7205759403792793 / 2 ^ 53⟩,
    2882303761517117 / 2 ^ 55, by decide +kernel, by decide +kernel, by decide +kernel, by decide +kernel⟩

end MarketBlocks.MovingCandle
