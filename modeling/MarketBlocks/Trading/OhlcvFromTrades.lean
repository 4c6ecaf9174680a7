import MarketBlocks.Library.Grid
import MarketBlocks.Library.Runs
import MarketBlocks.Trading.Market
import Mathlib.Algebra.BigOperators.Group.List.Basic
import Mathlib.Algebra.Order.Field.Rat
import Mathlib.Algebra.Order.Ring.Unbundled.Rat

/-!
# Candles built from trades

`ohlcv_from_trades` goes on from a candle: a trade changes the current candle, and a trade or a
query behind its end opens the candle of the grid that it falls into. Sums of volumes are exact
here.
-/

namespace MarketBlocks

open Library

/-- `ohlcv_from_trades`. -/
structure OhlcvFromTrades where
  startTime : ℤ
  «open» : ℚ
  high : ℚ
  low : ℚ
  close : ℚ
  volume : ℚ
  interval : ℤ
  lastTime : ℤ
  deriving DecidableEq, Repr

namespace OhlcvFromTrades

/-- The constructor from a first candle. -/
def ofCandle (startOhlcv : OhlcvData) (interval : ℤ) : OhlcvFromTrades where
  startTime := startOhlcv.timeStamp
  «open» := startOhlcv.open
  high := startOhlcv.high
  low := startOhlcv.low
  close := startOhlcv.close
  volume := startOhlcv.volume
  interval := interval
  lastTime := startOhlcv.timeStamp

/-- The division of the source truncates. -/
def startNewCandle (currentTime : ℤ) (candle : OhlcvFromTrades) : OhlcvFromTrades :=
  { candle with
    startTime := candle.startTime
      + (currentTime - candle.startTime).tdiv candle.interval * candle.interval
    «open» := candle.close
    high := candle.close
    low := candle.close
    volume := 0 }

/-- The candle that is current at a time. -/
def atTime (time : ℤ) (candle : OhlcvFromTrades) : OhlcvFromTrades :=
  if time ≥ candle.startTime + candle.interval then candle.startNewCandle time else candle

/-- `add_trade`: a trade before the window is dropped, and one at its start opens it. -/
def addTrade (time : ℤ) (price volume : ℚ) (candle : OhlcvFromTrades) : OhlcvFromTrades :=
  if time < candle.startTime then candle
  else
    let candle := candle.atTime time
    let candle := if time = candle.startTime then { candle with «open» := price } else candle
    let candle := { candle with
      high := max candle.high price
      low := min candle.low price
      volume := candle.volume + volume }
    if time > candle.lastTime then { candle with close := price, lastTime := time } else candle

/-- The fields that `get_ohlcv` reads. -/
def ohlcv (candle : OhlcvFromTrades) : OhlcvData where
  timeStamp := candle.startTime
  «open» := candle.open
  high := candle.high
  low := candle.low
  close := candle.close
  volume := candle.volume

/-- `get_ohlcv` asserts that the time is not before the candle, which is up to its callers. -/
def getOhlcv (currentTime : ℤ) (candle : OhlcvFromTrades) : OhlcvData × OhlcvFromTrades :=
  let candle := candle.atTime currentTime
  (candle.ohlcv, candle)

/-- A use of the builder. -/
inductive Call where
  | addTrade (time : ℤ) (price volume : ℚ)
  | getOhlcv (currentTime : ℤ)
  deriving DecidableEq, Repr

/-- The time that a call carries. -/
def Call.time : Call → ℤ
  | .addTrade time _ _ => time
  | .getOhlcv currentTime => currentTime

/-- A call, whose answer is dropped. -/
def step (candle : OhlcvFromTrades) : Call → OhlcvFromTrades
  | .addTrade time price volume => candle.addTrade time price volume
  | .getOhlcv currentTime => (candle.getOhlcv currentTime).2

/-- A run of calls. -/
def run (candle : OhlcvFromTrades) (calls : List Call) : OhlcvFromTrades :=
  calls.foldl step candle

/-- The volume that a call adds to the candle of its time. -/
def Call.accepted (candle : OhlcvFromTrades) : Call → List ℚ
  | .addTrade time _ volume => if time < candle.startTime then [] else [volume]
  | .getOhlcv _ => []

/-- The volumes accepted since the current candle was opened: a call that opens a candle leaves
only its own. -/
def acceptedVolumes (candle : OhlcvFromTrades) (volumes : List ℚ) : List Call → List ℚ
  | [] => volumes
  | call :: rest =>
    let next := candle.step call
    acceptedVolumes next
      ((if next.startTime = candle.startTime then volumes else []) ++ call.accepted candle) rest

variable {candle : OhlcvFromTrades} {time : ℤ} {price volume : ℚ}

/-! ## What a roll and a trade do to the fields -/

/-- Moving on keeps the interval. -/
@[simp] theorem interval_atTime : (candle.atTime time).interval = candle.interval := by
  unfold atTime
  split <;> rfl

/-- Moving on keeps the close. -/
@[simp] theorem close_atTime : (candle.atTime time).close = candle.close := by
  unfold atTime
  split <;> rfl

/-- Moving on keeps the time of the last trade. -/
@[simp] theorem lastTime_atTime : (candle.atTime time).lastTime = candle.lastTime := by
  unfold atTime
  split <;> rfl

/-- From its start on, the start of the candle that is current lies on the grid of the starts. -/
theorem startTime_atTime (htime : candle.startTime ≤ time) :
    (candle.atTime time).startTime = gridTime candle.startTime candle.interval time := by
  unfold atTime
  split
  · simp only [startNewCandle, gridTime]
    rw [Int.tdiv_eq_ediv_of_nonneg (by omega)]
  · next hcurrent => exact (gridTime_unique rfl htime (by omega)).symm

/-- A candle that is still current is not touched. -/
theorem atTime_of_startTime_eq (hinterval : 0 < candle.interval) (htime : candle.startTime ≤ time)
    (hsame : (candle.atTime time).startTime = candle.startTime) :
    candle.atTime time = candle := by
  have hafter := lt_gridTime_add candle.startTime time hinterval
  rw [← startTime_atTime htime, hsame] at hafter
  exact if_neg (not_le.mpr hafter)

/-- A candle that is opened starts from the close of the one before. -/
theorem atTime_of_startTime_ne (hne : (candle.atTime time).startTime ≠ candle.startTime) :
    candle.atTime time = candle.startNewCandle time := by
  unfold atTime at hne ⊢
  split
  · rfl
  · next hcurrent =>
    rw [if_neg hcurrent] at hne
    exact absurd rfl hne

/-- A trade before the candle changes nothing. -/
theorem addTrade_of_lt (h : time < candle.startTime) :
    candle.addTrade time price volume = candle := if_pos h

/-- A trade that is not before the candle, field by field. -/
theorem addTrade_eq (h : candle.startTime ≤ time) :
    candle.addTrade time price volume =
      { candle.atTime time with
        «open» := if time = (candle.atTime time).startTime then price else (candle.atTime time).open
        high := max (candle.atTime time).high price
        low := min (candle.atTime time).low price
        close := if time > candle.lastTime then price else candle.close
        volume := (candle.atTime time).volume + volume
        lastTime := max candle.lastTime time } := by
  have hlast : (candle.atTime time).lastTime = candle.lastTime := lastTime_atTime
  have hclose : (candle.atTime time).close = candle.close := close_atTime
  unfold addTrade
  rw [if_neg (not_lt.mpr h)]
  by_cases hopen : time = (candle.atTime time).startTime
  · by_cases hlater : time > candle.lastTime
    · simp only [if_pos hopen, hlast, if_pos hlater, max_eq_right hlater.le]
    · simp only [if_pos hopen, hlast, if_neg hlater, hclose, max_eq_left (not_lt.mp hlater)]
  · by_cases hlater : time > candle.lastTime
    · simp only [if_neg hopen, hlast, if_pos hlater, max_eq_right hlater.le]
    · simp only [if_neg hopen, hlast, if_neg hlater, hclose, max_eq_left (not_lt.mp hlater)]

/-! ## Runs -/

/-- What holds of every candle that is built from the one with start `origin`. -/
structure Sound (origin interval : ℤ) (candle : OhlcvFromTrades) : Prop where
  interval_eq : candle.interval = interval
  start_modEq : candle.startTime ≡ origin [ZMOD interval]
  low_le_open : candle.low ≤ candle.open
  open_le_high : candle.open ≤ candle.high
  low_le_close : candle.low ≤ candle.close
  close_le_high : candle.close ≤ candle.high

variable {origin interval : ℤ}

/-- Moving on keeps the builder sound. -/
theorem Sound.atTime (h : Sound origin interval candle) (htime : candle.startTime ≤ time) :
    Sound origin interval (candle.atTime time) := by
  have hstart := startTime_atTime htime
  by_cases hopened : time ≥ candle.startTime + candle.interval
  · have hnew : candle.atTime time = candle.startNewCandle time := if_pos hopened
    have hmod : (candle.startNewCandle time).startTime ≡ origin [ZMOD interval] := by
      rw [← hnew, hstart, h.interval_eq]
      exact gridTime_modEq.trans h.start_modEq
    rw [hnew]
    exact ⟨h.interval_eq, hmod, le_rfl, le_rfl, le_rfl, le_rfl⟩
  · have hsame : candle.atTime time = candle := if_neg hopened
    rwa [hsame]

/-- A trade moves the extremes beyond its price, which is the only one that open and close may
take. -/
theorem Sound.addTrade (h : Sound origin interval candle) (time : ℤ) (price volume : ℚ) :
    Sound origin interval (candle.addTrade time price volume) := by
  rcases lt_or_ge time candle.startTime with hold | hnew
  · rwa [addTrade_of_lt hold]
  · have hcurrent := h.atTime hnew
    have hclose : (candle.atTime time).close = candle.close := close_atTime
    rw [addTrade_eq hnew]
    refine ⟨hcurrent.interval_eq, hcurrent.start_modEq, ?_, ?_, ?_, ?_⟩
    · dsimp only
      split
      · exact min_le_right _ _
      · exact (min_le_left _ _).trans hcurrent.low_le_open
    · dsimp only
      split
      · exact le_max_right _ _
      · exact hcurrent.open_le_high.trans (le_max_left _ _)
    · dsimp only
      split
      · exact min_le_right _ _
      · exact (min_le_left _ _).trans (hclose ▸ hcurrent.low_le_close)
    · dsimp only
      split
      · exact le_max_right _ _
      · exact (hclose ▸ hcurrent.close_le_high).trans (le_max_left _ _)

/-- A query before the candle is not allowed, and would do nothing. -/
theorem getOhlcv_of_lt (hinterval : 0 < candle.interval) (htime : time < candle.startTime) :
    (candle.getOhlcv time).2 = candle := if_neg (by omega)

/-- Every call keeps the builder sound. -/
theorem Sound.step (hinterval : 0 < interval) (h : Sound origin interval candle) (call : Call) :
    Sound origin interval (candle.step call) := by
  cases call with
  | addTrade time price volume => exact h.addTrade time price volume
  | getOhlcv time =>
    rcases lt_or_ge time candle.startTime with hold | hnew
    · have hsame := getOhlcv_of_lt (h.interval_eq ▸ hinterval) hold
      rwa [OhlcvFromTrades.step, hsame]
    · exact h.atTime hnew

/-- The start after a call: that of the grid interval of its time, unless the time is old. -/
theorem startTime_step (hinterval : 0 < candle.interval) (call : Call) :
    (candle.step call).startTime =
      if call.time < candle.startTime then candle.startTime
      else gridTime candle.startTime candle.interval call.time := by
  rcases lt_or_ge call.time candle.startTime with hold | hnew
  · rw [if_pos hold]
    cases call with
    | addTrade time price volume => exact congrArg startTime (addTrade_of_lt hold)
    | getOhlcv time => exact congrArg startTime (getOhlcv_of_lt hinterval hold)
  · rw [if_neg (not_lt.mpr hnew)]
    cases call with
    | addTrade time price volume =>
      exact (congrArg startTime (addTrade_eq hnew)).trans (startTime_atTime hnew)
    | getOhlcv time => exact startTime_atTime hnew

/-- A call never moves the start back, and leaves the candle of its time unless that is old. -/
theorem startTime_step_bounds (hinterval : 0 < candle.interval) (call : Call) :
    candle.startTime ≤ (candle.step call).startTime ∧
      (candle.startTime ≤ call.time → (candle.step call).startTime ≤ call.time ∧
        call.time < (candle.step call).startTime + candle.interval) := by
  rw [startTime_step hinterval]
  split
  · next hold => exact ⟨le_rfl, fun hnew => absurd hold (not_lt.mpr hnew)⟩
  · next hnew =>
    have hbelow := gridTime_le candle.startTime call.time hinterval
    have habove := lt_gridTime_add candle.startTime call.time hinterval
    refine ⟨?_, fun _ => ⟨hbelow, habove⟩⟩
    have hdiv := Int.ediv_nonneg (by omega : 0 ≤ call.time - candle.startTime) hinterval.le
    have hsteps := mul_nonneg hdiv hinterval.le
    unfold gridTime
    omega

/-- The volume after a call. -/
theorem volume_step (hinterval : 0 < candle.interval) (call : Call) {volumes : List ℚ}
    (hvolume : candle.volume = volumes.sum) :
    (candle.step call).volume =
      ((if (candle.step call).startTime = candle.startTime then volumes else [])
        ++ call.accepted candle).sum := by
  have hroll : ∀ time, candle.startTime ≤ time → (candle.atTime time).volume =
      (if (candle.atTime time).startTime = candle.startTime then volumes else []).sum := by
    intro time htime
    split
    · next hsame => rw [atTime_of_startTime_eq hinterval htime hsame, hvolume]
    · next hne => rw [atTime_of_startTime_ne hne, List.sum_nil, startNewCandle]
  rw [List.sum_append]
  cases call with
  | addTrade time price volume =>
    rcases lt_or_ge time candle.startTime with hold | hnew
    · have hstep : candle.step (.addTrade time price volume) = candle := addTrade_of_lt hold
      simp only [hstep, Call.accepted, if_pos hold, if_true, hvolume, List.sum_nil, add_zero]
    · have hstep : candle.step (.addTrade time price volume) = _ := addTrade_eq hnew
      simp only [hstep, Call.accepted, if_neg (not_lt.mpr hnew), List.sum_singleton,
        hroll time hnew]
  | getOhlcv time =>
    simp only [Call.accepted, List.sum_nil, add_zero]
    rcases lt_or_ge time candle.startTime with hold | hnew
    · have hstep : candle.step (.getOhlcv time) = candle := getOhlcv_of_lt hinterval hold
      simp only [hstep, if_true, hvolume]
    · exact hroll time hnew

/-- Every run keeps the builder sound. -/
theorem Sound.run (hinterval : 0 < interval) (h : Sound origin interval candle)
    (calls : List Call) : Sound origin interval (candle.run calls) :=
  foldl_invariant (fun _ call hbefore => hbefore.step hinterval call) calls h

/-- The volume of the current candle is what was accepted since it was opened. -/
theorem volume_run (hinterval : 0 < interval) (h : Sound origin interval candle)
    {volumes : List ℚ} (hvolume : candle.volume = volumes.sum) (calls : List Call) :
    (candle.run calls).volume = (candle.acceptedVolumes volumes calls).sum := by
  induction calls generalizing candle volumes with
  | nil => exact hvolume
  | cons call rest ih =>
    have hcandle : 0 < candle.interval := h.interval_eq ▸ hinterval
    exact ih (h.step hinterval call) (volume_step hcandle call hvolume)

/-- The invariant of the builder: whatever is called in whatever order, the candle stays sound,
never goes back in time, ignores what is older than it, holds the time of every other call, and
counts the volumes since it was opened, which for the first candle include its own. -/
theorem run_sound (startOhlcv : OhlcvData) (hlowopen : startOhlcv.low ≤ startOhlcv.open)
    (hopenhigh : startOhlcv.open ≤ startOhlcv.high) (hlowclose : startOhlcv.low ≤ startOhlcv.close)
    (hclosehigh : startOhlcv.close ≤ startOhlcv.high) (hinterval : 0 < interval)
    (calls : List Call) :
    let candle := (ofCandle startOhlcv interval).run calls
    (candle.low ≤ candle.open ∧ candle.open ≤ candle.high) ∧
    (candle.low ≤ candle.close ∧ candle.close ≤ candle.high) ∧
    candle.startTime ≡ startOhlcv.timeStamp [ZMOD interval] ∧
    candle.volume =
      ((ofCandle startOhlcv interval).acceptedVolumes [startOhlcv.volume] calls).sum ∧
    (∀ time price volume, time < candle.startTime →
      candle.addTrade time price volume = candle) ∧
    ∀ call, candle.startTime ≤ (candle.step call).startTime ∧
      (candle.startTime ≤ call.time → (candle.step call).startTime ≤ call.time ∧
        call.time < (candle.step call).startTime + interval) := by
  have hstart : Sound startOhlcv.timeStamp interval (ofCandle startOhlcv interval) :=
    ⟨rfl, rfl, hlowopen, hopenhigh, hlowclose, hclosehigh⟩
  have h := hstart.run hinterval calls
  have hvolume := volume_run hinterval hstart
    (List.sum_singleton.symm : startOhlcv.volume = [startOhlcv.volume].sum) calls
  refine ⟨⟨h.low_le_open, h.open_le_high⟩, ⟨h.low_le_close, h.close_le_high⟩, h.start_modEq,
    hvolume, fun _ _ _ hold => addTrade_of_lt hold, ?_⟩
  intro call
  have hbounds := startTime_step_bounds (h.interval_eq ▸ hinterval) call
  rwa [h.interval_eq] at hbounds

/-- Of three trades the one from before the window of the others is dropped. -/
theorem run_sound_rolled :
    let candle := (ofCandle ⟨100, 2, 4, 1, 3, 1 / 10⟩ 60).run
      [.addTrade 300 4 1, .addTrade 200 9 9, .addTrade 290 1 2, .getOhlcv 310]
    (candle.low ≤ candle.open ∧ candle.open ≤ candle.high) ∧
    (candle.low ≤ candle.close ∧ candle.close ≤ candle.high) ∧
    candle.startTime ≡ 100 [ZMOD 60] ∧ candle.volume = 3 := by
  obtain ⟨hopen, hclose, hstart, hvolume, -⟩ := run_sound
    ⟨100, 2, 4, 1, 3, 1 / 10⟩ (by decide +kernel) (by decide +kernel) (by decide +kernel)
    (by decide +kernel) (by decide : (0 : ℤ) < 60)
    [.addTrade 300 4 1, .addTrade 200 9 9, .addTrade 290 1 2, .getOhlcv 310]
  exact ⟨hopen, hclose, hstart, hvolume.trans (by decide +kernel)⟩

end OhlcvFromTrades

end MarketBlocks
