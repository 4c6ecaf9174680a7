import MarketBlocks.BackTesting.DataFactory
import MarketBlocks.Common.Json
import MarketBlocks.Common.MathUtils
import MarketBlocks.Runner.RunToEnd
import Mathlib.Data.Rat.Floor

/-!
# The number of time steps

A back test takes one iteration for each step from the start to the end of its data time. The
number comes out of `load_back_testing_data`, and three things spoil it: without any candle the
seeds of the two limits meet nothing and lie as far apart as they can, the wrong way round; a
number that no `int` holds is cut off; and a single step leaves nothing to divide the progress by.
-/

namespace MarketBlocks

open Library

/-! ## The iterations of a run -/

/-- An iteration of `run` by the data time it starts at and the one that its increment leaves,
unless a handler ends the run before. -/
structure Tick where
  time : ℤ
  next : Option ℤ
  deriving DecidableEq, Repr

namespace BackTest

/-- The iterations of the loop of `run`. -/
def ticks : List Iteration → BackTest → List Tick
  | [], _ => []
  | iteration :: rest, w =>
    match round w iteration with
    | (.error _, _) => [⟨w.data.dataTime, none⟩]
    | (.ok (), w') => ⟨w.data.dataTime, some w'.data.dataTime⟩ :: ticks rest w'

/-- The iterations of `run`. -/
def runTicks (iterations : ℕ → Iteration) (w : BackTest) : List Tick :=
  ticks ((List.range w.data.timeSteps.toNat).map iterations) w

/-- The percentage of the progress message, converted to `int`. -/
def percentageComplete (timeSteps i : ℤ) : Option ℤ :=
  (calculatePercentageProportion 1 timeSteps (i + 1)).map Json.truncate

/-- Each iteration is at a time of its own on the grid of the steps. -/
theorem Sound.mem_ticks {w : BackTest} (h : w.Sound) (iterations : List Iteration) {tick : Tick}
    (htick : tick ∈ ticks iterations w) :
    ∃ k < iterations.length, tick.time = w.data.dataTime + k * w.data.stepSize ∧
      ∀ next ∈ tick.next, next = w.data.dataTime + (k + 1) * w.data.stepSize := by
  induction iterations generalizing w with
  | nil => cases htick
  | cons iteration rest ih =>
    obtain ⟨-, hnext⟩ := h.round iteration
    rw [ticks] at htick
    rcases hround : BackTest.round w iteration with ⟨fault | _, w'⟩
    · rw [hround] at htick
      refine ⟨0, Nat.succ_pos _, ?_⟩
      rw [List.mem_singleton.mp htick]
      simp
    · rw [hround] at htick hnext
      obtain ⟨hsound, htime, hstep⟩ : w'.Sound ∧
        w'.data.dataTime = w.data.dataTime + w.data.stepSize ∧
        w'.data.stepSize = w.data.stepSize := hnext rfl
      rcases List.mem_cons.mp htick with rfl | hmem
      · refine ⟨0, Nat.succ_pos _, ?_⟩
        simp [htime]
      · obtain ⟨k, hk, hticktime, hticknext⟩ := ih hsound hmem
        rw [htime, hstep] at hticktime hticknext
        refine ⟨k + 1, Nat.succ_lt_succ hk, ?_, ?_⟩
        · rw [hticktime]
          push_cast
          ring
        · intro next hmemnext
          rw [hticknext next hmemnext]
          push_cast
          ring

/-- A strategy that does nothing, on a stream without subscriptions, comes to the end of its steps. -/
theorem exists_last_tick {w : BackTest} (hsubscriptions : w.subscriptions = []) (count : ℕ) :
    ∃ tick ∈ ticks (List.replicate (count + 1) (plainIteration [])) w,
      tick.next = some (w.data.dataTime + (count + 1) * w.data.stepSize) := by
  have hround (w : BackTest) (h : w.subscriptions = []) :
      round w (plainIteration []) =
        (.ok (), { w with logger := w.logger.flushTrades [w.api], data := w.data.increment }) := by
    have hnotify : notify ((plainIteration []).order.walk w.subscriptions) w = (.ok (), w) := by
      rw [h]
      rfl
    rw [round, hnotify]
    rfl
  induction count generalizing w with
  | zero =>
    rw [List.replicate_succ, ticks, hround w hsubscriptions]
    refine ⟨_, List.mem_cons_self, ?_⟩
    simp [BackTestingData.increment]
  | succ count ih =>
    obtain ⟨tick, hmem, hnext⟩ :=
      @ih { w with logger := w.logger.flushTrades [w.api], data := w.data.increment } hsubscriptions
    rw [List.replicate_succ, ticks, hround w hsubscriptions]
    refine ⟨tick, List.mem_cons_of_mem _ hmem, ?_⟩
    rw [hnext]
    simp only [BackTestingData.increment]
    push_cast
    congr 1
    ring

/-! ## The progress -/

/-- Dropping the fraction keeps a number between the integers it lies between. -/
private theorem truncate_bounds {value : ℚ} {bound : ℤ} (hlower : 0 ≤ value) (hupper : value ≤ bound) :
    0 ≤ Json.truncate value ∧ Json.truncate value ≤ bound := by
  have hfloor : Json.truncate value = ⌊value⌋ := by
    rw [Json.truncate, Int.tdiv_eq_ediv_of_nonneg (Rat.num_nonneg.mpr hlower), Rat.floor_def']
  rw [hfloor]
  constructor
  · exact Int.floor_nonneg.mpr hlower
  · have hle := (Int.floor_le value).trans hupper
    exact_mod_cast hle

/-- With more than one step the progress is a percentage in every iteration. -/
theorem exists_percentageComplete {timeSteps i : ℤ} (hsteps : 1 < timeSteps) (hlower : 0 ≤ i)
    (hupper : i < timeSteps) :
    ∃ percentage, percentageComplete timeSteps i = some percentage ∧ 0 ≤ percentage ∧
      percentage ≤ 100 := by
  obtain ⟨value, hvalue, hnonneg, hle⟩ :=
    calculatePercentageProportion_of_lt hsteps (by omega : 1 ≤ i + 1) (by omega)
  refine ⟨Json.truncate value, ?_, truncate_bounds hnonneg (by exact_mod_cast hle)⟩
  rw [percentageComplete, hvalue]
  rfl

end BackTest

/-! ## When the number is right -/

namespace DataFactory

/-- The number of time steps of loaded data is right. -/
structure StepsRight (data : BackTestingData) : Prop where
  /-- The steps from the start that do not pass the end. -/
  counted : data.timeSteps =
    ({k : ℕ | data.startTime + k * data.stepSize ≤ data.endTime}.ncard : ℤ)
  /-- Its conversion to `int` has kept the number. -/
  kept : data.timeSteps = (data.endTime - data.startTime).tdiv data.stepSize + 1
  /-- No run leaves the limits, or moves the data time to where no `std::time_t` is. -/
  visited : ∀ config iterations, ∀ tick ∈ (BackTest.create config data).runTicks iterations,
    data.startTime ≤ tick.time ∧ tick.time ≤ data.endTime ∧ ∀ next ∈ tick.next, IsTime next
  progress : ∀ i, 0 ≤ i → i < data.timeSteps →
    ∃ percentage, BackTest.percentageComplete data.timeSteps i = some percentage ∧
      0 ≤ percentage ∧ percentage ≤ 100

/-- The data is loaded without an overflow, and its number of time steps is right. -/
def TimeStepsRight (source : BackTestingDataSource) (config : BackTestingConfig) : Prop :=
  ∃ data, loadBackTestingData source config = some data ∧ StepsRight data

/-- The end is at least one and less than two steps before the start, or it is at least one step
after it, by no more steps than an `int` counts, and the time one step further on is a
`std::time_t`. -/
def StepsFit (source : BackTestingDataSource) (config : BackTestingConfig) : Prop :=
  let range := endLimit source config - startLimit source config
  (-2 * config.stepSize < range ∧ range ≤ -config.stepSize) ∨
    (config.stepSize ≤ range ∧ range < (2 ^ 31 - 1) * config.stepSize ∧
      startLimit source config + (range / config.stepSize + 1) * config.stepSize < 2 ^ 63)

variable {pairs : List TradablePair} {held : UnorderedMap TradablePair (List OhlcvData)}
  {startTime endTime stepSize timeSteps : ℤ}
  {dataSource : Option (TradablePair → ℤ → List OhlcvData)}

/-- The run of new data visits the first times of its grid. -/
theorem mem_runTicks (hstep : 0 < stepSize) (config : PaperTradingConfig)
    (iterations : ℕ → Iteration) {tick : Tick}
    (htick : tick ∈ (BackTest.create config (.create pairs held startTime endTime stepSize timeSteps
      dataSource)).runTicks iterations) :
    ∃ k : ℕ, (k : ℤ) < timeSteps ∧ tick.time = startTime + k * stepSize ∧
      ∀ next ∈ tick.next, next = startTime + (k + 1) * stepSize := by
  have hsound := @BackTest.Sound.create config
    (.create pairs held startTime endTime stepSize timeSteps dataSource) rfl hstep.le
  obtain ⟨k, hk, htime, hnext⟩ := hsound.mem_ticks _ htick
  rw [List.length_map, List.length_range] at hk
  exact ⟨k, Int.lt_toNat.mp hk, htime, hnext⟩

/-- The steps are right when there are none, the end being before the start. -/
theorem stepsRight_zero (hstep : 0 < stepSize)
    (hrange : -2 * stepSize < endTime - startTime ∧ endTime - startTime ≤ -stepSize) :
    StepsRight (.create pairs held startTime endTime stepSize 0 dataSource) where
  counted := by
    have hcount := (@ncard_grid startTime stepSize endTime hstep).trans (if_pos (by omega))
    exact hcount.symm
  kept := by
    have hquotient := (tdiv_eq_neg_one_iff hstep).mpr hrange
    simp only [BackTestingData.create]
    omega
  visited := by
    intro config iterations tick htick
    obtain ⟨k, hk, -⟩ := mem_runTicks hstep config iterations htick
    omega
  progress := by
    intro i hlower hupper
    exact absurd hupper (not_lt.mpr hlower)

/-- The steps are right when there are several. -/
theorem stepsRight_of_le (hstep : 0 < stepSize) (hstart : -2 ^ 63 ≤ startTime)
    (hrange : stepSize ≤ endTime - startTime)
    (hend : startTime + ((endTime - startTime) / stepSize + 1) * stepSize < 2 ^ 63) :
    StepsRight (.create pairs held startTime endTime stepSize
      ((endTime - startTime) / stepSize + 1) dataSource) where
  counted := by
    have hcount := (@ncard_grid startTime stepSize endTime hstep).trans (if_neg (by omega))
    exact hcount.symm
  kept := by
    simp only [BackTestingData.create]
    rw [Int.tdiv_eq_ediv_of_nonneg (by omega)]
  visited := by
    intro config iterations tick htick
    obtain ⟨k, hk, htime, hnext⟩ := mem_runTicks hstep config iterations htick
    have hnonneg : 0 ≤ (k : ℤ) * stepSize := mul_nonneg (Int.natCast_nonneg k) hstep.le
    have hwithin : (k : ℤ) * stepSize ≤ endTime - startTime :=
      (Int.le_ediv_iff_mul_le hstep).mp (by omega)
    have hfurther : ((k : ℤ) + 1) * stepSize ≤ ((endTime - startTime) / stepSize + 1) * stepSize :=
      mul_le_mul_of_nonneg_right (by omega) hstep.le
    simp only [BackTestingData.create]
    refine ⟨by omega, by omega, fun next hmem => ?_⟩
    rw [hnext next hmem]
    rw [add_mul, one_mul] at hfurther ⊢
    exact ⟨by omega, by omega⟩
  progress := by
    intro i hlower hupper
    have hquotient : 1 ≤ (endTime - startTime) / stepSize :=
      (Int.le_ediv_iff_mul_le hstep).mpr (by omega)
    exact BackTest.exists_percentageComplete (by simp only [BackTestingData.create]; omega) hlower
      hupper

/-- What right steps say of the limits. -/
theorem StepsRight.fits (hstep : 0 < stepSize) (hint : IsInt timeSteps)
    (h : StepsRight (.create pairs held startTime endTime stepSize timeSteps dataSource)) :
    (-2 * stepSize < endTime - startTime ∧ endTime - startTime ≤ -stepSize) ∨
      (stepSize ≤ endTime - startTime ∧ endTime - startTime < (2 ^ 31 - 1) * stepSize ∧
        startTime + ((endTime - startTime) / stepSize + 1) * stepSize < 2 ^ 63) := by
  have hcounted : timeSteps = if endTime < startTime then 0
      else (endTime - startTime) / stepSize + 1 := h.counted.trans (ncard_grid hstep)
  have hkept : timeSteps = (endTime - startTime).tdiv stepSize + 1 := h.kept
  by_cases hbackward : endTime < startTime
  · rw [if_pos hbackward] at hcounted
    exact .inl ((tdiv_eq_neg_one_iff hstep).mp (by omega))
  · rw [if_neg hbackward] at hcounted
    have hquotient : 0 ≤ (endTime - startTime) / stepSize := Int.ediv_nonneg (by omega) hstep.le
    have hseveral : timeSteps ≠ 1 := by
      intro hone
      subst hone
      obtain ⟨percentage, hpercentage, -⟩ := h.progress 0 le_rfl Int.one_pos
      cases hpercentage
    have hlower : stepSize ≤ endTime - startTime := by
      have hone : 1 * stepSize ≤ endTime - startTime :=
        (Int.le_ediv_iff_mul_le hstep).mp (by omega)
      omega
    have hupper : endTime - startTime < (2 ^ 31 - 1) * stepSize :=
      (Int.ediv_lt_iff_lt_mul hstep).mp (by have hsize := hint.2; omega)
    refine .inr ⟨hlower, hupper, ?_⟩
    -- the last increment of a strategy that does nothing
    obtain ⟨count, hcount⟩ : ∃ count : ℕ, timeSteps = count + 1 :=
      ⟨(timeSteps - 1).toNat, by omega⟩
    obtain ⟨tick, htick, hnext⟩ := BackTest.exists_last_tick
      (w := BackTest.create ⟨0, []⟩ (.create pairs held startTime endTime stepSize timeSteps dataSource))
      rfl count
    have hrun : tick ∈ (BackTest.create ⟨0, []⟩ (.create pairs held startTime endTime stepSize
        timeSteps dataSource)).runTicks fun _ => BackTest.plainIteration [] := by
      have hiterations : (List.range timeSteps.toNat).map (fun _ => BackTest.plainIteration []) =
          List.replicate (count + 1) (BackTest.plainIteration []) := by
        rw [List.map_const', List.length_range, hcount]
        rfl
      rw [BackTest.runTicks]
      exact hiterations ▸ htick
    obtain ⟨-, -, hbound⟩ := h.visited _ _ tick hrun
    have hlast := (hbound _ hnext).2
    rw [← hcounted, hcount]
    exact hlast

variable {source : BackTestingDataSource} {config : BackTestingConfig}

/-- Right time steps fit into their types. -/
theorem TimeStepsRight.fits (hvalid : config.validate = .ok ()) (h : TimeStepsRight source config) :
    StepsFit source config := by
  obtain ⟨-, -, hstep⟩ := config.validate_eq_ok_iff.mp hvalid
  obtain ⟨held, dataSource, heq⟩ := @loadBackTestingData_eq source config hvalid
  obtain ⟨data, hload, hright⟩ := h
  rw [heq] at hload
  obtain ⟨timeSteps, hcalculated, rfl⟩ := Option.map_eq_some_iff.mp hload
  have hint : IsInt timeSteps := by
    rw [(calculateTimeSteps_eq_some_iff.mp hcalculated).2.2.2]
    exact isInt_narrow _
  exact hright.fits hstep hint

/-- Time steps that fit are right. -/
theorem StepsFit.timeStepsRight (hvalid : config.validate = .ok ()) (h : StepsFit source config) :
    TimeStepsRight source config := by
  obtain ⟨-, -, hstep⟩ := config.validate_eq_ok_iff.mp hvalid
  obtain ⟨held, dataSource, heq⟩ := @loadBackTestingData_eq source config hvalid
  have hint := config.isInt_stepSize.2
  rcases h with hnone | ⟨hlower, hupper, hend⟩
  · have hquotient := (tdiv_eq_neg_one_iff hstep).mpr hnone
    have hcalculated : calculateTimeSteps (startLimit source config) (endLimit source config)
        config.stepSize = some 0 := by
      rw [calculateTimeSteps_eq_some_iff, hquotient]
      exact ⟨⟨by omega, by omega⟩, by decide, by decide, by decide⟩
    rw [hcalculated] at heq
    exact ⟨_, heq, stepsRight_zero hstep hnone⟩
  · have hquotient : (endLimit source config - startLimit source config).tdiv config.stepSize =
        (endLimit source config - startLimit source config) / config.stepSize :=
      Int.tdiv_eq_ediv_of_nonneg (by omega)
    have hnonneg : 0 ≤ (endLimit source config - startLimit source config) / config.stepSize :=
      Int.ediv_nonneg (by omega) hstep.le
    have hsmall : (endLimit source config - startLimit source config) / config.stepSize < 2 ^ 31 - 1 :=
      (Int.ediv_lt_iff_lt_mul hstep).mpr hupper
    have hcalculated : calculateTimeSteps (startLimit source config) (endLimit source config)
        config.stepSize =
          some ((endLimit source config - startLimit source config) / config.stepSize + 1) := by
      rw [calculateTimeSteps_eq_some_iff, hquotient]
      refine ⟨⟨by omega, by omega⟩, ⟨by omega, by omega⟩, ⟨by omega, by omega⟩, ?_⟩
      rw [narrow_of_isInt ⟨by omega, by omega⟩]
    rw [hcalculated] at heq
    exact ⟨_, heq, stepsRight_of_le hstep (isTime_startLimit source config).1 hlower hend⟩

/-- For every data source and every valid configuration the number of time steps is right exactly
when the limits lie several steps apart, or one step the wrong way round. -/
theorem timeStepsRight_iff (source : BackTestingDataSource) (config : BackTestingConfig)
    (hvalid : config.validate = .ok ()) : TimeStepsRight source config ↔ StepsFit source config :=
  ⟨TimeStepsRight.fits hvalid, StepsFit.timeStepsRight hvalid⟩

/-- One pair with the given candles. -/
def singleSource (candles : List OhlcvData) (h : ∀ candle ∈ candles, IsTime candle.timeStamp) :
    BackTestingDataSource where
  getAvailablePairs := [⟨"BTC", "GBP"⟩]
  loadData _ _ := candles
  isTime _ _ := h

/-- The default configuration. -/
def defaultConfig : BackTestingConfig where
  startTime := 0
  endTime := 0
  stepSize := 60
  dynamicLoad := false

/-- Three candles, a minute apart. -/
theorem timeStepsRight_minutes :
    TimeStepsRight (singleSource [⟨100, 1, 1, 1, 1, 1⟩, ⟨160, 1, 1, 1, 1, 1⟩, ⟨220, 1, 1, 1, 1, 1⟩]
      (by decide)) defaultConfig :=
  (timeStepsRight_iff _ _ (by decide)).mpr (.inr (by decide))

/-- Without a candle the steps are a negative number, and with a single one the progress of its
iteration is no number. -/
theorem timeSteps_empty_single :
    let empty := singleSource [] (by decide)
    let single := singleSource [⟨100, 1, 1, 1, 1, 1⟩] (by decide)
    defaultConfig.validate = .ok () ∧
      (loadBackTestingData empty defaultConfig).map BackTestingData.timeSteps = some (-572662305) ∧
      ¬TimeStepsRight empty defaultConfig ∧
      (loadBackTestingData single defaultConfig).map BackTestingData.timeSteps = some 1 ∧
      BackTest.percentageComplete 1 0 = none ∧ ¬TimeStepsRight single defaultConfig := by
  intro empty single
  have hvalid : defaultConfig.validate = .ok () := by decide
  refine ⟨hvalid, by decide +kernel, ?_, by decide +kernel, by decide +kernel, ?_⟩
  · intro hright
    have hfits : StepsFit empty defaultConfig := hright.fits hvalid
    revert hfits
    unfold StepsFit
    decide
  · intro hright
    have hfits : StepsFit single defaultConfig := hright.fits hvalid
    revert hfits
    unfold StepsFit
    decide

end DataFactory

end MarketBlocks
