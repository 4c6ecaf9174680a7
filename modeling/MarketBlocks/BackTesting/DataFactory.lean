import MarketBlocks.BackTesting.IteratorCache
import MarketBlocks.Library.Extremes
import MarketBlocks.Library.Grid

/-!
# Loading the data of a back test

`load_back_testing_data` takes the limits of the data time from the configuration, or, where
that leaves them open, from the first and the last candles of all pairs, and counts the steps
between them. The limits are seeded with the latest time and with zero before any candle is read.
-/

namespace MarketBlocks

open Library

/-! ## Machine integers -/

/-- The values of `std::time_t`. -/
def IsTime (value : ℤ) : Prop := -2 ^ 63 ≤ value ∧ value < 2 ^ 63

/-- The values of `int`. -/
def IsInt (value : ℤ) : Prop := -2 ^ 31 ≤ value ∧ value < 2 ^ 31

instance (value : ℤ) : Decidable (IsTime value) :=
  inferInstanceAs (Decidable (-2 ^ 63 ≤ value ∧ value < 2 ^ 63))

instance (value : ℤ) : Decidable (IsInt value) :=
  inferInstanceAs (Decidable (-2 ^ 31 ≤ value ∧ value < 2 ^ 31))

/-- The result of an operation on `std::time_t`, which is undefined when it overflows. -/
def timeResult (value : ℤ) : Option ℤ := if IsTime value then some value else none

/-- The conversion of a `std::time_t` to `int` keeps the low bits. -/
def narrow (value : ℤ) : ℤ := value.bmod (2 ^ 32)

variable {value : ℤ}

/-- A time is in range or undefined. -/
theorem timeResult_eq_some_iff {result : ℤ} :
    timeResult value = some result ↔ IsTime value ∧ result = value := by
  unfold timeResult
  split
  · next h => simp [h, eq_comm]
  · next h => simp [h]

/-- What is narrowed fits. -/
theorem isInt_narrow (value : ℤ) : IsInt (narrow value) := by
  have hlower : -((2 ^ 32 : ℕ) / 2 : ℤ) ≤ narrow value := Int.le_bmod (by decide)
  have hupper : narrow value < ((2 ^ 32 : ℕ) + 1) / 2 := Int.bmod_lt (by decide)
  unfold IsInt
  omega

/-- What fits is kept. -/
theorem narrow_of_isInt (h : IsInt value) : narrow value = value := by
  unfold IsInt at h
  rw [narrow, Int.bmod_eq_of_le] <;> omega

/-! ## The configuration -/

/-- The part of `back_testing_config` that the data time depends on. -/
structure BackTestingConfig where
  startTime : ℤ
  endTime : ℤ
  stepSize : ℤ
  dynamicLoad : Bool
  isTime_startTime : IsTime startTime := by decide
  isTime_endTime : IsTime endTime := by decide
  isInt_stepSize : IsInt stepSize := by decide

/-- `assert_throw`. -/
def assertThrow (condition : Prop) [Decidable condition] (message : String) : Except Fault Unit :=
  if condition then .ok () else .error (.mbException message)

section AssertThrow

variable {condition : Prop} [Decidable condition] {message : String}

/-- An assertion passes exactly when its condition holds. -/
@[simp] theorem assertThrow_eq_ok_iff : assertThrow condition message = .ok () ↔ condition := by
  unfold assertThrow
  split
  · next h => simp [h]
  · next h => simp [h]

/-- What follows an assertion is reached exactly when the assertion holds. -/
@[simp] theorem assertThrow_bind_eq_ok_iff {next : Unit → Except Fault Unit} :
    (assertThrow condition message >>= next) = .ok () ↔ condition ∧ next () = .ok () := by
  unfold assertThrow
  split
  · next h => simp [h, bind, Except.bind]
  · next h => simp [h, bind, Except.bind]

end AssertThrow

namespace BackTestingConfig

/-- The checks of the constructor, in their order. -/
def validate (config : BackTestingConfig) : Except Fault Unit := do
  if config.endTime ≠ 0 then
    assertThrow (config.endTime > config.startTime) "End time must be greater than start time"
  if config.dynamicLoad then
    assertThrow (config.startTime ≠ 0) "Start time cannot be 0 when dynamic data load enabled"
    assertThrow (config.endTime ≠ 0) "End time cannot be 0 when dynamic data load enabled"
  assertThrow (config.stepSize > 0) "Step size must be greater than zero"

/-- What `validate` accepts. -/
theorem validate_eq_ok_iff (config : BackTestingConfig) :
    config.validate = .ok () ↔
      (config.endTime ≠ 0 → config.startTime < config.endTime) ∧
        (config.dynamicLoad = true → config.startTime ≠ 0 ∧ config.endTime ≠ 0) ∧
        0 < config.stepSize := by
  unfold validate
  by_cases hend : config.endTime = 0
  · cases hload : config.dynamicLoad <;> simp [hend]
  · cases hload : config.dynamicLoad <;> simp [hend]

end BackTestingConfig

/-! ## Loading -/

/-- A `back_testing_data_source`: the pairs it has, and what `load_data` returns for a pair. Every file
of the source can be read, so `load_data` does not throw. -/
structure BackTestingDataSource where
  getAvailablePairs : List TradablePair
  loadData : TradablePair → ℤ → List OhlcvData
  isTime : ∀ pair stepSize, ∀ candle ∈ loadData pair stepSize, IsTime candle.timeStamp

namespace DataFactory

/-- The quotient truncates. -/
def calculateTimeSteps (startTime endTime stepSize : ℤ) : Option ℤ := do
  let range ← timeResult (endTime - startTime)
  let quotient ← timeResult (range.tdiv stepSize)
  let timeSteps ← timeResult (quotient + 1)
  some (narrow timeSteps)

/-- The variables that `load_data` writes. -/
structure Loading where
  ohlcvData : UnorderedMap TradablePair (List OhlcvData)
  startTime : ℤ
  endTime : ℤ

/-- The body of the loop of `load_data`. -/
def loadPair (source : BackTestingDataSource) (stepSize : ℤ) (loading : Loading)
    (pair : TradablePair) : Loading :=
  let data := source.loadData pair stepSize
  match data.head?, data.getLast? with
  | some front, some back =>
    { ohlcvData := loading.ohlcvData.emplace pair data
      startTime := min loading.startTime front.timeStamp
      endTime := max loading.endTime back.timeStamp }
  | _, _ => loading

/-- The loop of `load_data` over the pairs, and the limits that the config sets. -/
def loadData (source : BackTestingDataSource) (config : BackTestingConfig)
    (pairs : List TradablePair) : Loading :=
  let loading := pairs.foldl (loadPair source config.stepSize)
    { ohlcvData := ∅, startTime := 2 ^ 63 - 1, endTime := 0 }
  { loading with
    startTime := if config.startTime ≠ 0 then config.startTime else loading.startTime
    endTime := if config.endTime ≠ 0 then config.endTime else loading.endTime }

/-- `load_back_testing_data`, undefined when counting the steps overflows. -/
def loadBackTestingData (source : BackTestingDataSource) (config : BackTestingConfig) :
    Option BackTestingData := do
  let pairs := source.getAvailablePairs
  if config.dynamicLoad then
    let timeSteps ← calculateTimeSteps config.startTime config.endTime config.stepSize
    some (.create pairs ∅ config.startTime config.endTime config.stepSize timeSteps
      (some source.loadData))
  else
    let loading := loadData source config pairs
    let timeSteps ← calculateTimeSteps loading.startTime loading.endTime config.stepSize
    some (.create pairs loading.ohlcvData loading.startTime loading.endTime config.stepSize timeSteps)

/-! ## The limits of the data time -/

/-- The times of the first candles of the pairs that have any. -/
def firstTimes (source : BackTestingDataSource) (config : BackTestingConfig) : List ℤ :=
  source.getAvailablePairs.filterMap fun pair =>
    (source.loadData pair config.stepSize).head?.map OhlcvData.timeStamp

/-- The times of the last candles of the pairs that have any. -/
def lastTimes (source : BackTestingDataSource) (config : BackTestingConfig) : List ℤ :=
  source.getAvailablePairs.filterMap fun pair =>
    (source.loadData pair config.stepSize).getLast?.map OhlcvData.timeStamp

/-- The configured start, else the earliest first candle. -/
def startLimit (source : BackTestingDataSource) (config : BackTestingConfig) : ℤ :=
  if config.startTime ≠ 0 then config.startTime
  else (firstTimes source config).foldl min (2 ^ 63 - 1)

/-- The configured end, else the latest last candle. -/
def endLimit (source : BackTestingDataSource) (config : BackTestingConfig) : ℤ :=
  if config.endTime ≠ 0 then config.endTime else (lastTimes source config).foldl max 0

variable {source : BackTestingDataSource} {config : BackTestingConfig} {stepSize : ℤ}

/-- The loop folds the extremes of the times it meets into the limits it begins with. -/
theorem foldl_loadPair (pairs : List TradablePair) (loading : Loading) :
    (pairs.foldl (loadPair source stepSize) loading).startTime =
        (pairs.filterMap fun pair =>
          (source.loadData pair stepSize).head?.map OhlcvData.timeStamp).foldl min
            loading.startTime ∧
      (pairs.foldl (loadPair source stepSize) loading).endTime =
        (pairs.filterMap fun pair =>
          (source.loadData pair stepSize).getLast?.map OhlcvData.timeStamp).foldl max
            loading.endTime := by
  induction pairs generalizing loading with
  | nil => exact ⟨rfl, rfl⟩
  | cons pair rest ih =>
    rw [List.foldl_cons, (ih _).1, (ih _).2, loadPair]
    cases hdata : source.loadData pair stepSize with
    | nil =>
      rw [List.filterMap_cons_none (by rw [hdata]; rfl), List.filterMap_cons_none (by rw [hdata]; rfl)]
      exact ⟨rfl, rfl⟩
    | cons front others =>
      rw [List.filterMap_cons_some (by rw [hdata]; rfl), List.getLast?_cons,
        List.filterMap_cons_some (by rw [hdata, List.getLast?_cons]; rfl)]
      exact ⟨rfl, rfl⟩

/-- `load_back_testing_data` counts the steps between the two limits, with or without loading. -/
theorem loadBackTestingData_eq (hvalid : config.validate = .ok ()) :
    ∃ data dataSource, loadBackTestingData source config =
      (calculateTimeSteps (startLimit source config) (endLimit source config) config.stepSize).map
        fun timeSteps => .create source.getAvailablePairs data (startLimit source config)
          (endLimit source config) config.stepSize timeSteps dataSource := by
  obtain ⟨-, hdynamic, -⟩ := config.validate_eq_ok_iff.mp hvalid
  unfold loadBackTestingData
  cases hload : config.dynamicLoad with
  | true =>
    obtain ⟨hstart, hend⟩ := hdynamic hload
    refine ⟨∅, some source.loadData, ?_⟩
    rw [startLimit, endLimit, if_pos hstart, if_pos hend]
    cases calculateTimeSteps config.startTime config.endTime config.stepSize <;> rfl
  | false =>
    obtain ⟨hstart, hend⟩ := @foldl_loadPair source config.stepSize source.getAvailablePairs
      { ohlcvData := ∅, startTime := 2 ^ 63 - 1, endTime := 0 }
    have hstartLimit : (loadData source config source.getAvailablePairs).startTime =
        startLimit source config := by
      rw [loadData, startLimit, hstart, firstTimes]
    have hendLimit : (loadData source config source.getAvailablePairs).endTime =
        endLimit source config := by
      rw [loadData, endLimit, hend, lastTimes]
    refine ⟨(loadData source config source.getAvailablePairs).ohlcvData, none, ?_⟩
    simp only [hstartLimit, hendLimit]
    cases calculateTimeSteps (startLimit source config) (endLimit source config) config.stepSize <;> rfl

/-- The start is a time. -/
theorem isTime_startLimit (source : BackTestingDataSource) (config : BackTestingConfig) :
    IsTime (startLimit source config) := by
  unfold startLimit
  split
  · exact config.isTime_startTime
  · have hlower : -2 ^ 63 ≤ (firstTimes source config).foldl min (2 ^ 63 - 1) := by
      rw [le_foldl_min_iff]
      refine ⟨by omega, fun time htime => ?_⟩
      obtain ⟨pair, -, hpair⟩ := List.mem_filterMap.mp htime
      obtain ⟨candle, hcandle, rfl⟩ := Option.map_eq_some_iff.mp hpair
      exact (source.isTime _ _ candle (List.mem_of_head? hcandle)).1
    have hupper : (firstTimes source config).foldl min (2 ^ 63 - 1) ≤ 2 ^ 63 - 1 := by
      rw [foldl_min_le_iff]
      exact .inl le_rfl
    exact ⟨hlower, by omega⟩

/-! ## Counting the steps -/

section CalculateTimeSteps

variable {startTime endTime timeSteps : ℤ}

/-- The result when no operation on times overflows. -/
theorem calculateTimeSteps_eq_some_iff :
    calculateTimeSteps startTime endTime stepSize = some timeSteps ↔
      IsTime (endTime - startTime) ∧ IsTime ((endTime - startTime).tdiv stepSize) ∧
        IsTime ((endTime - startTime).tdiv stepSize + 1) ∧
        timeSteps = narrow ((endTime - startTime).tdiv stepSize + 1) := by
  simp only [calculateTimeSteps, Option.bind_eq_bind, Option.bind_eq_some_iff,
    timeResult_eq_some_iff, Option.some.injEq]
  constructor
  · rintro ⟨range, ⟨hrange, rfl⟩, quotient, ⟨hquotient, rfl⟩, steps, ⟨hsteps, rfl⟩, rfl⟩
    exact ⟨hrange, hquotient, hsteps, rfl⟩
  · rintro ⟨hrange, hquotient, hsteps, rfl⟩
    exact ⟨_, ⟨hrange, rfl⟩, _, ⟨hquotient, rfl⟩, _, ⟨hsteps, rfl⟩, rfl⟩

/-- Truncated to minus one: less than two steps back, and at least one. -/
theorem tdiv_eq_neg_one_iff (hstep : 0 < stepSize) {range : ℤ} :
    range.tdiv stepSize = -1 ↔ -2 * stepSize < range ∧ range ≤ -stepSize := by
  have hneg : range.tdiv stepSize = -(-range).tdiv stepSize := by rw [Int.neg_tdiv, neg_neg]
  rcases lt_or_ge 0 range with hpos | hnonpos
  · have hquotient := Int.tdiv_nonneg hpos.le hstep.le
    omega
  · rw [hneg, Int.tdiv_eq_ediv_of_nonneg (by omega)]
    have hlower : 1 ≤ -range / stepSize ↔ 1 * stepSize ≤ -range := Int.le_ediv_iff_mul_le hstep
    have hupper : -range / stepSize < 2 ↔ -range < 2 * stepSize := Int.ediv_lt_iff_lt_mul hstep
    omega

end CalculateTimeSteps

end DataFactory

end MarketBlocks
