import MarketBlocks.BackTesting.DataFactory
import MarketBlocks.Runner.NoLookAhead

/-!
# Dynamic loading

With dynamic loading the candles of a pair are read when they are first asked for, and otherwise all of
them are read at the start. No strategy can tell which of the two has been done, if the source has no
candles of a pair that it does not list.
-/

namespace MarketBlocks

open Library

namespace DataFactory

variable {source : BackTestingDataSource} {stepSize : ℤ}

/-- What the loop has loaded of a pair. -/
theorem lookup_foldl_loadPair (pairs : List TradablePair) (loading : Loading) (pair : TradablePair) :
    (pairs.foldl (loadPair source stepSize) loading).ohlcvData.lookup pair =
      (loading.ohlcvData.lookup pair).or
        (if pair ∈ pairs ∧ source.loadData pair stepSize ≠ [] then some (source.loadData pair stepSize)
          else none) := by
  induction pairs generalizing loading with
  | nil => simp
  | cons first rest ih =>
    rw [List.foldl_cons, ih, loadPair]
    cases hdata : source.loadData first stepSize with
    | nil =>
      by_cases hfirst : pair = first
      · subst hfirst
        simp [hdata]
      · simp [hfirst]
    | cons front others =>
      rw [List.getLast?_cons]
      simp only [List.head?_cons, UnorderedMap.lookup_emplace]
      by_cases hfirst : pair = first
      · subst hfirst
        cases loading.ohlcvData.lookup pair <;> simp [hdata]
      · simp [hfirst]

/-- The series of data that were loaded at the start. -/
theorem series_of_static {config : BackTestingConfig} (hload : config.dynamicLoad = false)
    {data : BackTestingData} (hdata : loadBackTestingData source config = some data)
    (pair : TradablePair) : data.series pair =
      if pair ∈ source.getAvailablePairs then source.loadData pair config.stepSize else [] := by
  unfold loadBackTestingData at hdata
  simp only [hload, Bool.false_eq_true, if_false] at hdata
  obtain ⟨timeSteps, -, hcreate⟩ := Option.bind_eq_some_iff.mp hdata
  cases hcreate
  simp only [BackTestingData.series, BackTestingData.create, loadData, lookup_foldl_loadPair,
    BackTestingData.loadData]
  by_cases havailable : pair ∈ source.getAvailablePairs
  · cases hcandles : source.loadData pair config.stepSize <;> simp [havailable]
  · simp [havailable]

/-- The series of data that are loaded on first use. -/
theorem series_of_dynamic {config : BackTestingConfig} (hload : config.dynamicLoad = true)
    {data : BackTestingData} (hdata : loadBackTestingData source config = some data)
    (pair : TradablePair) : data.series pair = source.loadData pair config.stepSize := by
  unfold loadBackTestingData at hdata
  simp only [hload, if_true] at hdata
  obtain ⟨timeSteps, -, hcreate⟩ := Option.bind_eq_some_iff.mp hdata
  cases hcreate
  rfl

/-- What else the data are made of. -/
theorem loadBackTestingData_fields {config : BackTestingConfig} (hvalid : config.validate = .ok ())
    {data : BackTestingData} (hdata : loadBackTestingData source config = some data) :
    data.tradablePairs = source.getAvailablePairs ∧ data.dataTime = startLimit source config ∧
      data.stepSize = config.stepSize ∧ data.iteratorCache = ∅ ∧
      calculateTimeSteps (startLimit source config) (endLimit source config) config.stepSize =
        some data.timeSteps := by
  obtain ⟨_, _, hload⟩ := @loadBackTestingData_eq source config hvalid
  rw [hload] at hdata
  obtain ⟨timeSteps, hsteps, hcreate⟩ := Option.map_eq_some_iff.mp hdata
  cases hcreate
  exact ⟨rfl, rfl, rfl, rfl, hsteps⟩

end DataFactory

namespace BackTest

open DataFactory

/-- Two configurations that differ in the loading. -/
structure LoadedLater (static dynamic : BackTestingConfig) : Prop where
  startTime : static.startTime = dynamic.startTime
  endTime : static.endTime = dynamic.endTime
  stepSize : static.stepSize = dynamic.stepSize
  static_load : static.dynamicLoad = false
  dynamic_load : dynamic.dynamicLoad = true
  valid : dynamic.validate = .ok ()

variable {static dynamic : BackTestingConfig}

/-- What is valid for loading later is valid for loading at once. -/
theorem LoadedLater.static_valid (h : LoadedLater static dynamic) : static.validate = .ok () := by
  obtain ⟨hend, -, hstep⟩ := dynamic.validate_eq_ok_iff.mp h.valid
  refine static.validate_eq_ok_iff.mpr ⟨?_, fun hload => ?_, h.stepSize ▸ hstep⟩
  · rwa [h.startTime, h.endTime]
  · rw [h.static_load] at hload
    cases hload

/-- Loading at the start and loading later have the configured start and end in common. -/
theorem LoadedLater.limits (h : LoadedLater static dynamic) (source : BackTestingDataSource) :
    startLimit source static = startLimit source dynamic ∧
      endLimit source static = endLimit source dynamic := by
  obtain ⟨-, hload, -⟩ := dynamic.validate_eq_ok_iff.mp h.valid
  obtain ⟨hstart, hend⟩ := hload h.dynamic_load
  rw [startLimit, startLimit, endLimit, endLimit, h.startTime, h.endTime, if_pos hstart, if_pos hend,
    if_pos hstart, if_pos hend]
  exact ⟨rfl, rfl⟩

/-- With a source that has no candles of a pair that it does not list, dynamic loading changes nothing
that a strategy could see: the back tests run as many rounds, and after any number of rounds they end
alike, whatever the strategy is. -/
theorem strategyLoop_dynamicLoad (source : BackTestingDataSource)
    (hlisted : ∀ pair ∉ source.getAvailablePairs, ∀ stepSize, source.loadData pair stepSize = [])
    (h : LoadedLater static dynamic) {data data' : BackTestingData}
    (hdata : loadBackTestingData source static = some data)
    (hdata' : loadBackTestingData source dynamic = some data') :
    data.timeSteps = data'.timeSteps ∧
      ∀ {κ : Type} (strategy : Strategy κ) (config : PaperTradingConfig) (orders : List WalkOrder)
        (state : κ),
        let ended := strategyLoop strategy orders state (BackTest.create config data)
        let ended' := strategyLoop strategy orders state (BackTest.create config data')
        ended.1 = ended'.1 ∧ ended.2.1 = ended'.2.1 ∧ ended.2.2.api = ended'.2.2.api ∧
          ended.2.2.subscriptions = ended'.2.2.subscriptions ∧ ended.2.2.logger = ended'.2.2.logger := by
  obtain ⟨hpairs, htime, hstep, hcache, hsteps⟩ := loadBackTestingData_fields h.static_valid hdata
  obtain ⟨hpairs', htime', hstep', hcache', hsteps'⟩ := loadBackTestingData_fields h.valid hdata'
  obtain ⟨hstart, hend⟩ := h.limits source
  constructor
  · rw [hstart, hend, h.stepSize, hsteps'] at hsteps
    exact (Option.some.inj hsteps).symm
  · intro κ strategy config orders state
    obtain ⟨-, -, hpositive⟩ := dynamic.validate_eq_ok_iff.mp h.valid
    have hseries (pair : TradablePair) : data.series pair = data'.series pair := by
      rw [series_of_static h.static_load hdata, series_of_dynamic h.dynamic_load hdata', h.stepSize]
      split
      · rfl
      · next hnot => exact (hlisted pair hnot dynamic.stepSize).symm
    have halike : Alike Set.univ (BackTest.create config data) (BackTest.create config data') :=
      ⟨(Steady.create config hcache (by rw [hstep, h.stepSize]; exact hpositive.le)).1,
        (Steady.create config hcache' (by rw [hstep']; exact hpositive.le)).1, hpairs.trans hpairs'.symm,
        htime.trans (hstart.trans htime'.symm), hstep.trans (h.stepSize.trans hstep'.symm),
        fun pair time _ => (hseries pair : (BackTest.create config data).data.series pair = _) ▸ .refl _ _,
        rfl, rfl, rfl⟩
    obtain ⟨hresult, hstate, hended⟩ :=
      halike.strategyLoop strategy orders state fun _ _ => Set.mem_univ _
    exact ⟨hresult, hstate, hended.api, hended.subscriptions, hended.logger⟩

/-- A source of one pair with two candles. -/
theorem strategyLoop_dynamicLoad_buyLow :
    let pair : TradablePair := ⟨"BTC", "GBP"⟩
    let inOrder : WalkOrder := ⟨id, fun _ => List.Perm.refl _⟩
    let candles : List OhlcvData := [⟨60, 20, 20, 20, 20, 1⟩, ⟨120, 9, 9, 9, 9, 1⟩]
    let static : BackTestingConfig :=
      { startTime := 60, endTime := 180, stepSize := 60, dynamicLoad := false }
    let dynamic : BackTestingConfig := { static with dynamicLoad := true }
    ∃ source : BackTestingDataSource, source.getAvailablePairs = [pair] ∧
      source.loadData pair 60 = candles ∧
      ∃ data data', loadBackTestingData source static = some data ∧
        loadBackTestingData source dynamic = some data' ∧
        (strategyLoop (buyLow pair) [inOrder, inOrder, inOrder] 0
            (BackTest.create ⟨0, [("GBP", 100)]⟩ data)).2.2.api =
          (strategyLoop (buyLow pair) [inOrder, inOrder, inOrder] 0
            (BackTest.create ⟨0, [("GBP", 100)]⟩ data')).2.2.api := by
  intro pair inOrder candles static dynamic
  let source : BackTestingDataSource :=
    { getAvailablePairs := [pair]
      loadData := fun other _ => if other = pair then candles else []
      isTime := by
        intro other stepSize candle hmem
        split at hmem
        · revert candle
          decide
        · exact absurd hmem List.not_mem_nil }
  have hlisted : ∀ other ∉ source.getAvailablePairs, ∀ stepSize, source.loadData other stepSize = [] :=
    fun other hnot _ => if_neg fun heq : other = pair => hnot (List.mem_singleton.mpr heq)
  have hlater : LoadedLater static dynamic := ⟨rfl, rfl, rfl, rfl, rfl, rfl⟩
  refine ⟨source, rfl, rfl, _, _, rfl, rfl, ?_⟩
  exact ((strategyLoop_dynamicLoad source hlisted hlater rfl rfl).2 (buyLow pair)
    ⟨0, [("GBP", 100)]⟩ [inOrder, inOrder, inOrder] 0).2.2.1

end BackTest

end MarketBlocks
