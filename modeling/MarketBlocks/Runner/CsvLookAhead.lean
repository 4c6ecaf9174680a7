import MarketBlocks.BackTesting.CandleThinning
import MarketBlocks.Runner.DynamicLoading

/-!
# No look-ahead into the files

From the files of a data directory to the account of a back test: rows are read, thinned and sorted,
the data are loaded at once or on demand, and a strategy runs on them. Rows behind a moment have no
influence on what has happened until then, whatever else is done to the files.
-/

namespace MarketBlocks

open Library

variable {c : Conversions} {stepSize moment : ℤ} {rows rows' : List OhlcvData}

/-- A directory all of whose files can be read, with the rows that they have. -/
structure CsvDirectory (c : Conversions) where
  source : CsvDataSource
  rows : TradablePair → List OhlcvData
  readAll_eq : ∀ pair, source.readAll c pair = .ok (rows pair)
  isTime : ∀ pair, ∀ row ∈ rows pair, 0 ≤ row.timeStamp ∧ IsTime row.timeStamp

namespace CsvDirectory

/-- What is loaded for a pair, whatever the step size is. -/
theorem loadData_eq (directory : CsvDirectory c) (pair : TradablePair) (stepSize : ℤ) :
    directory.source.loadData c pair stepSize = .ok (CsvDataSource.sortByTime
      (thin OhlcvData.timeStamp (Spaced stepSize) none (directory.rows pair))) := by
  have hread : OhlcvDataSelector.readCsvFile c (.after stepSize none) (directory.source.lines pair) =
      .ok (thin OhlcvData.timeStamp (Spaced stepSize) none (directory.rows pair)) :=
    OhlcvDataSelector.readCsvFile_after (directory.readAll_eq pair)
      (fun row hrow => (directory.isTime pair row hrow).1) (by simp)
  rw [CsvDataSource.loadData]
  change (OhlcvDataSelector.readCsvFile c (.after stepSize none) (directory.source.lines pair) >>= _) = _
  rw [hread]
  rfl

/-- The directory as a data source. -/
def dataSource (directory : CsvDirectory c) : BackTestingDataSource where
  getAvailablePairs := directory.source.getAvailablePairs
  loadData pair stepSize := ((directory.source.loadData c pair stepSize).toOption).getD []
  isTime pair stepSize candle hmem := by
    rw [directory.loadData_eq pair stepSize] at hmem
    have hthin := (CsvDataSource.perm_sortByTime _).subset hmem
    exact (directory.isTime pair candle ((thin_sublist none _).subset hthin)).2

/-- With a positive step the rows come out of the thinning in order. -/
theorem dataSource_loadData (directory : CsvDirectory c) (hstep : 0 < stepSize) (pair : TradablePair) :
    directory.dataSource.loadData pair stepSize =
      thin OhlcvData.timeStamp (Spaced stepSize) none (directory.rows pair) := by
  have hload := CsvDataSource.loadData_eq hstep (directory.readAll_eq pair)
    fun row hrow => (directory.isTime pair row hrow).1
  change ((directory.source.loadData c pair stepSize).toOption).getD [] = _
  rw [hload]
  rfl

end CsvDirectory

/-- Files with the same rows up to a place behind which all rows are later than `moment`. The price of a
trade tells whether a file ends, so that they are the same, or both go on for a step at least. -/
structure SameRowsUntil (stepSize moment : ℤ) (rows rows' : List OhlcvData) : Prop where
  split : ∃ past later later', rows = past ++ later ∧ rows' = past ++ later' ∧
    (∀ row ∈ later, moment < row.timeStamp) ∧ ∀ row ∈ later', moment < row.timeStamp
  goesOn : rows = rows' ∨
    (∃ row ∈ rows, moment + stepSize ≤ row.timeStamp) ∧ ∃ row ∈ rows', moment + stepSize ≤ row.timeStamp

namespace SameRowsUntil

/-- Thinned rows are in order. -/
private theorem pairwise_thin_le (hstep : 0 < stepSize) (rows : List OhlcvData) :
    (thin OhlcvData.timeStamp (Spaced stepSize) none rows).Pairwise (·.timeStamp ≤ ·.timeStamp) := by
  have hspaced : (thin OhlcvData.timeStamp (Spaced stepSize) none rows).Pairwise
      fun x y => Spaced stepSize x.timeStamp y.timeStamp :=
    pairwise_thin (far_spaced hstep) none rows
  exact hspaced.imp fun h => ((far_spaced hstep).lt h).le

/-- Rows that go on leave candles that go on. -/
private theorem continues_thin (hstep : 0 < stepSize) (h : ∃ row ∈ rows, moment + stepSize ≤ row.timeStamp) :
    BackTestingData.Continues (thin OhlcvData.timeStamp (Spaced stepSize) none rows) moment := by
  obtain ⟨row, hrow, hlate⟩ := h
  have hback : ∀ {a b c : ℤ}, a ≤ b → Spaced stepSize b c → Spaced stepSize a c := by
    intro a b c hle hspaced
    unfold Spaced at hspaced ⊢
    omega
  exact exists_kept_above (far_spaced hstep) hback (by simp) hrow hlate

/-- The candles that are loaded cannot be told apart until the moment. -/
theorem knownAlike (h : SameRowsUntil stepSize moment rows rows') (hstep : 0 < stepSize) :
    BackTestingData.KnownAlike (thin OhlcvData.timeStamp (Spaced stepSize) none rows)
      (thin OhlcvData.timeStamp (Spaced stepSize) none rows') moment where
  sorted := pairwise_thin_le hstep rows
  sorted' := pairwise_thin_le hstep rows'
  past := by
    obtain ⟨past, later, later', hrows, hrows', hlater, hlater'⟩ := h.split
    have hfront (later : List OhlcvData) (hlater : ∀ row ∈ later, moment < row.timeStamp) :
        (thin OhlcvData.timeStamp (Spaced stepSize) none (past ++ later)).filter (·.timeStamp ≤ moment) =
          (thin OhlcvData.timeStamp (Spaced stepSize) none past).filter (·.timeStamp ≤ moment) := by
      obtain ⟨between, hthin⟩ : ∃ between,
          thin OhlcvData.timeStamp (Spaced stepSize) none (past ++ later) =
            thin OhlcvData.timeStamp (Spaced stepSize) none past ++
              thin OhlcvData.timeStamp (Spaced stepSize) between later :=
        exists_thin_append none past later
      have hgone : (thin OhlcvData.timeStamp (Spaced stepSize) between later).filter
          (·.timeStamp ≤ moment) = [] := by
        refine List.filter_eq_nil_iff.mpr fun candle hmem => ?_
        have hlt := hlater candle ((thin_sublist between later).subset hmem)
        simpa using hlt
      rw [hthin, List.filter_append, hgone, List.append_nil]
    rw [hrows, hrows', hfront later hlater, hfront later' hlater']
  continues := by
    rcases h.goesOn with heq | ⟨hon, hon'⟩
    · rw [heq]
    · exact iff_of_true (continues_thin hstep hon) (continues_thin hstep hon')

end SameRowsUntil

namespace BackTest

open DataFactory

variable {directory directory' : CsvDirectory c} {config : BackTestingConfig}

/-- The data that are loaded from two directories, at once or on demand. -/
theorem sameUntil_of_csv (hpairs : directory.source.getAvailablePairs = directory'.source.getAvailablePairs)
    (hvalid : config.validate = .ok ()) (hstart : config.startTime ≠ 0)
    (hrows : ∀ pair, SameRowsUntil config.stepSize moment (directory.rows pair) (directory'.rows pair))
    {data data' : BackTestingData} (hdata : loadBackTestingData directory.dataSource config = some data)
    (hdata' : loadBackTestingData directory'.dataSource config = some data') :
    SameUntil data data' moment := by
  obtain ⟨-, -, hstep⟩ := config.validate_eq_ok_iff.mp hvalid
  obtain ⟨hlisted, htime, hsize, -, -⟩ := loadBackTestingData_fields hvalid hdata
  obtain ⟨hlisted', htime', hsize', -, -⟩ := loadBackTestingData_fields hvalid hdata'
  have hknown (pair : TradablePair) : BackTestingData.KnownAlike
      (directory.dataSource.loadData pair config.stepSize)
      (directory'.dataSource.loadData pair config.stepSize) moment := by
    rw [directory.dataSource_loadData hstep, directory'.dataSource_loadData hstep]
    exact (hrows pair).knownAlike hstep
  have hnone : BackTestingData.KnownAlike [] [] moment :=
    ⟨List.Pairwise.nil, List.Pairwise.nil, rfl, Iff.rfl⟩
  refine ⟨hlisted.trans (hpairs.trans hlisted'.symm), ?_, hsize.trans hsize'.symm, fun pair => ?_⟩
  · rw [htime, htime', startLimit, startLimit, if_pos hstart, if_pos hstart]
  · cases hload : config.dynamicLoad with
    | true =>
      rw [series_of_dynamic hload hdata, series_of_dynamic hload hdata']
      exact hknown pair
    | false =>
      rw [series_of_static hload hdata, series_of_static hload hdata']
      change BackTestingData.KnownAlike (if pair ∈ directory.source.getAvailablePairs then _ else _)
        (if pair ∈ directory'.source.getAvailablePairs then _ else _) moment
      rw [hpairs]
      split
      · exact hknown pair
      · exact hnone

/-- Rows behind a moment have no influence on what a back test has done until then, whatever the
strategy is: with directories whose files have the same rows up to there, the same account, the same
trades and the same result come out of every number of rounds that does not go beyond the moment. -/
theorem strategyLoop_csv {κ : Type*} (strategy : Strategy κ) (paperConfig : PaperTradingConfig)
    (hpairs : directory.source.getAvailablePairs = directory'.source.getAvailablePairs)
    (hvalid : config.validate = .ok ()) (hstart : config.startTime ≠ 0)
    (hrows : ∀ pair, SameRowsUntil config.stepSize moment (directory.rows pair) (directory'.rows pair))
    {data data' : BackTestingData} (hdata : loadBackTestingData directory.dataSource config = some data)
    (hdata' : loadBackTestingData directory'.dataSource config = some data') (orders : List WalkOrder)
    (hmoment : ∀ k < orders.length, config.startTime + k * config.stepSize ≤ moment) (state : κ) :
    let ended := strategyLoop strategy orders state (BackTest.create paperConfig data)
    let ended' := strategyLoop strategy orders state (BackTest.create paperConfig data')
    ended.1 = ended'.1 ∧ ended.2.1 = ended'.2.1 ∧ ended.2.2.api = ended'.2.2.api ∧
      ended.2.2.subscriptions = ended'.2.2.subscriptions ∧ ended.2.2.logger = ended'.2.2.logger := by
  have hsame := sameUntil_of_csv hpairs hvalid hstart hrows hdata hdata'
  obtain ⟨-, -, hstep⟩ := config.validate_eq_ok_iff.mp hvalid
  obtain ⟨-, htime, hsize, hcache, -⟩ := loadBackTestingData_fields hvalid hdata
  obtain ⟨-, -, -, hcache', -⟩ := loadBackTestingData_fields hvalid hdata'
  have hnonneg : 0 ≤ data.stepSize := by
    rw [hsize]
    exact hstep.le
  obtain ⟨hresult, hstate, halike⟩ :=
    (hsame.alike paperConfig hcache hcache' hnonneg).strategyLoop strategy orders state fun k hk => by
      change data.dataTime + k * data.stepSize ≤ moment
      rw [htime, hsize, startLimit, if_pos hstart]
      exact hmoment k hk
  exact ⟨hresult, hstate, halike.api, halike.subscriptions, halike.logger⟩

/-- A directory with one file. -/
def oneFile (csvRows : List CsvRow) (rows : List OhlcvData) (hplain : ∀ row ∈ csvRows, row.Plain)
    (hrows : csvRows.mapM (ohlcvFromCsvRow .ofDigits) = .ok rows)
    (htime : ∀ row ∈ rows, 0 ≤ row.timeStamp ∧ IsTime row.timeStamp) : CsvDirectory .ofDigits where
  source := .ofRows csvRows
  rows pair := if CsvDataSource.fileName pair = "BTC_USD.csv" then rows else []
  readAll_eq pair := by
    split
    · next hname =>
      have hlines : (CsvDataSource.ofRows csvRows).lines pair =
          (CsvDataSource.ofRows csvRows).lines CsvDataSource.btcUsd := by
        rw [CsvDataSource.lines, hname]
        rfl
      rw [CsvDataSource.readAll, hlines, ← CsvDataSource.readAll, CsvDataSource.readAll_ofRows hplain, hrows]
    · next hname =>
      have hlines : (CsvDataSource.ofRows csvRows).lines pair = [] := by
        rw [CsvDataSource.lines, CsvDataSource.ofRows]
        simp only [if_neg hname]
      rw [CsvDataSource.readAll, hlines]
      rfl
  isTime pair row hmem := by
    split at hmem
    · exact htime row hmem
    · exact absurd hmem List.not_mem_nil

/-- Two files that differ in their last row. -/
theorem strategyLoop_csv_buyLow :
    let rowsOf (last : String) := ["100", "160", last].map CsvDataSource.candleRow
    let inOrder : WalkOrder := ⟨id, fun _ => List.Perm.refl _⟩
    let config : BackTestingConfig :=
      { startTime := 100, endTime := 400, stepSize := 60, dynamicLoad := false }
    ∃ directory directory' : CsvDirectory .ofDigits,
      directory.source = .ofRows (rowsOf "300") ∧ directory'.source = .ofRows (rowsOf "360") ∧
      ∃ data data', loadBackTestingData directory.dataSource config = some data ∧
        loadBackTestingData directory'.dataSource config = some data' ∧
        (strategyLoop (buyLow CsvDataSource.btcUsd) [inOrder, inOrder] 0
            (BackTest.create ⟨0, [("USD", 100)]⟩ data)).2.2.api =
          (strategyLoop (buyLow CsvDataSource.btcUsd) [inOrder, inOrder] 0
            (BackTest.create ⟨0, [("USD", 100)]⟩ data')).2.2.api := by
  intro rowsOf inOrder config
  let candlesOf (last : ℤ) := [100, 160, last].map CsvDataSource.candleAt
  let directory := oneFile (rowsOf "300") (candlesOf 300) (by unfold CsvRow.Plain; decide)
    (by decide +kernel) (by decide)
  let directory' := oneFile (rowsOf "360") (candlesOf 360) (by unfold CsvRow.Plain; decide)
    (by decide +kernel) (by decide)
  have hrows (pair : TradablePair) : SameRowsUntil 60 160 (directory.rows pair) (directory'.rows pair) := by
    change SameRowsUntil 60 160 (if _ then _ else _) (if _ then _ else _)
    split
    · exact ⟨⟨[100, 160].map CsvDataSource.candleAt, [CsvDataSource.candleAt 300],
        [CsvDataSource.candleAt 360], rfl, rfl, by decide, by decide⟩, .inr ⟨by decide, by decide⟩⟩
    · exact ⟨⟨[], [], [], rfl, rfl, by simp, by simp⟩, .inl rfl⟩
  have hpairs : directory.source.getAvailablePairs = directory'.source.getAvailablePairs := rfl
  have hvalid : config.validate = .ok () := rfl
  have hstart : config.startTime ≠ 0 := by decide
  have hmoment : ∀ k < 2, (100 : ℤ) + (k : ℕ) * 60 ≤ 160 := by decide
  obtain ⟨data, hdata⟩ : ∃ data, loadBackTestingData directory.dataSource config = some data := ⟨_, rfl⟩
  obtain ⟨data', hdata'⟩ : ∃ data, loadBackTestingData directory'.dataSource config = some data := ⟨_, rfl⟩
  exact ⟨directory, directory', rfl, rfl, data, data', hdata, hdata',
    (strategyLoop_csv (buyLow CsvDataSource.btcUsd) ⟨0, [("USD", 100)]⟩ hpairs hvalid hstart hrows hdata
      hdata' [inOrder, inOrder] hmoment 0).2.2.1⟩

end BackTest

end MarketBlocks
