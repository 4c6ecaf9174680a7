import MarketBlocks.BackTesting.CsvDataSource
import MarketBlocks.Library.Calls
import MarketBlocks.Library.Thinning

/-!
# Candles in the order of the file

`load_data` is meant to load the candles of a file at least a step apart, starting with the earliest.
The row selector runs over the rows as the file has them, however, and compares each row with the
one it has selected last. What is loaded is the thinning of the rows in that order, which is that
of the sorted rows exactly when every candle that the latter keeps stands before all later ones.
-/

namespace MarketBlocks

open Library

/-- Two time stamps at least a step apart. -/
def Spaced (stepSize earlier later : ℤ) : Prop := earlier + stepSize ≤ later

instance (stepSize : ℤ) : DecidableRel (Spaced stepSize) :=
  fun earlier later => inferInstanceAs (Decidable (earlier + stepSize ≤ later))

variable {c : Conversions} {source : CsvDataSource} {pair : TradablePair} {stepSize : ℤ}
  {lines : List String} {rows : List OhlcvData}

/-- Rows that are spaced by the step are far from one another. -/
theorem far_spaced (hstep : 0 < stepSize) : Far (Spaced stepSize) where
  lt h := by
    unfold Spaced at h
    omega
  mono h hle := by
    unfold Spaced at h ⊢
    omega

/-! ## Reading -/

/-- A selector that has selected nothing, or a row last whose time stamp is not negative. -/
def OhlcvDataSelector.after (stepSize : ℤ) (last : Option ℤ) : OhlcvDataSelector :=
  { stepSize, lastTime := last.getD (-1) }

/-- A row is selected when the last one admits it. -/
theorem OhlcvDataSelector.select_after {last : Option ℤ} (hlast : ∀ time ∈ last, 0 ≤ time)
    (data : OhlcvData) :
    (after stepSize last).select data =
      if Admits (Spaced stepSize) last data.timeStamp then
        (true, after stepSize (some data.timeStamp))
      else (false, after stepSize last) := by
  cases last with
  | none =>
    rw [if_pos (admits_none _)]
    exact if_neg fun h => h.1 rfl
  | some time =>
    have htime : time ≠ -1 := by
      have := hlast time rfl
      omega
    have hadmits : Admits (Spaced stepSize) (some time) data.timeStamp ↔
        ¬(time ≠ -1 ∧ data.timeStamp - time < stepSize) := by
      unfold Admits Spaced
      simp only [Option.mem_def, Option.some.injEq, forall_eq']
      omega
    by_cases h : time ≠ -1 ∧ data.timeStamp - time < stepSize
    · rw [if_neg fun hyes => hadmits.mp hyes h]
      exact if_pos h
    · rw [if_pos (hadmits.mpr h)]
      exact if_neg h

/-- What is read with a selector is the thinning of what is read without. -/
theorem OhlcvDataSelector.readCsvFile_after (hread : MarketBlocks.readCsvFile c lines = .ok rows)
    (hnonneg : ∀ row ∈ rows, 0 ≤ row.timeStamp) {last : Option ℤ}
    (hlast : ∀ time ∈ last, 0 ≤ time) :
    OhlcvDataSelector.readCsvFile c (after stepSize last) lines =
      .ok (thin OhlcvData.timeStamp (Spaced stepSize) last rows) := by
  have hrows := mapM_eq_ok_iff.mp hread
  clear hread
  induction hrows generalizing last with
  | nil => rfl
  | @cons line row lines rows hrow _ ih =>
    rw [List.forall_mem_cons] at hnonneg
    rw [OhlcvDataSelector.readCsvFile, hrow]
    simp only [bind, Except.bind]
    rw [select_after hlast]
    by_cases hadmits : Admits (Spaced stepSize) last row.timeStamp
    · rw [if_pos hadmits, thin_cons_of_admits hadmits,
        ih hnonneg.2 fun _ h => Option.some.inj h ▸ hnonneg.1]
      rfl
    · rw [if_neg hadmits, thin_cons_of_not_admits hadmits, ih hnonneg.2 hlast]
      rfl

namespace CsvDataSource

/-- The rows of the file of a pair, in the order of the file. -/
def readAll (c : Conversions) (source : CsvDataSource) (pair : TradablePair) :
    Except Fault (List OhlcvData) :=
  readCsvFile c (source.lines pair)

/-- The candles to be loaded of a file: the rows sorted by time, without those that follow the last
one too closely. -/
def thinned (stepSize : ℤ) (rows : List OhlcvData) : List OhlcvData :=
  thin OhlcvData.timeStamp (Spaced stepSize) none (sortByTime rows)

/-- Sorting keeps the rows. -/
theorem perm_sortByTime (rows : List OhlcvData) : (sortByTime rows).Perm rows :=
  List.perm_insertionSort _ rows

/-- Sorted rows are in the order of their times. -/
theorem pairwise_sortByTime (rows : List OhlcvData) :
    (sortByTime rows).Pairwise fun x y => x.timeStamp ≤ y.timeStamp := by
  have htotal : Std.Total fun x y : OhlcvData => x.timeStamp ≤ y.timeStamp :=
    ⟨fun x y => le_total x.timeStamp y.timeStamp⟩
  have htrans : IsTrans OhlcvData fun x y => x.timeStamp ≤ y.timeStamp :=
    ⟨fun _ _ _ => le_trans⟩
  exact List.pairwise_insertionSort _ rows

/-- What is loaded is the thinning of the rows in the order of the file. -/
theorem loadData_eq (hstep : 0 < stepSize) (hrows : source.readAll c pair = .ok rows)
    (hnonneg : ∀ row ∈ rows, 0 ≤ row.timeStamp) :
    source.loadData c pair stepSize =
      .ok (thin OhlcvData.timeStamp (Spaced stepSize) none rows) := by
  have hread : OhlcvDataSelector.readCsvFile c (.after stepSize none) (source.lines pair) =
      .ok (thin OhlcvData.timeStamp (Spaced stepSize) none rows) :=
    OhlcvDataSelector.readCsvFile_after hrows hnonneg (by simp)
  have hspaced : (thin OhlcvData.timeStamp (Spaced stepSize) none rows).Pairwise
      fun x y => Spaced stepSize x.timeStamp y.timeStamp :=
    pairwise_thin (far_spaced hstep) none rows
  have hsorted : sortByTime (thin OhlcvData.timeStamp (Spaced stepSize) none rows) =
      thin OhlcvData.timeStamp (Spaced stepSize) none rows :=
    List.Pairwise.insertionSort_eq (hspaced.imp fun h => ((far_spaced hstep).lt h).le)
  rw [loadData]
  change (OhlcvDataSelector.readCsvFile c (.after stepSize none) (source.lines pair) >>= _) = _
  rw [hread]
  exact congrArg Except.ok hsorted

/-- Every row that is to be loaded stands before all rows with a later time stamp. -/
def KeptFirst (stepSize : ℤ) (rows : List OhlcvData) : Prop :=
  rows.Pairwise fun x y => y ∈ thinned stepSize rows → x.timeStamp < y.timeStamp

instance (stepSize : ℤ) (rows : List OhlcvData) : Decidable (KeptFirst stepSize rows) :=
  inferInstanceAs (Decidable (List.Pairwise _ _))

/-- The thinning does not depend on the order of the rows. -/
theorem thinned_eq_of_perm {others : List OhlcvData} (hperm : others.Perm rows)
    (hdistinct : (rows.map OhlcvData.timeStamp).Nodup) :
    thinned stepSize others = thinned stepSize rows := by
  have hsorted : sortByTime others = sortByTime rows := by
    apply List.Perm.eq_of_pairwise _ (pairwise_sortByTime others) (pairwise_sortByTime rows)
    · exact ((perm_sortByTime others).trans hperm).trans (perm_sortByTime rows).symm
    · intro x y hx hy hle hge
      have hrow : ∀ {row}, row ∈ sortByTime others → row ∈ rows := fun h =>
        hperm.mem_iff.mp ((perm_sortByTime others).mem_iff.mp h)
      exact List.inj_on_of_nodup_map hdistinct (hrow hx) ((perm_sortByTime rows).mem_iff.mp hy)
        (le_antisymm hle hge)
  rw [thinned, thinned, hsorted]

/-- What is loaded is the thinned rows exactly when the first row of the file is kept. -/
theorem loadData_eq_thinned_iff (hstep : 0 < stepSize) (hrows : source.readAll c pair = .ok rows)
    (hnonneg : ∀ row ∈ rows, 0 ≤ row.timeStamp)
    (hdistinct : (rows.map OhlcvData.timeStamp).Nodup) :
    source.loadData c pair stepSize = .ok (thinned stepSize rows) ↔ KeptFirst stepSize rows := by
  rw [loadData_eq hstep hrows hnonneg, Except.ok.injEq]
  apply thin_eq_thin_sorted_iff (far_spaced hstep) (perm_sortByTime rows) (pairwise_sortByTime rows)
  exact List.pairwise_map.mp hdistinct

/-! ## Other orders -/

/-- The earliest row is always to be loaded. -/
theorem exists_earliest (hne : rows ≠ []) :
    ∃ earliest ∈ thinned stepSize rows, earliest ∈ rows ∧
      ∀ row ∈ rows, earliest.timeStamp ≤ row.timeStamp := by
  have hmem {row : OhlcvData} : row ∈ sortByTime rows ↔ row ∈ rows :=
    (perm_sortByTime rows).mem_iff
  have hsorted := pairwise_sortByTime rows
  unfold thinned
  cases hrows : sortByTime rows with
  | nil =>
    have hperm := perm_sortByTime rows
    rw [hrows] at hperm
    exact absurd hperm.nil_eq.symm hne
  | cons earliest rest =>
    rw [hrows] at hmem hsorted
    refine ⟨earliest, ?_, hmem.mp List.mem_cons_self, fun row hrow => ?_⟩
    · rw [thin_none_cons]
      exact List.mem_cons_self
    · rcases List.mem_cons.mp (hmem.mpr hrow) with rfl | hrest
      · exact le_rfl
      · exact (List.pairwise_cons.mp hsorted).1 row hrest

/-- Only a single row stands before all others in both directions. -/
theorem length_le_one (h : KeptFirst stepSize rows) (hreverse : KeptFirst stepSize rows.reverse)
    (hdistinct : (rows.map OhlcvData.timeStamp).Nodup) : rows.length ≤ 1 := by
  unfold KeptFirst at h hreverse
  rw [List.pairwise_reverse, thinned_eq_of_perm rows.reverse_perm hdistinct] at hreverse
  cases rows with
  | nil => exact Nat.zero_le 1
  | cons first rest =>
    obtain ⟨earliest, hkept, hmem, hle⟩ :=
      @exists_earliest stepSize (first :: rest) (List.cons_ne_nil _ _)
    have hbefore := (List.pairwise_cons.mp h).1
    have hbehind := (List.pairwise_cons.mp hreverse).1
    rcases List.mem_cons.mp hmem with rfl | hrest
    · cases rest with
      | nil => exact le_rfl
      | cons next rest =>
        have hlt := hbehind next List.mem_cons_self hkept
        exact absurd (hle next (by simp)) (not_le.mpr hlt)
    · exact absurd (hle first List.mem_cons_self) (not_le.mpr (hbefore earliest hrest hkept))

/-- The directory whose files all have the lines of the file of a pair, in reverse. -/
def reversed (source : CsvDataSource) (pair : TradablePair) : CsvDataSource where
  entries := source.entries
  contents := fun _ =>
    some (String.ofList ((source.lines pair).reverse.flatMap fun line => line.toList ++ ['\n']))

/-- No line of a file holds a line break. -/
theorem notMem_lines {line : String} (h : line ∈ source.lines pair) : '\n' ∉ line.toList := by
  unfold lines at h
  split at h
  · next contents _ =>
    obtain ⟨text, htext, rfl⟩ := List.mem_map.mp h
    rw [String.toList_ofList]
    exact InputStream.notMem_of_mem_readLines htext
  · cases h

/-- Reversed lines are those of the file from its end. -/
private theorem lines_reversed : (source.reversed pair).lines pair = (source.lines pair).reverse := by
  have hlines : ∀ text ∈ (source.lines pair).reverse.map String.toList, '\n' ∉ text := by
    intro text htext
    obtain ⟨line, hline, rfl⟩ := List.mem_map.mp htext
    exact notMem_lines (List.mem_reverse.mp hline)
  have hread := InputStream.readLines_terminated hlines []
  rw [List.flatMap_map] at hread
  unfold lines
  simp only [reversed, fileLines]
  rw [String.toList_ofList, hread, List.map_map]
  exact List.map_id'' (fun _ => String.ofList_toList) _

/-- A file is read from either end. -/
theorem readAll_reversed (hrows : source.readAll c pair = .ok rows) :
    (source.reversed pair).readAll c pair = .ok rows.reverse := by
  rw [readAll, lines_reversed]
  exact mapM_eq_ok_iff.mpr (List.rel_reverse (mapM_eq_ok_iff.mp hrows))

/-- One file is loaded as it should be exactly when each candle that is to be loaded stands before
all later ones, and so is every file with the same rows exactly when there is at most one. -/
theorem loadData_eq_thinned (c : Conversions) (source : CsvDataSource) (pair : TradablePair)
    (hstep : 0 < stepSize) (hrows : source.readAll c pair = .ok rows)
    (hnonneg : ∀ row ∈ rows, 0 ≤ row.timeStamp)
    (hdistinct : (rows.map OhlcvData.timeStamp).Nodup) :
    (source.loadData c pair stepSize = .ok (thinned stepSize rows) ↔ KeptFirst stepSize rows) ∧
      ((∀ other others, CsvDataSource.readAll c other pair = .ok others → others.Perm rows →
          other.loadData c pair stepSize = .ok (thinned stepSize rows)) ↔ rows.length ≤ 1) := by
  have hother {other : CsvDataSource} {others : List OhlcvData}
      (hothers : other.readAll c pair = .ok others) (hperm : others.Perm rows) :
      other.loadData c pair stepSize = .ok (thinned stepSize rows) ↔ KeptFirst stepSize others := by
    rw [← thinned_eq_of_perm hperm hdistinct]
    apply loadData_eq_thinned_iff hstep hothers
    · exact fun row hrow => hnonneg row (hperm.mem_iff.mp hrow)
    · exact (hperm.map _).nodup_iff.mpr hdistinct
  constructor
  · exact hother hrows (List.Perm.refl rows)
  · constructor
    · intro h
      have hforward := h source rows hrows (List.Perm.refl rows)
      have hbackward := h _ _ (readAll_reversed hrows) rows.reverse_perm
      exact length_le_one ((hother hrows (List.Perm.refl rows)).mp hforward)
        ((hother (readAll_reversed hrows) rows.reverse_perm).mp hbackward) hdistinct
    · intro hlength other others hothers hperm
      rw [hother hothers hperm, KeptFirst, List.pairwise_iff_getElem]
      have hlengths := hperm.length_eq
      intro i j hi hj hij
      omega

/-! ## Files of two days -/

/-- A pair. -/
def btcUsd : TradablePair := { asset := "BTC", priceUnit := "USD" }

/-- A directory with one file. -/
def ofRows (rows : List CsvRow) : CsvDataSource where
  entries := [{ fileName := "BTC_USD.csv", isRegularFile := true }]
  contents := fun name => if name = "BTC_USD.csv" then some (writeCsv rows) else none

/-- A file of plain rows is read row by row. -/
theorem readAll_ofRows {rows : List CsvRow} (hplain : ∀ row ∈ rows, row.Plain) :
    (ofRows rows).readAll c btcUsd = rows.mapM (ohlcvFromCsvRow c) := by
  have hlines : (ofRows rows).lines btcUsd = rows.map CsvRow.toString := by
    change fileLines (writeCsv rows) = _
    rw [fileLines, readLines_writeCsv hplain, List.map_map]
    exact List.map_congr_left fun row _ => String.ofList_toList
  rw [readAll, hlines, readCsvFile, List.mapM_map]
  exact mapM_congr fun row hrow =>
    congrArg (ohlcvFromCsvRow c) (hplain row hrow).parseRow_toString

/-- The row of a candle. -/
def candleRow (time : String) : CsvRow := ⟨[time, "1", "2", "3", "4", "5"]⟩

/-- A candle at a time. -/
def candleAt (timeStamp : ℤ) : OhlcvData :=
  { timeStamp, «open» := 1, high := 2, low := 3, close := 4, volume := 5 }

/-- The rows hold nothing that would break their file. -/
private theorem plain_candleRows : ∀ row ∈ [candleRow "100", candleRow "160"], row.Plain := by
  unfold CsvRow.Plain
  decide

/-- Two rows a step apart, the older one first. -/
theorem loadData_eq_thinned_oldest_first :
    (ofRows [candleRow "100", candleRow "160"]).loadData .ofDigits btcUsd 60 =
      .ok (thinned 60 [candleAt 100, candleAt 160]) := by
  have hrows : (ofRows [candleRow "100", candleRow "160"]).readAll .ofDigits btcUsd =
      .ok [candleAt 100, candleAt 160] := by
    rw [readAll_ofRows plain_candleRows]
    decide +kernel
  have hload := loadData_eq_thinned .ofDigits _ btcUsd (by decide : (0 : ℤ) < 60) hrows
    (by decide) (by decide)
  exact hload.1.mpr (by decide +kernel)

/-- Newest first, only the latest candle is loaded. -/
theorem loadData_newest_first :
    (ofRows [candleRow "160", candleRow "100"]).readAll .ofDigits btcUsd =
        .ok [candleAt 160, candleAt 100] ∧
      (ofRows [candleRow "160", candleRow "100"]).loadData .ofDigits btcUsd 60 =
        .ok [candleAt 160] ∧
      thinned 60 [candleAt 160, candleAt 100] = [candleAt 100, candleAt 160] := by
  have hplain : ∀ row ∈ [candleRow "160", candleRow "100"], row.Plain := by
    unfold CsvRow.Plain
    decide
  have hrows : (ofRows [candleRow "160", candleRow "100"]).readAll .ofDigits btcUsd =
      .ok [candleAt 160, candleAt 100] := by
    rw [readAll_ofRows hplain]
    decide +kernel
  refine ⟨hrows, ?_, by decide +kernel⟩
  rw [loadData_eq (by decide) hrows (by decide)]
  decide +kernel

end CsvDataSource

end MarketBlocks
