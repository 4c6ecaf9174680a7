import MarketBlocks.BackTesting.LookAhead
import MarketBlocks.Library.Calls
import Mathlib.Data.Rat.Floor

/-!
# The windows of the candle query

The rounds of `get_ohlcv` are followed through the calls of `merge_ohlcv` that they make. On a
strictly increasing series each of these calls has a closed form in the number of its round:
the iterators are the candles in force at the two ends of a window.
-/

namespace MarketBlocks

open Library

/-- A call of `merge_ohlcv`: the candles from `start` up to `stop`. -/
structure MergeCall where
  start : ℕ
  stop : ℕ
  targetTime : ℤ
  deriving DecidableEq, Repr

namespace MergeCall

/-- The candles that a call merges. -/
def window (data : List OhlcvData) (call : MergeCall) : List OhlcvData :=
  (data.take call.stop).drop call.start

/-- The candle that a call returns. -/
def perform (data : List OhlcvData) (call : MergeCall) : Except Fault OhlcvData :=
  mergeOhlcv data call.start call.stop call.targetTime

end MergeCall

/-- The candle of a window. -/
def mergeWindow (targetTime : ℤ) : List OhlcvData → Except Fault OhlcvData
  | [] => .error .undefined
  | first :: rest => .ok (rest.foldl mergeStep { first with timeStamp := targetTime })

namespace BackTestingData

/-! ## The calls of a query -/

/-- The rounds of `get_ohlcv` as in `ohlcvLoop`, by their calls of `merge_ohlcv`. -/
def mergeCalls (data : List OhlcvData) (startTime interval : ℤ) :
    ℕ → ℤ → ℕ → Except Fault (List MergeCall)
  | 0, _, _ => .ok []
  | remaining + 1, targetTime, stop => do
    let targetTime := max (targetTime - interval) startTime
    let some last := data[stop]? | .error .undefined
    let start ← stepBack data targetTime stop
    let stop := if targetTime + interval > last.timeStamp then stop + 1 else stop
    if targetTime = startTime ∧ start = 0 then .ok [⟨start, stop, targetTime⟩]
    else
      let calls ← mergeCalls data startTime interval remaining targetTime start
      .ok (⟨start, stop, targetTime⟩ :: calls)

/-- The calls of `get_ohlcv` after the iterator is found. -/
def ohlcvCalls (data : List OhlcvData) (iterator : Option ℕ) (dataTime interval count : ℤ) :
    Except Fault (List MergeCall) :=
  match data.head?, iterator with
  | some front, some index =>
    if index = 0 ∧ dataTime = front.timeStamp then .ok []
    else if count < 0 then .error .lengthError
    else mergeCalls data front.timeStamp interval count.toNat dataTime index
  | _, _ => .ok []

/-- The calls of `merge_ohlcv` that a query makes. -/
def getOhlcvCalls (pair : TradablePair) (interval count : ℤ) (d : BackTestingData) :
    Except Fault (List MergeCall) :=
  (query (fun data iterator time => ohlcvCalls data iterator time interval count) pair d).1

section Replies

variable {data : List OhlcvData} {startTime interval time targetTime count : ℤ}
  {remaining stop start : ℕ} {merged : List OhlcvData}

/-- Stepping back ends at a candle. -/
theorem stepBack_lt (h : stepBack data targetTime stop = .ok start) : start < data.length := by
  induction stop with
  | zero =>
    rw [stepBack] at h
    split at h
    · cases h
    · next hnonempty =>
      cases h
      exact List.length_pos_iff.mpr (by simpa using hnonempty)
  | succ stop ih =>
    rw [stepBack] at h
    split at h
    · cases h
    · next candle hcandle =>
      split at h
      · exact ih h
      · cases h
        exact (List.getElem?_eq_some_iff.mp hcandle).1

/-- The rounds append the candles of their calls. -/
theorem ohlcvLoop_eq_mergeCalls :
    ohlcvLoop data startTime interval remaining time stop merged =
      (mergeCalls data startTime interval remaining time stop).bind fun calls =>
        (calls.mapM (MergeCall.perform data)).map (merged ++ ·) := by
  induction remaining generalizing time stop merged with
  | zero => simp [ohlcvLoop, mergeCalls, Except.bind, Except.map, pure, Except.pure]
  | succ remaining ih =>
    rw [ohlcvLoop, mergeCalls]
    cases hlast : data[stop]? with
    | none => rfl
    | some last =>
      cases hback : stepBack data (max (time - interval) startTime) stop with
      | error fault => rfl
      | ok start =>
        obtain ⟨candle, hcandle⟩ : ∃ candle, mergeOhlcv data start
            (if max (time - interval) startTime + interval > last.timeStamp then stop + 1 else stop)
            (max (time - interval) startTime) = .ok candle := by
          rw [mergeOhlcv, List.getElem?_eq_getElem (stepBack_lt hback)]
          exact ⟨_, rfl⟩
        simp only [bind, Except.bind, hcandle]
        split
        · simp [MergeCall.perform, hcandle, Except.map, bind, Except.bind, pure, Except.pure]
        · rw [ih]
          cases mergeCalls data startTime interval remaining (max (time - interval) startTime)
            start with
          | error fault => rfl
          | ok calls =>
            simp only [Except.bind, List.mapM_cons, MergeCall.perform, hcandle, bind, pure,
              Except.pure]
            cases calls.mapM (MergeCall.perform data) with
            | error fault => rfl
            | ok candles => simp [Except.map]

/-- After the iterator is found the reply consists of the candles of the calls. -/
theorem ohlcvFrom_eq_ohlcvCalls (iterator : Option ℕ) :
    ohlcvFrom data iterator time interval count =
      (ohlcvCalls data iterator time interval count).bind (·.mapM (MergeCall.perform data)) := by
  unfold ohlcvFrom ohlcvCalls
  cases data.head? with
  | none => rfl
  | some front =>
    cases iterator with
    | none => rfl
    | some index =>
      simp only
      split
      · rfl
      · split
        · rfl
        · rw [ohlcvLoop_eq_mergeCalls]
          congr 1
          funext calls
          cases calls.mapM (MergeCall.perform data) <;> rfl

/-- A query replies the candles of its calls. -/
theorem getOhlcv_eq_getOhlcvCalls (pair : TradablePair) (d : BackTestingData) :
    (getOhlcv pair interval count d).1 =
      (getOhlcvCalls pair interval count d).bind (·.mapM (MergeCall.perform (d.series pair))) := by
  obtain ⟨_, hload, _⟩ := getOrLoadData_eq d pair
  rw [getOhlcv_eq_query, getOhlcvCalls]
  simp only [query, hload]
  exact ohlcvFrom_eq_ohlcvCalls _

end Replies

/-! ## The candle in force at the end of a window -/

/-- The last candle that is not after `time`. -/
def lastUpTo (time : ℤ) (data : List OhlcvData) : ℕ := candlesBefore (time + 1) data - 1

section LastUpTo

variable {data : List OhlcvData} {front : OhlcvData} {time targetTime : ℤ} {stop : ℕ}

/-- From the time of the first candle on there is a candle in force. -/
theorem candlesBefore_pos (hfront : data.head? = some front) (htime : front.timeStamp < time) :
    0 < candlesBefore time data := by
  cases data with
  | nil => cases hfront
  | cons first rest =>
    cases hfront
    rw [candlesBefore, countBelow_cons_of_lt htime]
    exact Nat.succ_pos _

/-- The last row up to a time is one of the rows. -/
theorem lastUpTo_lt (hfront : data.head? = some front) (htime : front.timeStamp ≤ time) :
    lastUpTo time data < data.length := by
  have hpos := candlesBefore_pos hfront (by omega : front.timeStamp < time + 1)
  have hle : candlesBefore (time + 1) data ≤ data.length := countBelow_le_length
  unfold lastUpTo
  omega

/-- One more moment counts the candle of that moment, when there is one. -/
theorem candlesBefore_succ (time : ℤ) (hincreasing : Increasing data) :
    candlesBefore (time + 1) data =
      if (data[candlesBefore time data]?).map OhlcvData.timeStamp = some time then
        candlesBefore time data + 1
      else candlesBefore time data := by
  induction data with
  | nil => rfl
  | cons first rest ih =>
    obtain ⟨hfirst, hrest⟩ := List.pairwise_cons.mp hincreasing
    have ih := ih hrest
    unfold candlesBefore at ih ⊢
    rcases lt_trichotomy first.timeStamp time with hlt | heq | hgt
    · rw [countBelow_cons_of_lt hlt, countBelow_cons_of_lt (by omega), ih, List.getElem?_cons_succ]
      split <;> rfl
    · have hnone : countBelow OhlcvData.timeStamp (time + 1) rest = 0 := by
        cases rest with
        | nil => rfl
        | cons second others =>
          have hsecond := hfirst second List.mem_cons_self
          exact countBelow_cons_of_le (by omega)
      rw [countBelow_cons_of_le heq.ge, countBelow_cons_of_lt (by omega), hnone,
        if_pos (by simp [heq])]
    · rw [countBelow_cons_of_le hgt.le, countBelow_cons_of_le (by omega), if_neg]
      simpa using hgt.ne'

/-- Of rows with increasing times one is in force, the last up to the time. -/
private theorem inForce_eq_lastUpTo (hincreasing : Increasing data) :
    inForce time data = lastUpTo time data := by
  rw [inForce, lastUpTo, candlesBefore_succ _ hincreasing]
  split <;> omega

/-- The lookup of a query finds the candle in force. -/
theorem freshIterator_eq_lastUpTo (hincreasing : Increasing data)
    (hfront : data.head? = some front) (htime : front.timeStamp < time) :
    freshIterator data time = some (lastUpTo time data) := by
  rw [freshIterator_eq hincreasing.sorted (candlesBefore_pos hfront htime),
    inForce_eq_lastUpTo hincreasing]

/-- The candle in force at the time of the first candle is the first one. -/
theorem lastUpTo_front (hincreasing : Increasing data) (hfront : data.head? = some front) :
    lastUpTo front.timeStamp data = 0 := by
  have hzero : candlesBefore front.timeStamp data = 0 := by
    cases data with
    | nil => rfl
    | cons first rest =>
      cases hfront
      exact countBelow_cons_of_le le_rfl
  rw [lastUpTo, candlesBefore_succ _ hincreasing, hzero]
  split <;> rfl

/-- A candle is counted exactly when it lies before the moment. -/
theorem lt_candlesBefore_iff (hincreasing : Increasing data) {index : ℕ} {candle : OhlcvData}
    (hcandle : data[index]? = some candle) :
    index < candlesBefore time data ↔ candle.timeStamp < time := by
  constructor
  · exact key_lt_of_lt_countBelow hcandle
  · intro hlt
    by_contra hnot
    have hle := le_key_of_countBelow_le hincreasing.sorted hcandle (not_lt.mp hnot)
    omega

/-- Stepping back ends at the candle in force. -/
theorem stepBack_eq (hincreasing : Increasing data) (hstop : stop < data.length)
    (hle : lastUpTo targetTime data ≤ stop) :
    stepBack data targetTime stop = .ok (lastUpTo targetTime data) := by
  induction stop with
  | zero =>
    have hnonempty : data.isEmpty = false := by
      cases data with
      | nil => simp at hstop
      | cons first rest => rfl
    rw [stepBack, hnonempty, Nat.le_zero.mp hle]
    rfl
  | succ stop ih =>
    have hcandle := List.getElem?_eq_getElem hstop
    have hcounted : stop + 1 < candlesBefore (targetTime + 1) data ↔
        data[stop + 1].timeStamp < targetTime + 1 :=
      lt_candlesBefore_iff hincreasing hcandle
    rw [stepBack, hcandle]
    unfold lastUpTo at hle ih ⊢
    simp only
    split
    · exact ih (by omega) (by omega)
    · congr 1
      omega

end LastUpTo

/-! ## The calls of a query in closed form -/

/-- The number of windows between the first candle and the data time. -/
def windowCount (startTime time interval : ℤ) : ℕ := ⌈((time - startTime : ℤ) : ℚ) / interval⌉₊

/-- The time of the candle of a window. -/
def windowStart (startTime time interval : ℤ) (i : ℕ) : ℤ := max (time - (i + 1) * interval) startTime

/-- The end of a window. -/
def windowEnd (time interval : ℤ) (i : ℕ) : ℤ := time - i * interval

/-- The call of a round. The window that is cut off at the first candle takes in a candle at its
end. -/
def windowCall (data : List OhlcvData) (startTime time interval : ℤ) (i : ℕ) : MergeCall where
  start := lastUpTo (windowStart startTime time interval i) data
  stop :=
    if windowEnd time interval (i + 1) < startTime then candlesBefore (windowEnd time interval i + 1) data
    else candlesBefore (windowEnd time interval i) data
  targetTime := windowStart startTime time interval i

section ClosedForm

variable {data : List OhlcvData} {front : OhlcvData} {startTime time interval count : ℤ}
  {i remaining : ℕ}

/-- A window counts when it ends behind the start. -/
theorem lt_windowCount_iff (hinterval : 0 < interval) :
    i < windowCount startTime time interval ↔ startTime < windowEnd time interval i := by
  have hpos : (0 : ℚ) < interval := by exact_mod_cast hinterval
  rw [windowCount, Nat.lt_ceil, lt_div_iff₀ hpos, windowEnd]
  norm_cast
  constructor <;> intro h <;> linarith

/-- The newest window ends at the time that is asked for. -/
@[simp] theorem windowEnd_zero : windowEnd time interval 0 = time := by simp [windowEnd]

/-- Every other one ends an interval earlier. -/
theorem windowEnd_succ : windowEnd time interval (i + 1) = windowEnd (time - interval) interval i := by
  simp only [windowEnd]
  push_cast
  ring

/-- A window starts where the next older one ends, or at the start. -/
theorem windowStart_eq :
    windowStart startTime time interval i = max (windowEnd time interval (i + 1)) startTime := by
  simp only [windowStart, windowEnd]
  push_cast
  rfl

/-- The windows after the first are those of a query one interval earlier. -/
theorem windowCall_succ :
    windowCall data startTime time interval (i + 1) =
      windowCall data startTime (time - interval) interval i := by
  simp only [windowCall, windowStart_eq, windowEnd_succ]

/-- Behind the start there is a window. -/
theorem windowCount_pos (hinterval : 0 < interval) (htime : startTime < time) :
    0 < windowCount startTime time interval := by
  rw [lt_windowCount_iff hinterval, windowEnd_zero]
  exact htime

/-- One interval later there is one more. -/
theorem windowCount_succ (hinterval : 0 < interval) (htime : startTime < time) :
    windowCount startTime time interval = windowCount startTime (time - interval) interval + 1 := by
  apply eq_of_forall_lt_iff
  intro i
  cases i with
  | zero =>
    have hpos := windowCount_pos hinterval htime
    omega
  | succ i =>
    rw [Nat.succ_lt_succ_iff, lt_windowCount_iff hinterval, lt_windowCount_iff hinterval,
      windowEnd_succ]

/-- At the start there is none yet. -/
theorem windowCount_eq_zero (hinterval : 0 < interval) (htime : time ≤ startTime) :
    windowCount startTime time interval = 0 := by
  have hnot : ¬ 0 < windowCount startTime time interval := by
    rw [lt_windowCount_iff hinterval, windowEnd_zero]
    exact not_lt.mpr htime
  omega

/-- Later times have later rows in force. -/
private theorem lastUpTo_mono {time' : ℤ} (h : time ≤ time') : lastUpTo time data ≤ lastUpTo time' data := by
  have hle : candlesBefore (time + 1) data ≤ candlesBefore (time' + 1) data :=
    countBelow_mono (by omega)
  unfold lastUpTo
  omega

/-- The end of the range that a round merges. -/
theorem windowCall_stop (hincreasing : Increasing data) (hfront : data.head? = some front)
    (htime : front.timeStamp < time) {last : OhlcvData}
    (hlast : data[lastUpTo time data]? = some last) :
    (windowCall data front.timeStamp time interval 0).stop =
      if max (time - interval) front.timeStamp + interval > last.timeStamp then
        lastUpTo time data + 1
      else lastUpTo time data := by
  have hpos := candlesBefore_pos hfront (by omega : front.timeStamp < time + 1)
  have hcounted : candlesBefore (time + 1) data = lastUpTo time data + 1 := by
    unfold lastUpTo
    omega
  have hup : last.timeStamp < time + 1 :=
    (lt_candlesBefore_iff hincreasing hlast).mp (by omega)
  have hbefore : lastUpTo time data < candlesBefore time data ↔ last.timeStamp < time :=
    lt_candlesBefore_iff hincreasing hlast
  have hsucc := candlesBefore_succ time hincreasing
  simp only [windowCall, windowEnd_succ, windowEnd_zero]
  split
  · next hcut => rw [max_eq_right (by omega), if_pos (by omega), hcounted]
  · next hroom =>
    rw [max_eq_left (by omega), sub_add_cancel]
    split at hsucc
    · rw [if_neg (by omega)]
      omega
    · rw [if_pos (by omega)]
      omega

/-- The rounds of a query on a strictly increasing series. -/
theorem mergeCalls_eq (hincreasing : Increasing data) (hfront : data.head? = some front)
    (hinterval : 0 < interval) (htime : front.timeStamp < time) :
    mergeCalls data front.timeStamp interval remaining time (lastUpTo time data) =
      .ok ((List.range (min remaining (windowCount front.timeStamp time interval))).map
        (windowCall data front.timeStamp time interval)) := by
  induction remaining generalizing time with
  | zero => simp [mergeCalls]
  | succ remaining ih =>
    have hlt := lastUpTo_lt hfront htime.le
    have hlast := List.getElem?_eq_getElem hlt
    have hback : stepBack data (max (time - interval) front.timeStamp) (lastUpTo time data) =
        .ok (lastUpTo (max (time - interval) front.timeStamp) data) :=
      stepBack_eq hincreasing hlt (lastUpTo_mono (by omega))
    have hstart : windowStart front.timeStamp time interval 0 =
        max (time - interval) front.timeStamp := by
      rw [windowStart_eq, windowEnd_succ, windowEnd_zero]
    have hcall : windowCall data front.timeStamp time interval 0 =
        ⟨lastUpTo (max (time - interval) front.timeStamp) data,
          (windowCall data front.timeStamp time interval 0).stop,
          max (time - interval) front.timeStamp⟩ := by
      rw [← hstart]
      rfl
    have hshift : windowCall data front.timeStamp time interval ∘ Nat.succ =
        windowCall data front.timeStamp (time - interval) interval := by
      funext i
      exact windowCall_succ
    rw [windowCount_succ hinterval htime, Nat.add_min_add_right, List.range_succ_eq_map,
      List.map_cons, List.map_map, hcall, mergeCalls, hlast, windowCall_stop hincreasing hfront htime hlast]
    simp only [hback, bind, Except.bind]
    by_cases hcut : time - interval ≤ front.timeStamp
    · -- the start of the series is reached
      rw [max_eq_right hcut, lastUpTo_front hincreasing hfront,
        windowCount_eq_zero hinterval hcut, Nat.min_zero]
      simp
    · rw [max_eq_left (by omega), if_neg (by omega), ih (by omega)]
      rw [hshift]

/-- Every window begins at or after the first candle and ends after it begins. -/
theorem windowStart_lt_windowEnd (hinterval : 0 < interval)
    (hi : i < windowCount startTime time interval) :
    windowStart startTime time interval i < windowEnd time interval i := by
  rw [lt_windowCount_iff hinterval] at hi
  have hnext : windowEnd time interval (i + 1) = windowEnd time interval i - interval := by
    simp only [windowEnd]
    push_cast
    ring
  rw [windowStart_eq, hnext]
  omega

/-- No window starts before the first row. -/
theorem le_windowStart : startTime ≤ windowStart startTime time interval i := by
  rw [windowStart_eq]
  omega

/-- The windows of a query are listed from the newest to the oldest. -/
theorem windowStart_strictAnti (hinterval : 0 < interval) {j : ℕ} (hij : i < j)
    (hj : j < windowCount startTime time interval) :
    windowStart startTime time interval j < windowStart startTime time interval i := by
  have hend := windowStart_lt_windowEnd hinterval hj
  have hle : windowEnd time interval j ≤ windowEnd time interval (i + 1) := by
    have hmul : ((i + 1 : ℕ) : ℤ) * interval ≤ (j : ℤ) * interval :=
      mul_le_mul_of_nonneg_right (by omega) hinterval.le
    simp only [windowEnd]
    omega
  rw [windowStart_eq (i := i)]
  omega

/-- A call merges at least one candle, and only existing ones. -/
theorem windowCall_range (hfront : data.head? = some front)
    (hinterval : 0 < interval) (hi : i < windowCount front.timeStamp time interval) :
    (windowCall data front.timeStamp time interval i).start <
        (windowCall data front.timeStamp time interval i).stop ∧
      (windowCall data front.timeStamp time interval i).stop ≤ data.length := by
  have hlt := windowStart_lt_windowEnd hinterval hi
  have hstart : front.timeStamp ≤ windowStart front.timeStamp time interval i := le_windowStart
  have hpos := candlesBefore_pos hfront (Int.lt_add_one_of_le hstart)
  have hle : candlesBefore (windowStart front.timeStamp time interval i + 1) data ≤
      candlesBefore (windowEnd time interval i) data := countBelow_mono (by omega)
  have hle' : candlesBefore (windowEnd time interval i) data ≤
      candlesBefore (windowEnd time interval i + 1) data := countBelow_mono (by omega)
  simp only [windowCall, lastUpTo]
  split
  · exact ⟨by omega, countBelow_le_length⟩
  · exact ⟨by omega, countBelow_le_length⟩

end ClosedForm

/-! ## Candles of a range -/

section Merging

variable {data : List OhlcvData} {targetTime : ℤ} {call : MergeCall} {candle : OhlcvData}

/-- The prices of the candle lie between its low and its high. -/
def Shaped (candle : OhlcvData) : Prop :=
  (candle.low ≤ candle.open ∧ candle.open ≤ candle.high) ∧
    candle.low ≤ candle.close ∧ candle.close ≤ candle.high

/-- Merging keeps low, open, close and high in order. -/
theorem Shaped.merge {merged candle : OhlcvData} (hmerged : Shaped merged)
    (hcandle : Shaped candle) : Shaped (mergeStep merged candle) := by
  obtain ⟨⟨hlowOpen, hopenHigh⟩, _⟩ := hmerged
  obtain ⟨_, hlowClose, hcloseHigh⟩ := hcandle
  exact ⟨⟨(min_le_left _ _).trans hlowOpen, hopenHigh.trans (le_max_left _ _)⟩,
    (min_le_right _ _).trans hlowClose, hcloseHigh.trans (le_max_right _ _)⟩

/-- Merging keeps the time stamp of the first candle. -/
theorem foldl_mergeStep_timeStamp (candles : List OhlcvData) (merged : OhlcvData) :
    (candles.foldl mergeStep merged).timeStamp = merged.timeStamp := by
  induction candles generalizing merged with
  | nil => rfl
  | cons candle rest ih => exact ih _

/-- The volumes are added. -/
theorem foldl_mergeStep_volume (candles : List OhlcvData) (merged : OhlcvData) :
    (candles.foldl mergeStep merged).volume =
      merged.volume + (candles.map OhlcvData.volume).sum := by
  induction candles generalizing merged with
  | nil => simp
  | cons candle rest ih =>
    rw [List.foldl_cons, ih, List.map_cons, List.sum_cons, ← add_assoc]
    rfl

/-- Merging any number of shaped candles keeps their shape. -/
theorem Shaped.merge_foldl {candles : List OhlcvData} (hcandles : ∀ candle ∈ candles, Shaped candle)
    {merged : OhlcvData} (hmerged : Shaped merged) : Shaped (candles.foldl mergeStep merged) := by
  induction candles generalizing merged with
  | nil => exact hmerged
  | cons candle rest ih =>
    rw [List.forall_mem_cons] at hcandles
    exact ih hcandles.2 (hmerged.merge hcandles.1)

/-- A candle of a window carries its time, its volume and the shape of its candles. -/
theorem mergeWindow_spec {window : List OhlcvData} (h : mergeWindow targetTime window = .ok candle) :
    candle.timeStamp = targetTime ∧ candle.volume = (window.map OhlcvData.volume).sum ∧
      ((∀ entry ∈ window, Shaped entry) → Shaped candle) := by
  cases window with
  | nil => cases h
  | cons first rest =>
    cases h
    refine ⟨foldl_mergeStep_timeStamp _ _, ?_, ?_⟩
    · rw [foldl_mergeStep_volume, List.map_cons, List.sum_cons]
    · intro hshaped
      rw [List.forall_mem_cons] at hshaped
      exact Shaped.merge_foldl hshaped.2 hshaped.1

/-- A call with a non-empty range returns the candle of its window. -/
theorem perform_eq_mergeWindow (hrange : call.start < call.stop ∧ call.stop ≤ data.length) :
    call.perform data = mergeWindow call.targetTime (call.window data) := by
  obtain ⟨hlt, hle⟩ := hrange
  have hstart : call.start < (data.take call.stop).length := by
    rw [List.length_take]
    omega
  rw [MergeCall.perform, mergeOhlcv, MergeCall.window, List.drop_eq_getElem_cons hstart,
    List.getElem?_eq_getElem (by omega : call.start < data.length), List.getElem_take]
  rfl

/-- Some candles can be merged. -/
theorem exists_mergeWindow_eq (targetTime : ℤ) {window : List OhlcvData} (h : window ≠ []) :
    ∃ candle, mergeWindow targetTime window = .ok candle := by
  cases window with
  | nil => exact absurd rfl h
  | cons first rest => exact ⟨_, rfl⟩

/-- A window within the rows holds a row. -/
theorem window_ne_nil (hrange : call.start < call.stop ∧ call.stop ≤ data.length) :
    call.window data ≠ [] := by
  rw [← List.length_pos_iff, MergeCall.window, List.length_drop, List.length_take]
  omega

end Merging

/-! ## The calls of a query in a reachable state -/

section Reachable

variable {d : BackTestingData} {pair : TradablePair} {data : List OhlcvData} {front : OhlcvData}
  {time interval count : ℤ}

/-- In a reachable state the cached iterator makes the calls of a fresh one. -/
theorem Reachable.getOhlcvCalls_eq (h : d.Reachable) :
    getOhlcvCalls pair interval count d =
      ohlcvCalls (d.series pair) (freshIterator (d.series pair) d.dataTime) d.dataTime interval count :=
  (query_spec _ h.cacheBounded pair).1

/-- Until the first candle is past the lookup finds at most the first candle. -/
theorem freshIterator_of_le (hincreasing : Increasing data) (hfront : data.head? = some front)
    (htime : time ≤ front.timeStamp) {index : ℕ} (h : freshIterator data time = some index) :
    index = 0 ∧ time = front.timeStamp := by
  cases data with
  | nil => cases hfront
  | cons first rest =>
    cases hfront
    have hback : front.timeStamp ≤ ((front :: rest).getLast (List.cons_ne_nil _ _)).timeStamp := by
      rcases List.mem_cons.mp (List.getLast_mem (List.cons_ne_nil front rest)) with heq | hmem
      · rw [heq]
      · exact ((List.pairwise_cons.mp hincreasing).1 _ hmem).le
    have hzero : candlesBefore time (front :: rest) = 0 := countBelow_cons_of_le htime
    have hindex := inForce_le time (front :: rest)
    rw [freshIterator, List.getLast?_eq_getLast_of_ne_nil (List.cons_ne_nil _ _)] at h
    simp only [List.head?_cons] at h
    split at h
    · cases h
    · rw [if_neg (by omega)] at h
      cases h
      exact ⟨by omega, by omega⟩

/-- Until the first candle is past there is nothing to merge. -/
theorem ohlcvCalls_of_not_after (hincreasing : Increasing data)
    (htime : ∀ front, data.head? = some front → time ≤ front.timeStamp) :
    ohlcvCalls data (freshIterator data time) time interval count = .ok [] := by
  unfold ohlcvCalls
  cases hfront : data.head? with
  | none => rfl
  | some front =>
    cases hiterator : freshIterator data time with
    | none => rfl
    | some index => exact if_pos (freshIterator_of_le hincreasing hfront (htime front hfront) hiterator)

/-- After the first candle the calls are those of the windows asked for. -/
theorem ohlcvCalls_eq (hincreasing : Increasing data) (hfront : data.head? = some front)
    (hinterval : 0 < interval) (hcount : 0 ≤ count) (htime : front.timeStamp < time) :
    ohlcvCalls data (freshIterator data time) time interval count =
      .ok ((List.range (min count.toNat (windowCount front.timeStamp time interval))).map
        (windowCall data front.timeStamp time interval)) := by
  rw [freshIterator_eq_lastUpTo hincreasing hfront htime]
  unfold ohlcvCalls
  rw [hfront]
  simp only
  rw [if_neg (by omega), if_neg (by omega), mergeCalls_eq hincreasing hfront hinterval htime]

/-- The candles of calls that merge existing candles, one for each call. -/
theorem exists_candles {calls : List MergeCall}
    (hrange : ∀ call ∈ calls, call.start < call.stop ∧ call.stop ≤ data.length) :
    ∃ candles, calls.mapM (MergeCall.perform data) = .ok candles ∧
      List.Forall₂ (fun call candle => mergeWindow call.targetTime (call.window data) = .ok candle)
        calls candles := by
  have hok : ∀ call ∈ calls, ∃ candle, MergeCall.perform data call = .ok candle := by
    intro call hcall
    obtain ⟨candle, hcandle⟩ := exists_mergeWindow_eq call.targetTime
      (window_ne_nil (hrange call hcall))
    exact ⟨candle, by rw [perform_eq_mergeWindow (hrange call hcall), hcandle]⟩
  obtain ⟨candles, hcandles⟩ := exists_mapM_eq_ok hok
  have hperformed := mapM_eq_ok_iff.mp hcandles
  refine ⟨candles, hcandles, ?_⟩
  rw [List.forall₂_iff_get] at hperformed ⊢
  obtain ⟨hlength, hget⟩ := hperformed
  refine ⟨hlength, fun i hcall hcandle => ?_⟩
  rw [← perform_eq_mergeWindow (hrange _ (List.get_mem calls ⟨i, hcall⟩))]
  exact hget i hcall hcandle

/-- The calls of a query in closed form. -/
def windowCalls (data : List OhlcvData) (time interval : ℤ) (count : ℕ) : List MergeCall :=
  match data.head? with
  | none => []
  | some front =>
    (List.range (min count (windowCount front.timeStamp time interval))).map
      (windowCall data front.timeStamp time interval)

/-- The windows are counted from the newest one back to the start. -/
theorem windowCalls_eq (hfront : data.head? = some front) (count : ℕ) :
    windowCalls data time interval count =
      (List.range (min count (windowCount front.timeStamp time interval))).map
        (windowCall data front.timeStamp time interval) := by
  rw [windowCalls, hfront]

/-- No windows are asked for up to the first row. -/
theorem windowCalls_nil (hinterval : 0 < interval) (count : ℕ)
    (htime : ∀ front, data.head? = some front → time ≤ front.timeStamp) :
    windowCalls data time interval count = [] := by
  cases hfront : data.head? with
  | none => rw [windowCalls, hfront]
  | some front =>
    rw [windowCalls_eq hfront, windowCount_eq_zero hinterval (htime front hfront), Nat.min_zero]
    rfl

/-- Every window that is asked for lies within the rows and holds one. -/
theorem windowCalls_range (data : List OhlcvData) (time : ℤ) (hinterval : 0 < interval) (count : ℕ) :
    ∀ call ∈ windowCalls data time interval count, call.start < call.stop ∧ call.stop ≤ data.length := by
  intro call hcall
  cases hfront : data.head? with
  | none =>
    rw [windowCalls, hfront] at hcall
    cases hcall
  | some front =>
    rw [windowCalls_eq hfront] at hcall
    obtain ⟨i, hi, rfl⟩ := List.mem_map.mp hcall
    rw [List.mem_range, lt_min_iff] at hi
    exact windowCall_range hfront hinterval hi.2

/-- The windows are listed from the newest to the oldest. -/
theorem windowCalls_decreasing (hinterval : 0 < interval) (count : ℕ) :
    (windowCalls data time interval count).Pairwise (·.targetTime > ·.targetTime) := by
  cases hfront : data.head? with
  | none =>
    rw [windowCalls, hfront]
    exact List.Pairwise.nil
  | some front =>
    rw [windowCalls_eq hfront, List.pairwise_map]
    refine List.Pairwise.imp_of_mem ?_ List.pairwise_lt_range
    intro i j _ hj hij
    rw [List.mem_range, lt_min_iff] at hj
    exact windowStart_strictAnti hinterval hij hj.2

/-- The calls that a reachable state makes for a strictly increasing series. -/
theorem Reachable.getOhlcvCalls_eq_windowCalls (h : d.Reachable)
    (hincreasing : Increasing (d.series pair)) (hinterval : 0 < interval) (hcount : 0 ≤ count) :
    getOhlcvCalls pair interval count d =
      .ok (windowCalls (d.series pair) d.dataTime interval count.toNat) := by
  rw [h.getOhlcvCalls_eq]
  by_cases hafter : ∃ front, (d.series pair).head? = some front ∧ front.timeStamp < d.dataTime
  · obtain ⟨front, hfront, htime⟩ := hafter
    rw [windowCalls_eq hfront]
    exact ohlcvCalls_eq hincreasing hfront hinterval hcount htime
  · push Not at hafter
    rw [windowCalls_nil hinterval _ hafter]
    exact ohlcvCalls_of_not_after hincreasing hafter

/-- The reply consists of the candles of the windows. -/
theorem Reachable.exists_candles (h : d.Reachable) (hincreasing : Increasing (d.series pair))
    (hinterval : 0 < interval) (hcount : 0 ≤ count) :
    ∃ candles, (getOhlcv pair interval count d).1 = .ok candles ∧
      List.Forall₂ (fun call candle =>
          mergeWindow call.targetTime (call.window (d.series pair)) = .ok candle)
        (windowCalls (d.series pair) d.dataTime interval count.toNat) candles := by
  obtain ⟨candles, hcandles, hmerged⟩ :=
    BackTestingData.exists_candles
      (windowCalls_range (d.series pair) d.dataTime hinterval count.toNat)
  refine ⟨candles, ?_, hmerged⟩
  rw [getOhlcv_eq_getOhlcvCalls, h.getOhlcvCalls_eq_windowCalls hincreasing hinterval hcount]
  exact hcandles

/-- What can be said of every reply: the calls behind it and the candles in it. -/
structure ReplyShape (data : List OhlcvData) (time interval count : ℤ) (calls : List MergeCall)
    (candles : List OhlcvData) : Prop where
  /-- Every call merges at least one candle, and only existing ones. -/
  range : ∀ call ∈ calls, call.start < call.stop ∧ call.stop ≤ data.length
  nil : data = [] → candles = []
  early : ∀ front, data.head? = some front → time ≤ front.timeStamp → candles = []
  times : ∀ front, data.head? = some front → front.timeStamp < time →
    candles.map OhlcvData.timeStamp =
      (List.range (min count.toNat ⌈((time - front.timeStamp : ℤ) : ℚ) / interval⌉₊)).map
        fun i : ℕ => max (time - (i + 1) * interval) front.timeStamp
  decreasing : (candles.map OhlcvData.timeStamp).Pairwise (· > ·)
  shaped : (∀ candle ∈ data, Shaped candle) → ∀ candle ∈ candles, Shaped candle

/-- The candles of a reply carry the ends of their windows. -/
theorem timeStamps_eq {calls : List MergeCall} {candles : List OhlcvData}
    (h : List.Forall₂ (fun call candle => mergeWindow call.targetTime (call.window data) = .ok candle)
      calls candles) : candles.map OhlcvData.timeStamp = calls.map MergeCall.targetTime := by
  induction h with
  | nil => rfl
  | cons hcandle _ ih => rw [List.map_cons, List.map_cons, ih, (mergeWindow_spec hcandle).1]

/-- What is merged of shaped candles is shaped. -/
theorem shaped_of_merged {calls : List MergeCall} {candles : List OhlcvData}
    (h : List.Forall₂ (fun call candle => mergeWindow call.targetTime (call.window data) = .ok candle)
      calls candles) (hshaped : ∀ candle ∈ data, Shaped candle) : ∀ candle ∈ candles, Shaped candle := by
  induction h with
  | nil =>
    intro candle hcandle
    cases hcandle
  | @cons call candle _ _ hcandle _ ih =>
    rw [List.forall_mem_cons]
    have hwindow : ∀ entry ∈ call.window data, Shaped entry := by
      intro entry hentry
      exact hshaped entry (List.mem_of_mem_take (List.mem_of_mem_drop hentry))
    exact ⟨(mergeWindow_spec hcandle).2.2 hwindow, ih⟩

/-- Every query of a reachable state on a strictly increasing series returns, has merged existing
candles only, and replies one candle for each window asked for. -/
theorem getOhlcv_replyShape (h : d.Reachable) (hincreasing : Increasing (d.series pair))
    (hinterval : 0 < interval) (hcount : 0 ≤ count) :
    ∃ calls candles, getOhlcvCalls pair interval count d = .ok calls ∧
      (getOhlcv pair interval count d).1 = .ok candles ∧
      ReplyShape (d.series pair) d.dataTime interval count calls candles := by
  obtain ⟨candles, hcandles, hmerged⟩ := h.exists_candles hincreasing hinterval hcount
  refine ⟨_, candles, h.getOhlcvCalls_eq_windowCalls hincreasing hinterval hcount, hcandles, ?_⟩
  have htimes := timeStamps_eq hmerged
  have hnone (hearly : ∀ front, (d.series pair).head? = some front → d.dataTime ≤ front.timeStamp) :
      candles = [] := by
    rw [windowCalls_nil hinterval _ hearly, List.forall₂_nil_left_iff] at hmerged
    exact hmerged
  exact
    { range := windowCalls_range _ _ hinterval count.toNat
      nil := by
        intro hnil
        apply hnone
        intro front hfront
        rw [hnil] at hfront
        cases hfront
      early := by
        intro front hfront htime
        apply hnone
        intro first hfirst
        rw [hfront] at hfirst
        cases hfirst
        exact htime
      times := by
        intro front hfront _
        rw [htimes, windowCalls_eq hfront, List.map_map]
        rfl
      decreasing := by
        rw [htimes, List.pairwise_map]
        exact windowCalls_decreasing hinterval count.toNat
      shaped := shaped_of_merged hmerged }

/-- Two windows of 120 seconds reach from time 250 back to the first candle, with a gap at 160. -/
theorem getOhlcv_replyShape_gap :
    let pair : TradablePair := ⟨"BTC", "GBP"⟩
    let series : List OhlcvData := [⟨100, 2, 5, 1, 4, 3⟩, ⟨220, 4, 9, 3, 8, 5⟩]
    let d := create [pair] ((∅ : UnorderedMap _ _).insert pair series) 250 250 60 1
    ∃ calls candles, getOhlcvCalls pair 120 7 d = .ok calls ∧
      (getOhlcv pair 120 7 d).1 = .ok candles ∧
      ReplyShape (d.series pair) d.dataTime 120 7 calls candles := by
  intro pair series d
  have hseries : d.series pair = series := by decide +kernel
  have hincreasing : Increasing (d.series pair) := by
    rw [hseries]
    unfold Increasing
    decide +kernel
  exact getOhlcv_replyShape ⟨_, _, _, _, 60, _, none, [], by decide, rfl⟩ hincreasing (by decide)
    (by decide)

end Reachable

end BackTestingData

end MarketBlocks
