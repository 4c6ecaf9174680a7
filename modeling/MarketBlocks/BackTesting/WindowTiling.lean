import Mathlib.Data.Int.ConditionallyCompleteOrder
import MarketBlocks.BackTesting.CandleWindows

/-!
# What each candle of a query covers

A candle should merge what is traded from the one in force at its time up to the end of its
window. The window that is cut off at the first candle also takes in the candle at its end,
which the window before it has merged already.
-/

namespace MarketBlocks

open Library

namespace BackTestingData

/-- The candles from the one in force at `start` through the last one before `stop`. -/
def expectedWindow (data : List OhlcvData) (start stop : ℤ) : List OhlcvData :=
  (data.filter (·.timeStamp ≤ start)).getLast?.toList ++
    data.filter fun candle => start < candle.timeStamp ∧ candle.timeStamp < stop

section Windows

variable {data : List OhlcvData} {front : OhlcvData} {startTime start stop time interval : ℤ} {i : ℕ}

/-- The candles up to a moment, as those before the next one. -/
theorem take_candlesBefore_succ (start : ℤ) (hincreasing : Increasing data) :
    data.take (candlesBefore (start + 1) data) = data.filter (·.timeStamp ≤ start) := by
  rw [take_countBelow hincreasing.sorted]
  apply List.filter_congr
  intro candle _
  rw [decide_eq_decide]
  omega

/-- A range of iterators in terms of times. -/
theorem drop_lastUpTo_take (hincreasing : Increasing data) (hfront : data.head? = some front)
    (hstart : front.timeStamp ≤ start) (hlt : start < stop) :
    (data.take (candlesBefore stop data)).drop (lastUpTo start data) =
      expectedWindow data start stop := by
  have hpos := candlesBefore_pos hfront (by omega : front.timeStamp < start + 1)
  have hle : candlesBefore (start + 1) data ≤ data.length := countBelow_le_length
  have hupTo := take_candlesBefore_succ start hincreasing
  have hlength : (data.filter (·.timeStamp ≤ start)).length = candlesBefore (start + 1) data := by
    rw [← hupTo, List.length_take, Nat.min_eq_left hle]
  have hsplit : data.take (candlesBefore stop data) =
      data.filter (·.timeStamp ≤ start) ++
        data.filter fun candle => start < candle.timeStamp ∧ candle.timeStamp < stop := by
    have hparts := filter_append_filter_not
      (p := fun candle : OhlcvData => decide (candle.timeStamp ≤ start))
      ((hincreasing.sorted.filter (·.timeStamp < stop)).imp fun hle hup => by
        simpa using hle.trans (by simpa using hup))
    rw [List.filter_filter, List.filter_filter] at hparts
    rw [take_countBelow hincreasing.sorted, ← hparts]
    congr 1
    · apply List.filter_congr
      intro candle _
      rw [← Bool.decide_and, decide_eq_decide]
      omega
    · apply List.filter_congr
      intro candle _
      rw [← decide_not, ← Bool.decide_and, decide_eq_decide, not_le]
  have hne : data.filter (·.timeStamp ≤ start) ≠ [] := by
    rw [← List.length_pos_iff, hlength]
    exact hpos
  rw [hsplit, expectedWindow, lastUpTo, ← hlength, List.drop_append_of_le_length (by omega),
    List.drop_length_sub_one hne, List.getLast?_eq_getLast_of_ne_nil hne]
  rfl

/-- The window that reaches past the first candle ends a moment late. -/
theorem window_windowCall (hincreasing : Increasing data) (hfront : data.head? = some front)
    (hinterval : 0 < interval) (hi : i < windowCount front.timeStamp time interval) :
    (windowCall data front.timeStamp time interval i).window data =
      expectedWindow data (windowStart front.timeStamp time interval i)
        (if windowEnd time interval (i + 1) < front.timeStamp then windowEnd time interval i + 1
        else windowEnd time interval i) := by
  have hlt := windowStart_lt_windowEnd hinterval hi
  rw [MergeCall.window, windowCall, ← drop_lastUpTo_take hincreasing hfront le_windowStart]
  · split <;> rfl
  · split <;> omega

/-- Ending a moment late takes in the candle at the end. -/
theorem expectedWindow_succ_eq_iff (hlt : start < stop) :
    expectedWindow data start (stop + 1) = expectedWindow data start stop ↔
      ∀ candle ∈ data, candle.timeStamp ≠ stop := by
  rw [expectedWindow, expectedWindow, List.append_right_inj]
  constructor
  · intro h candle hcandle heq
    have hmem : candle ∈
        data.filter fun candle => start < candle.timeStamp ∧ candle.timeStamp < stop + 1 := by
      rw [List.mem_filter]
      exact ⟨hcandle, by simp; omega⟩
    rw [h, List.mem_filter] at hmem
    have hbefore := of_decide_eq_true hmem.2
    omega
  · intro h
    apply List.filter_congr
    intro candle hcandle
    have hne := h candle hcandle
    rw [decide_eq_decide]
    omega

/-- Only the last window is cut off, unless the interval divides the time since the first candle. -/
theorem windowEnd_succ_lt_iff (hinterval : 0 < interval) (hi : i < windowCount startTime time interval) :
    windowEnd time interval (i + 1) < startTime ↔
      windowCount startTime time interval = i + 1 ∧ ¬ interval ∣ time - startTime := by
  have hlater : i + 1 < windowCount startTime time interval ↔
      startTime < windowEnd time interval (i + 1) := lt_windowCount_iff hinterval
  constructor
  · intro hcut
    refine ⟨by omega, ?_⟩
    rintro ⟨q, hq⟩
    have hhere := (lt_windowCount_iff hinterval).mp hi
    simp only [windowEnd] at hcut hhere
    push_cast at hcut hhere
    -- the quotient would lie strictly between two neighbours
    have hlow : (i : ℤ) < q := by
      by_contra hge
      have := mul_le_mul_of_nonneg_left (not_lt.mp hge) hinterval.le
      linarith
    have hhigh : q < i + 1 := by
      by_contra hge
      have := mul_le_mul_of_nonneg_left (not_lt.mp hge) hinterval.le
      linarith
    omega
  · rintro ⟨hcount, hdvd⟩
    have hle : windowEnd time interval (i + 1) ≤ startTime := by
      rw [← not_lt, ← hlater]
      omega
    refine lt_of_le_of_ne hle fun heq => hdvd ⟨i + 1, ?_⟩
    rw [← heq, windowEnd]
    push_cast
    ring

end Windows

/-! ## Evenly spaced candles -/

/-- Every candle starts `spacing` after the one before it. -/
def EvenlySpaced (spacing : ℤ) (data : List OhlcvData) : Prop :=
  data.IsChain fun candle next => next.timeStamp = candle.timeStamp + spacing

section Spacing

variable {data : List OhlcvData} {front candle : OhlcvData} {spacing start stop moment time interval : ℤ}
  {index : ℕ}

/-- The rows count the time. -/
theorem EvenlySpaced.timeStamp_eq (h : EvenlySpaced spacing data) (hfront : data.head? = some front)
    (hcandle : data[index]? = some candle) :
    candle.timeStamp = front.timeStamp + index * spacing := by
  induction data generalizing front index with
  | nil => cases hfront
  | cons first rest ih =>
    cases hfront
    cases index with
    | zero =>
      rw [List.getElem?_cons_zero, Option.some.injEq] at hcandle
      subst hcandle
      simp
    | succ index =>
      rw [List.getElem?_cons_succ] at hcandle
      cases rest with
      | nil => cases hcandle
      | cons second others =>
        obtain ⟨hnext, hrest⟩ := List.isChain_cons_cons.mp h
        rw [ih hrest rfl hcandle, hnext]
        push_cast
        ring

/-- Up to the time of some candle there is a candle at every multiple of the spacing. -/
theorem EvenlySpaced.exists_candle (h : EvenlySpaced spacing data) (hspacing : 0 < spacing)
    (hfront : data.head? = some front) (htime : time ∈ data.map OhlcvData.timeStamp)
    (hlow : front.timeStamp ≤ moment) (hhigh : moment ≤ time)
    (hdvd : spacing ∣ moment - front.timeStamp) : ∃ candle ∈ data, candle.timeStamp = moment := by
  obtain ⟨last, hlast, rfl⟩ := List.mem_map.mp htime
  obtain ⟨index, hindex⟩ := List.getElem?_of_mem hlast
  have hend := h.timeStamp_eq hfront hindex
  obtain ⟨q, hq⟩ := hdvd
  have hnonneg : 0 ≤ q := by
    by_contra hneg
    have := mul_pos_of_neg_of_neg (not_le.mp hneg) (neg_neg_of_pos hspacing)
    linarith
  have hle : q ≤ index := by
    by_contra hgt
    have := mul_lt_mul_of_pos_right (not_le.mp hgt) hspacing
    linarith
  have hlt : q.toNat < data.length := by
    have := (List.getElem?_eq_some_iff.mp hindex).1
    omega
  refine ⟨data[q.toNat], List.getElem_mem hlt, ?_⟩
  rw [h.timeStamp_eq hfront (List.getElem?_eq_getElem hlt), Int.toNat_of_nonneg hnonneg]
  linarith

/-- The candles before a candle are those with a smaller index. -/
theorem candlesBefore_timeStamp (hincreasing : Increasing data) (hcandle : data[index]? = some candle) :
    candlesBefore candle.timeStamp data = index := by
  obtain ⟨hlt, heq⟩ := List.getElem?_eq_some_iff.mp hcandle
  have hself : index < candlesBefore candle.timeStamp data ↔ candle.timeStamp < candle.timeStamp :=
    lt_candlesBefore_iff hincreasing hcandle
  by_contra hne
  have hless : candlesBefore candle.timeStamp data < index := by omega
  have hentry := List.getElem?_eq_getElem (hless.trans hlt)
  have hbefore : data[candlesBefore candle.timeStamp data].timeStamp < data[index].timeStamp :=
    List.pairwise_iff_getElem.mp hincreasing _ _ _ _ hless
  rw [congrArg OhlcvData.timeStamp heq] at hbefore
  have hcounted := (lt_candlesBefore_iff hincreasing hentry).mpr hbefore
  omega

/-- A window that starts at a candle is the slice of the series. -/
theorem expectedWindow_eq_slice (hincreasing : Increasing data) (hfront : data.head? = some front)
    (hcandle : ∃ candle ∈ data, candle.timeStamp = start) (hlow : front.timeStamp ≤ start)
    (hlt : start < stop) :
    expectedWindow data start stop = slice OhlcvData.timeStamp data start stop := by
  obtain ⟨candle, hmem, rfl⟩ := hcandle
  obtain ⟨index, hindex⟩ := List.getElem?_of_mem hmem
  have hbefore := candlesBefore_timeStamp hincreasing hindex
  have hlast : lastUpTo candle.timeStamp data = candlesBefore candle.timeStamp data := by
    rw [lastUpTo, candlesBefore_succ _ hincreasing, if_pos (by rw [hbefore, hindex]; rfl)]
    rfl
  have hle : candlesBefore candle.timeStamp data ≤ data.length := countBelow_le_length
  have hsorted := hincreasing.sorted.filter (·.timeStamp < stop)
  have hpast : (data.filter (·.timeStamp < stop)).filter (·.timeStamp < candle.timeStamp) =
      data.take (candlesBefore candle.timeStamp data) := by
    rw [take_countBelow hincreasing.sorted, List.filter_filter]
    apply List.filter_congr
    intro entry _
    rw [← Bool.decide_and, decide_eq_decide]
    omega
  rw [← drop_lastUpTo_take hincreasing hfront hlow hlt, hlast, take_countBelow hincreasing.sorted,
    ← filter_lt_append_filter_le hsorted candle.timeStamp, hpast,
    List.drop_left' (by rw [List.length_take, Nat.min_eq_left hle]), slice, List.filter_filter]
  apply List.filter_congr
  intro entry _
  rw [← Bool.decide_and, decide_eq_decide]

end Spacing

/-! ## The candles of a reply -/

/-- Every candle before `time` and not before the oldest returned one is merged exactly once. -/
structure Tiled (data : List OhlcvData) (time : ℤ) (calls : List MergeCall)
    (candles : List OhlcvData) : Prop where
  once : ∀ oldest, candles.getLast? = some oldest → ∀ candle ∈ data,
    oldest.timeStamp ≤ candle.timeStamp → candle.timeStamp < time →
      ∃! i : ℕ, ∃ call : MergeCall, calls[i]? = some call ∧ candle ∈ call.window data
  volumes : ∀ oldest, candles.getLast? = some oldest →
    (candles.map OhlcvData.volume).sum =
      ((slice OhlcvData.timeStamp data oldest.timeStamp time).map OhlcvData.volume).sum

/-- Every candle of a reply merges what its window should cover. -/
structure WindowedReply (data : List OhlcvData) (startTime time interval count : ℤ)
    (calls : List MergeCall) (candles : List OhlcvData) : Prop where
  windows : calls.map (fun call => (call.targetTime, call.window data)) =
    (List.range (min count.toNat ⌈((time - startTime : ℤ) : ℚ) / interval⌉₊)).map fun i : ℕ =>
      (max (time - (i + 1) * interval) startTime,
        expectedWindow data (max (time - (i + 1) * interval) startTime) (time - i * interval))
  merged : List.Forall₂ (fun call candle => mergeWindow call.targetTime (call.window data) = .ok candle)
    calls candles
  tiled : ∀ spacing, 0 < spacing → EvenlySpaced spacing data → spacing ∣ interval →
    time ∈ data.map OhlcvData.timeStamp → Tiled data time calls candles

/-- The reply of a state is as it should be. -/
def Windowed (d : BackTestingData) (pair : TradablePair) (startTime interval count : ℤ) : Prop :=
  0 ≤ count → ∃ calls candles, getOhlcvCalls pair interval count d = .ok calls ∧
    (getOhlcv pair interval count d).1 = .ok candles ∧
    WindowedReply (d.series pair) startTime d.dataTime interval count calls candles

section Replies

variable {data candles : List OhlcvData} {front : OhlcvData} {startTime time interval spacing : ℤ}
  {count : ℕ}

/-- The windows end where the later ones begin. -/
def windowBound (startTime time interval : ℤ) (i : ℕ) : ℤ := max (windowEnd time interval i) startTime

/-- Older windows have earlier bounds. -/
theorem windowBound_antitone (hinterval : 0 < interval) :
    Antitone (windowBound startTime time interval) := by
  apply antitone_nat_of_succ_le
  intro i
  have hnext : windowEnd time interval (i + 1) = windowEnd time interval i - interval := by
    simp only [windowEnd]
    push_cast
    ring
  rw [windowBound, windowBound, hnext]
  omega

/-- A window starts at the next bound. -/
theorem windowBound_succ (i : ℕ) :
    windowBound startTime time interval (i + 1) = windowStart startTime time interval i := by
  rw [windowBound, windowStart_eq]

/-- A window that counts ends at its bound. -/
theorem windowBound_of_lt (hinterval : 0 < interval) {i : ℕ}
    (hi : i < windowCount startTime time interval) :
    windowBound startTime time interval i = windowEnd time interval i :=
  max_eq_left ((lt_windowCount_iff hinterval).mp hi).le

/-- The windows of evenly spaced candles are the slices between the bounds. -/
theorem expectedWindow_eq_bounds (hincreasing : Increasing data) (hfront : data.head? = some front)
    (hinterval : 0 < interval) (hspacing : 0 < spacing) (hevenly : EvenlySpaced spacing data)
    (hmultiple : spacing ∣ interval) (htime : time ∈ data.map OhlcvData.timeStamp) {i : ℕ}
    (hi : i < windowCount front.timeStamp time interval) :
    expectedWindow data (windowStart front.timeStamp time interval i) (windowEnd time interval i) =
      slice OhlcvData.timeStamp data (windowBound front.timeStamp time interval (i + 1))
        (windowBound front.timeStamp time interval i) := by
  have hlt := windowStart_lt_windowEnd hinterval hi
  have hle : windowStart front.timeStamp time interval i ≤ time := by
    have hzero : windowEnd time interval i ≤ time := by
      have := mul_nonneg (Int.natCast_nonneg i) hinterval.le
      simp only [windowEnd]
      omega
    omega
  have hfirst : spacing ∣ time - front.timeStamp := by
    obtain ⟨last, hlast, rfl⟩ := List.mem_map.mp htime
    obtain ⟨index, hindex⟩ := List.getElem?_of_mem hlast
    rw [hevenly.timeStamp_eq hfront hindex, add_sub_cancel_left]
    exact dvd_mul_left _ _
  have hdvd : spacing ∣ windowStart front.timeStamp time interval i - front.timeStamp := by
    rw [windowStart]
    rcases max_choice (time - (i + 1) * interval) front.timeStamp with hmax | hmax
    · rw [hmax, sub_right_comm]
      exact dvd_sub hfirst (hmultiple.mul_left _)
    · rw [hmax, sub_self]
      exact dvd_zero _
  rw [windowBound_succ, windowBound_of_lt hinterval hi]
  exact expectedWindow_eq_slice hincreasing hfront
    (hevenly.exists_candle hspacing hfront htime le_windowStart hle hdvd) le_windowStart hlt

/-- A merged candle has the volume of its window. -/
private theorem volumes_eq {calls : List MergeCall}
    (h : List.Forall₂ (fun call candle => mergeWindow call.targetTime (call.window data) = .ok candle)
      calls candles) :
    candles.map OhlcvData.volume =
      calls.map fun call => ((call.window data).map OhlcvData.volume).sum := by
  induction h with
  | nil => rfl
  | cons hcandle _ ih => rw [List.map_cons, List.map_cons, ih, (mergeWindow_spec hcandle).2.1]

/-- Windows that are slices between falling bounds merge every covered candle once. -/
private theorem tiled_of_slices {bound : ℕ → ℤ} (hbound : Antitone bound) (hzero : bound 0 = time)
    {calls : List MergeCall} (hlength : calls.length = count)
    (hcalls : ∀ i call, calls[i]? = some call → call.targetTime = bound (i + 1) ∧
      call.window data = slice OhlcvData.timeStamp data (bound (i + 1)) (bound i))
    (hmerged : List.Forall₂ (fun call candle =>
      mergeWindow call.targetTime (call.window data) = .ok candle) calls candles) :
    Tiled data time calls candles := by
  have hlow (oldest : OhlcvData) (holdest : candles.getLast? = some oldest) :
      oldest.timeStamp = bound count := by
    have hlast : (candles.map OhlcvData.timeStamp).getLast? = some oldest.timeStamp := by
      rw [List.getLast?_map, holdest]
      rfl
    rw [timeStamps_eq hmerged, List.getLast?_map, Option.map_eq_some_iff] at hlast
    obtain ⟨call, hcall, htarget⟩ := hlast
    rw [List.getLast?_eq_getElem?] at hcall
    have hpos : 0 < calls.length := by
      have := (List.getElem?_eq_some_iff.mp hcall).1
      omega
    rw [← htarget, (hcalls _ call hcall).1, ← hlength]
    congr 1
    omega
  constructor
  · intro oldest holdest candle hcandle hge hlt
    rw [hlow oldest holdest] at hge
    rw [← hzero] at hlt
    obtain ⟨i, ⟨hi, hslice⟩, hunique⟩ := existsUnique_slice hbound hge hlt
    have hget := List.getElem?_eq_getElem (hlength ▸ hi)
    refine ⟨i, ⟨_, hget, ?_⟩, ?_⟩
    · rw [(hcalls i _ hget).2, mem_slice]
      exact ⟨hcandle, hslice⟩
    · rintro j ⟨call, hcall, hmem⟩
      rw [(hcalls j call hcall).2, mem_slice] at hmem
      exact hunique j ⟨hlength ▸ (List.getElem?_eq_some_iff.mp hcall).1, hmem.2⟩
  · intro oldest holdest
    have hwindows : calls.map (fun call => ((call.window data).map OhlcvData.volume).sum) =
        (List.range count).map fun i =>
          ((slice OhlcvData.timeStamp data (bound (i + 1)) (bound i)).map OhlcvData.volume).sum := by
      apply List.ext_getElem
      · simp [hlength]
      · intro i hi _
        rw [List.length_map] at hi
        rw [List.getElem_map, List.getElem_map, List.getElem_range,
          (hcalls i _ (List.getElem?_eq_getElem hi)).2]
    rw [hlow oldest holdest, ← hzero, volumes_eq hmerged, hwindows, sum_slices _ hbound]

/-- Windows that cover what they should merge every covered candle of an evenly spaced series once. -/
private theorem tiled_of_windows (hincreasing : Increasing data) (hfront : data.head? = some front)
    (hinterval : 0 < interval) (htime : front.timeStamp < time)
    (hwindows : ((windowCalls data time interval count).map fun call =>
        (call.targetTime, call.window data)) =
      (List.range (min count (windowCount front.timeStamp time interval))).map fun i =>
        (windowStart front.timeStamp time interval i,
          expectedWindow data (windowStart front.timeStamp time interval i)
            (windowEnd time interval i)))
    (hmerged : List.Forall₂ (fun call candle =>
      mergeWindow call.targetTime (call.window data) = .ok candle)
        (windowCalls data time interval count) candles)
    (hspacing : 0 < spacing) (hevenly : EvenlySpaced spacing data) (hmultiple : spacing ∣ interval)
    (hlast : time ∈ data.map OhlcvData.timeStamp) :
    Tiled data time (windowCalls data time interval count) candles := by
  have hlength : (windowCalls data time interval count).length =
      min count (windowCount front.timeStamp time interval) := by
    rw [windowCalls_eq hfront, List.length_map, List.length_range]
  have hzero : windowBound front.timeStamp time interval 0 = time := by
    rw [windowBound, windowEnd_zero]
    exact max_eq_left htime.le
  refine tiled_of_slices (windowBound_antitone hinterval) hzero hlength ?_ hmerged
  intro i call hcall
  have hi : i < min count (windowCount front.timeStamp time interval) :=
    hlength ▸ (List.getElem?_eq_some_iff.mp hcall).1
  have hpair := congrArg (fun entries => entries[i]?) hwindows
  simp only [List.getElem?_map, hcall, List.getElem?_range hi, Option.map_some, Option.some.injEq,
    Prod.mk.injEq] at hpair
  obtain ⟨htarget, hwindow⟩ := hpair
  rw [hwindow, expectedWindow_eq_bounds hincreasing hfront hinterval hspacing hevenly hmultiple hlast
    (lt_min_iff.mp hi).2, windowBound_succ]
  exact ⟨htarget, rfl⟩

/-- The windows of a query cover what they should exactly when no candle starts at the end of a
window that is cut off. -/
private theorem windows_eq_iff (count : ℕ) (hincreasing : Increasing data) (hfront : data.head? = some front)
    (hinterval : 0 < interval) (htime : front.timeStamp < time) :
    ((windowCalls data time interval count).map fun call => (call.targetTime, call.window data)) =
        (List.range (min count (windowCount front.timeStamp time interval))).map (fun i =>
          (windowStart front.timeStamp time interval i,
            expectedWindow data (windowStart front.timeStamp time interval i)
              (windowEnd time interval i))) ↔
      count < windowCount front.timeStamp time interval ∨ interval ∣ time - front.timeStamp ∨
        ∀ candle ∈ data, candle.timeStamp ≠
          windowEnd time interval (windowCount front.timeStamp time interval - 1) := by
  have hpos := windowCount_pos hinterval htime
  rw [windowCalls_eq hfront, List.map_map, List.map_inj_left]
  constructor
  · intro hall
    by_contra hnot
    push Not at hnot
    obtain ⟨hcount, hdvd, candle, hcandle, hend⟩ := hnot
    have hlast : windowCount front.timeStamp time interval - 1 <
        windowCount front.timeStamp time interval := by omega
    have hcut := (windowEnd_succ_lt_iff hinterval hlast).mpr ⟨by omega, hdvd⟩
    have hsame := congrArg Prod.snd (hall _ (List.mem_range.mpr (lt_min (by omega) hlast)))
    simp only [Function.comp_apply] at hsame
    rw [window_windowCall hincreasing hfront hinterval hlast, if_pos hcut,
      expectedWindow_succ_eq_iff (windowStart_lt_windowEnd hinterval hlast)] at hsame
    exact hsame candle hcandle hend
  · intro hcond i hi
    rw [List.mem_range, lt_min_iff] at hi
    have hwindow := window_windowCall hincreasing hfront hinterval hi.2
    simp only [Function.comp_apply, Prod.mk.injEq]
    refine ⟨rfl, ?_⟩
    split at hwindow
    · next hcut =>
      obtain ⟨hlast, hdvd⟩ := (windowEnd_succ_lt_iff hinterval hi.2).mp hcut
      have hnone : ∀ candle ∈ data, candle.timeStamp ≠ windowEnd time interval i := by
        rcases hcond with hfew | hmultiple | hnone
        · omega
        · exact absurd hmultiple hdvd
        · rw [hlast, Nat.add_sub_cancel] at hnone
          exact hnone
      rw [hwindow, expectedWindow_succ_eq_iff (windowStart_lt_windowEnd hinterval hi.2)]
      exact hnone
    · exact hwindow

end Replies

/-- Every candle of a reply merges exactly what its window should cover, and evenly spaced candles
are merged once each, exactly when the reply does not reach the first candle, or the interval
divides the time since then, or no candle starts at the end of the oldest window. -/
theorem getOhlcv_windowed_iff {d : BackTestingData} {pair : TradablePair} {front : OhlcvData}
    {interval count : ℤ} (h : d.Reachable) (hincreasing : Increasing (d.series pair))
    (hfront : (d.series pair).head? = some front) (htime : front.timeStamp < d.dataTime)
    (hinterval : 0 < interval) :
    Windowed d pair front.timeStamp interval count ↔
      count < ⌈((d.dataTime - front.timeStamp : ℤ) : ℚ) / interval⌉₊ ∨
        interval ∣ d.dataTime - front.timeStamp ∨
        ∀ candle ∈ d.series pair, candle.timeStamp ≠
          d.dataTime - (⌈((d.dataTime - front.timeStamp : ℤ) : ℚ) / interval⌉₊ - 1) * interval := by
  have hpos := windowCount_pos hinterval htime
  have hend : windowEnd d.dataTime interval (windowCount front.timeStamp d.dataTime interval - 1) =
      d.dataTime - (⌈((d.dataTime - front.timeStamp : ℤ) : ℚ) / interval⌉₊ - 1) * interval := by
    rw [windowEnd, Nat.cast_sub hpos, Nat.cast_one]
    rfl
  have hwindows := windows_eq_iff count.toNat hincreasing hfront hinterval htime
  rw [hend] at hwindows
  rcases lt_or_ge count 0 with hnegative | hcount
  · constructor
    · intro _
      exact .inl (hnegative.trans_le (Int.natCast_nonneg _))
    · intro _ hcount
      omega
  · have hfew : count < ⌈((d.dataTime - front.timeStamp : ℤ) : ℚ) / interval⌉₊ ↔
        count.toNat < windowCount front.timeStamp d.dataTime interval := by
      rw [windowCount]
      omega
    rw [hfew, ← hwindows]
    have hcalls := h.getOhlcvCalls_eq_windowCalls hincreasing hinterval hcount
    constructor
    · intro hwindowed
      obtain ⟨calls, candles, hcalls', -, hreply⟩ := hwindowed hcount
      rw [hcalls] at hcalls'
      cases hcalls'
      exact hreply.windows
    · intro heq _
      obtain ⟨candles, hcandles, hmerged⟩ := h.exists_candles hincreasing hinterval hcount
      refine ⟨_, candles, hcalls, hcandles, heq, hmerged, ?_⟩
      intro spacing hspacing hevenly hmultiple hlast
      exact tiled_of_windows hincreasing hfront hinterval htime heq hmerged hspacing hevenly hmultiple
        hlast

/-- At time 250 the window cut off at 100 ends at 130, where no candle starts. -/
theorem getOhlcv_windowed_between :
    let pair : TradablePair := ⟨"BTC", "GBP"⟩
    let series : List OhlcvData :=
      [⟨100, 2, 5, 1, 4, 3⟩, ⟨160, 4, 9, 3, 8, 5⟩, ⟨220, 8, 15, 6, 13, 21⟩]
    let d := create [pair] ((∅ : UnorderedMap _ _).insert pair series) 250 250 60 1
    Windowed d pair 100 120 2 := by
  intro pair series d
  have hseries : d.series pair = series := by decide +kernel
  have hincreasing : Increasing (d.series pair) := by
    rw [hseries]
    unfold Increasing
    decide +kernel
  have hreach : d.Reachable := ⟨_, _, _, _, 60, _, none, [], by decide, rfl⟩
  have hfront : (d.series pair).head? = some ⟨100, 2, 5, 1, 4, 3⟩ := by
    rw [hseries]
    rfl
  refine (getOhlcv_windowed_iff hreach hincreasing hfront (by decide) (by decide)).mpr (.inr (.inr ?_))
  rw [hseries]
  decide +kernel

/-- At time 280 two windows of 120 seconds reach back to the candle at 100. The older one ends at
160 and merges the candle that starts there, which the newer one has merged: the volumes of the
reply add up to 7, those of the three candles to 6. -/
theorem getOhlcv_not_windowed :
    let pair : TradablePair := ⟨"BTC", "GBP"⟩
    let series : List OhlcvData :=
      [⟨100, 1, 1, 1, 1, 3⟩, ⟨160, 1, 1, 1, 1, 1⟩, ⟨220, 1, 1, 1, 1, 2⟩, ⟨280, 1, 1, 1, 1, 1⟩]
    let d := create [pair] ((∅ : UnorderedMap _ _).insert pair series) 280 280 60 1
    (getOhlcv pair 120 2 d).1 = .ok [⟨160, 1, 1, 1, 1, 3⟩, ⟨100, 1, 1, 1, 1, 4⟩] ∧
      ¬ Windowed d pair 100 120 2 := by
  intro pair series d
  have hreply : (getOhlcv pair 120 2 d).1 = .ok [⟨160, 1, 1, 1, 1, 3⟩, ⟨100, 1, 1, 1, 1, 4⟩] := by
    decide +kernel
  refine ⟨hreply, fun hwindowed => ?_⟩
  obtain ⟨calls, candles, _, hcandles, hwindows⟩ := hwindowed (by decide)
  rw [hreply] at hcandles
  cases hcandles
  have hseries : d.series pair = series := by decide +kernel
  have htiled := hwindows.tiled 60 (by decide) (by rw [hseries]; simp [EvenlySpaced, series])
    (by decide) (by rw [hseries]; decide)
  have hvolumes := htiled.volumes _ rfl
  revert hvolumes
  decide +kernel

end BackTestingData

end MarketBlocks
